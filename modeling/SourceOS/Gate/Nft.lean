import Mathlib.Data.Finset.Sort
import Mathlib.Data.List.Lex
import Mathlib.Data.Char
import SourceOS.Foundation.Lists
import SourceOS.Gate.Store

/-!
# Writing the allowlist sets

The writing half of `nft.py`: the baseline checks, and `apply_sets`, which turns three sets of
strings into a script and hands it to `nft -f -`.

* The `nft` program is outside. What it answers to the `nft list` probes, and whether it takes a
  script, is an argument of the call; a script it takes acts on the kernel as a whole, one it
  refuses leaves the kernel alone, since `nft -f` is one transaction. The kernel's content is any
  type here.
* The script is a text, built as the source builds it. The second half of the `add element` line is
  not an f-string, so its two closing braces both reach the script.
* A Python set has no order of its own. Where the source goes through one to convert its members,
  the model goes through it in sorted order; only which of several failing members is reported
  depends on that.
-/

namespace SourceOS.Gate

open Text

/-- `NftConfig`. -/
structure NftConfig where
  tableFamily : Str := "inet".toList
  tableName : Str := "sourceos".toList
  setAllowV4 : Str := "frontier_allow_v4".toList
  setTcpPorts : Str := "frontier_allow_tcp_ports".toList
  setUdpPorts : Str := "frontier_allow_udp_ports".toList
  chainOutput : Str := "output".toList

/-- `NftConfig()`, the configuration every caller uses. -/
def NftConfig.default : NftConfig := {}

/-- The three allowlist sets. -/
def NftConfig.allowlist (cfg : NftConfig) : List Str :=
  [cfg.setAllowV4, cfg.setTcpPorts, cfg.setUdpPorts]

/-! ### `require_baseline` -/

/-- `_exists`: whether `nft list kind parts…` exits with status zero, or what running it raises. -/
abbrev Probe := Str → List Str → Except BuiltinError Bool

/-- One probe, and the error when nothing is there. -/
def Probe.require (probe : Probe) (kind : String) (parts : List Str) (missing : Str) :
    Except Exc Unit :=
  match probe kind.toList parts with
  | .error e => .error (.builtin e)
  | .ok true => .ok ()
  | .ok false => .error (.baselineMissing missing)

/-- `require_baseline`. -/
def requireBaseline (cfg : NftConfig) (probe : Probe) : Except Exc Unit := do
  probe.require "table" [cfg.tableFamily, cfg.tableName] "missing nft baseline table".toList
  cfg.allowlist.forM fun s ↦
    probe.require "set" [cfg.tableFamily, cfg.tableName, s]
      ("missing nft baseline set: ".toList ++ s)
  probe.require "chain" [cfg.tableFamily, cfg.tableName, cfg.chainOutput]
    "missing nft baseline output chain".toList

/-! ### The script of `apply_sets` -/

/-- `sorted` of a set of strings. -/
def sorted (s : Finset PyStr) : List PyStr :=
  s.sort (· ≤ ·)

/-- `{str(x).replace("/32", "") for x in addrs if str(x).strip()}`. -/
def elementAddrs (addrs : Finset PyStr) : Finset PyStr :=
  (addrs.filter fun x ↦ PyStr.isBlank x = false).image dropHostMask

/-- `{str(int(p)) for p in ports}`. -/
def convertPorts (py : Runtime) (ports : Finset PyStr) : Except Exc (Finset PyStr) :=
  match (sorted ports).mapM (Python.intOfStr py) with
  | .ok ns => .ok (ns.map PyStr.ofInt).toFinset
  | .error e => .error (.builtin e)

/-- `{str(int(p)) for p in ports if str(p).strip()}`. -/
def elementPorts (py : Runtime) (ports : Finset PyStr) : Except Exc (Finset PyStr) :=
  convertPorts py (ports.filter fun p ↦ PyStr.isBlank p = false)

/-- `flush set family table set`. -/
def flushLine (cfg : NftConfig) (set : Str) : PyStr :=
  "flush set ".toList ++ (cfg.tableFamily ++ ' ' :: (cfg.tableName ++ ' ' :: set))

/-- `add element family table set \x7b `, the first half of a line. -/
def addHead (cfg : NftConfig) (set : Str) : Str :=
  "add element ".toList ++ (cfg.tableFamily ++ ' ' :: (cfg.tableName ++ ' ' ::
    (set ++ " \x7b ".toList)))

/-- `add element family table set \x7b a, b, …  }}`. -/
def addLine (cfg : NftConfig) (set : Str) (elems : List PyStr) : PyStr :=
  PyStr.ofStr (addHead cfg set) ++ ((PyStr.lit ", ").intercalate elems ++ PyStr.lit " \x7d\x7d")

/-- The `add element` line of a set, when there is anything to add. -/
def addLines (cfg : NftConfig) (set : Str) (elems : List PyStr) : List PyStr :=
  if elems = [] then [] else [addLine cfg set elems]

/-- `lines`. -/
def scriptLines (cfg : NftConfig) (a t u : List PyStr) : List PyStr :=
  cfg.allowlist.map (flushLine cfg) ++ addLines cfg cfg.setAllowV4 a ++
    addLines cfg cfg.setTcpPorts t ++ addLines cfg cfg.setUdpPorts u

/-- `"\n".join(lines) + "\n"`. -/
def scriptText (lines : List PyStr) : PyStr :=
  [.char '\n'].intercalate lines ++ [.char '\n']

/-- The elements `apply_sets` puts into the kernel's sets. -/
def elementSets (py : Runtime) (sets : ActiveSets) : Except Exc ActiveSets := do
  let t ← elementPorts py sets.tcpPorts
  let u ← elementPorts py sets.udpPorts
  return ⟨elementAddrs sets.addrs, t, u⟩

/-- The script `apply_sets` hands to `nft -f -`. -/
def applyScript (py : Runtime) (cfg : NftConfig) (sets : ActiveSets) : Except Exc PyStr := do
  let e ← elementSets py sets
  return scriptText (scriptLines cfg (sorted e.addrs) (sorted e.tcpPorts) (sorted e.udpPorts))

/-! ### `apply_sets` -/

/-- How running `nft -f -` ends. -/
inductive ScriptOutcome
  /-- Exit status zero. -/
  | applied
  /-- Another exit status, with what was printed. -/
  | refused (stderr stdout : Str)
  /-- `subprocess.run` raises something else, as it does when the script cannot be encoded. -/
  | raised (e : BuiltinError)

/-- One call of `apply_sets` as the outside world sees it. -/
structure ApplyEnv where
  /-- `os.geteuid() == 0`. -/
  isRoot : Bool
  /-- The answers to the probes of `require_baseline`. -/
  probe : Probe
  /-- The end of the script. -/
  script : ScriptOutcome

/-- `e.stderr or e.stdout or "nft failed"`. -/
def nftMessage (stderr stdout : Str) : Str :=
  if stderr ≠ [] then stderr else if stdout ≠ [] then stdout else "nft failed".toList

variable {κ : Type}

/-- `_run_script`: `act` is what an accepted script does to the kernel. -/
def runScript (act : PyStr → κ → κ) (outcome : ScriptOutcome) (script : PyStr) (k : κ) :
    Except Exc Unit × κ :=
  match outcome with
  | .applied => (.ok (), act script k)
  | .refused stderr stdout => (.error (.nft (nftMessage stderr stdout)), k)
  | .raised e => (.error (.builtin e), k)

/-- `apply_sets`. -/
def applySets (py : Runtime) (cfg : NftConfig) (act : PyStr → κ → κ) (env : ApplyEnv)
    (sets : ActiveSets) (k : κ) : Except Exc Unit × κ :=
  if env.isRoot = false then (.error (.permission "root required".toList), k)
  else
    match requireBaseline cfg env.probe with
    | .error e => (.error e, k)
    | .ok () =>
      match applyScript py cfg sets with
      | .error e => (.error e, k)
      | .ok script => runScript act env.script script k

/-- **An `apply_sets` that raises leaves the kernel alone.** -/
theorem applySets_error {py : Runtime} {cfg : NftConfig} {act : PyStr → κ → κ} {env : ApplyEnv}
    {sets : ActiveSets} {k : κ} {e : Exc} (h : (applySets py cfg act env sets k).1 = .error e) :
    (applySets py cfg act env sets k).2 = k := by
  unfold applySets at h ⊢
  split
  · rfl
  · rename_i hroot
    rw [if_neg hroot] at h
    cases hbase : requireBaseline cfg env.probe with
    | error e => rfl
    | ok u =>
      cases hscript : applyScript py cfg sets with
      | error e => rfl
      | ok script =>
        rw [hbase, hscript] at h
        cases hout : env.script with
        | applied => simp [hout, runScript] at h
        | refused stderr stdout => rfl
        | raised e => rfl

/-- The script of a call is run and taken: nothing stands in its way before. -/
def ApplyEnv.Taken (cfg : NftConfig) (env : ApplyEnv) : Prop :=
  env.isRoot = true ∧ requireBaseline cfg env.probe = .ok () ∧ env.script = .applied

/-- **What `apply_sets` does with a script it can build**: the script acts, or it raises and leaves
the kernel alone. -/
theorem applySets_cases {py : Runtime} {cfg : NftConfig} (act : PyStr → κ → κ) (env : ApplyEnv)
    {sets : ActiveSets} {script : PyStr} (h : applyScript py cfg sets = .ok script) (k : κ) :
    (env.Taken cfg ∧ applySets py cfg act env sets k = (.ok (), act script k)) ∨
      (¬ env.Taken cfg ∧ ∃ e, applySets py cfg act env sets k = (.error e, k)) := by
  unfold applySets
  cases hroot : env.isRoot with
  | false => exact Or.inr ⟨fun htaken ↦ absurd (hroot.symm.trans htaken.1) (by decide), _, rfl⟩
  | true =>
    rw [if_neg (by decide)]
    cases hbase : requireBaseline cfg env.probe with
    | error e => exact Or.inr ⟨fun htaken ↦ absurd (hbase.symm.trans htaken.2.1) (by simp), e, rfl⟩
    | ok u =>
      simp only [h]
      cases hout : env.script with
      | applied => exact Or.inl ⟨⟨hroot, hbase, hout⟩, rfl⟩
      | refused stderr stdout =>
        exact Or.inr ⟨fun htaken ↦ absurd (hout.symm.trans htaken.2.2) (by simp), _, rfl⟩
      | raised e =>
        exact Or.inr ⟨fun htaken ↦ absurd (hout.symm.trans htaken.2.2) (by simp), _, rfl⟩

/-- Numerals are converted to themselves. -/
theorem convertPorts_of_numerals (py : Runtime) {ports : Finset PyStr}
    (h : ∀ p ∈ ports, ∃ n : ℤ, Python.HasNumeral n ∧ PyStr.ofInt n = p) :
    convertPorts py ports = .ok ports := by
  obtain ⟨ms, hms⟩ := @exists_forall₂ _ _
    (fun p n ↦ Python.intOfStr py p = .ok n ∧ PyStr.ofInt n = p) (sorted ports) fun p hp ↦ by
      obtain ⟨n, hn, rfl⟩ := h p ((Finset.mem_sort _).1 hp)
      exact ⟨n, Python.intOfStr_ofInt _ hn, rfl⟩
  have hdec : ms.map PyStr.ofInt = sorted ports := by
    rw [← List.forall₂_eq_eq_eq, List.forall₂_map_left_iff]
    exact hms.flip.imp fun n p h ↦ h.2
  rw [convertPorts, mapM_eq_ok_iff.2 (hms.imp fun p n h ↦ h.1)]
  simp only [hdec, sorted, Finset.sort_toFinset]

/-- The ports of the active sets are numerals already, so `apply_sets` takes them as they are. -/
theorem elementPorts_of_numerals (py : Runtime) {ports : Finset PyStr}
    (h : ∀ p ∈ ports, ∃ n : ℤ, Python.HasNumeral n ∧ PyStr.ofInt n = p) :
    elementPorts py ports = .ok ports := by
  have hall : ports.filter (fun p ↦ PyStr.isBlank p = false) = ports := by
    refine Finset.filter_true_of_mem fun p hp ↦ ?_
    obtain ⟨n, -, rfl⟩ := h p hp
    exact PyStr.isBlank_ofInt n
  rw [elementPorts, hall, convertPorts_of_numerals py h]

/-- Only the addresses are changed on the way from the active sets to the elements. -/
theorem elementSets_of_numerals (py : Runtime) {sets : ActiveSets}
    (htcp : ∀ p ∈ sets.tcpPorts, ∃ n : ℤ, Python.HasNumeral n ∧ PyStr.ofInt n = p)
    (hudp : ∀ p ∈ sets.udpPorts, ∃ n : ℤ, Python.HasNumeral n ∧ PyStr.ofInt n = p) :
    elementSets py sets = .ok { sets with addrs := elementAddrs sets.addrs } := by
  rw [elementSets, elementPorts_of_numerals py htcp, elementPorts_of_numerals py hudp]
  rfl

end SourceOS.Gate
