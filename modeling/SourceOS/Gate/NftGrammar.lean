import SourceOS.Gate.Script
import SourceOS.Gate.Firewall

/-!
# The script in nft's grammar

What `nft -f -` makes of the script of `apply_sets`. A command is read token by token — words, the
two braces and the comma — and is either `flush set F T S` or `add element F T S \x7b e₁, …, eₙ }`
with one brace on each side. A script is taken as a whole: every command is read and then carried
out on the sets of the kernel, and where one of this fails nothing happens.

The texts of the two commands are read back as what they are (`readCommand_flushText`,
`readCommand_addText`). The lines of the script are these texts, except that the second half of the
`add element` line is a plain string between f-strings: its two closing braces stay two, the line
is the text of the command **and one brace more** (`addLine_eq`), and no such line is read, whatever
the elements are (`readCommand_addLine`). So `apply_sets` loads the sets it is asked for exactly
when it is asked for three empty ones (`apply_sets_loads_iff`).
-/

namespace SourceOS.Gate

open Text Net

/-! ### Tokens -/

/-- The tokens of a command. -/
inductive Token
  | word (w : PyStr)
  | lbrace
  | rbrace
  | comma
deriving DecidableEq

/-- The characters that are tokens of their own. -/
def punctuation (c : PyChar) : Option Token :=
  if c = .char '\x7b' then some .lbrace else if c = .char '\x7d' then some .rbrace
  else if c = .char ',' then some .comma else none

theorem eq_of_punctuation_eq_rbrace {c : PyChar} (h : punctuation c = some .rbrace) :
    c = .char '\x7d' := by
  rw [punctuation] at h
  split_ifs at h with hopen hclose hcomma
  · exact absurd h (by decide)
  · exact hclose
  · exact absurd h (by decide)

/-- The word that ends here, if one has begun. -/
def endWord (acc : PyStr) : List Token :=
  if acc = [] then [] else [.word acc]

/-- The tokens of a text, inside the word `acc`. -/
def lexFrom (acc : PyStr) : PyStr → List Token
  | [] => endWord acc
  | c :: s =>
    match punctuation c with
    | some t => endWord acc ++ t :: lexFrom [] s
    | none => if isBlankChar c then endWord acc ++ lexFrom [] s else lexFrom (acc ++ [c]) s

/-- The tokens of a text. -/
def lex (s : PyStr) : List Token :=
  lexFrom [] s

/-- A text that is one word. -/
def IsName (w : PyStr) : Prop :=
  w ≠ [] ∧ ∀ c ∈ w, isBlankChar c = false ∧ punctuation c = none

instance (w : PyStr) : Decidable (IsName w) :=
  @instDecidableAnd _ _ _ (List.decidableBAll _ w)

theorem lexFrom_append {w : PyStr} (hw : ∀ c ∈ w, isBlankChar c = false ∧ punctuation c = none)
    (acc s : PyStr) : lexFrom acc (w ++ s) = lexFrom (acc ++ w) s := by
  induction w generalizing acc with
  | nil => rw [List.nil_append, List.append_nil]
  | cons c w ih =>
    have hc := hw c List.mem_cons_self
    rw [List.cons_append, lexFrom, hc.2]
    simp only [hc.1, Bool.false_eq_true, if_false]
    rw [ih fun d hd ↦ hw d (List.mem_cons_of_mem _ hd), List.append_assoc, List.singleton_append]

/-- A word before a blank. -/
theorem lex_word_space {w : PyStr} (hw : IsName w) (s : PyStr) :
    lex (w ++ .char ' ' :: s) = .word w :: lex s := by
  rw [lex, lexFrom_append hw.2, List.nil_append]
  show endWord w ++ lex s = _
  rw [endWord, if_neg hw.1, List.singleton_append]

/-- A word before a comma. -/
theorem lex_word_comma {w : PyStr} (hw : IsName w) (s : PyStr) :
    lex (w ++ .char ',' :: s) = .word w :: .comma :: lex s := by
  rw [lex, lexFrom_append hw.2, List.nil_append]
  show endWord w ++ .comma :: lex s = _
  rw [endWord, if_neg hw.1, List.singleton_append]

/-- A word at the end. -/
theorem lex_word {w : PyStr} (hw : IsName w) : lex w = [.word w] := by
  have h := lexFrom_append hw.2 [] []
  rw [List.append_nil, List.nil_append] at h
  rw [lex, h]
  exact if_neg hw.1

/-- **The closing braces of a text all become tokens.** -/
theorem count_rbrace_lexFrom (acc s : PyStr) :
    (lexFrom acc s).count .rbrace = s.count (.char '\x7d') := by
  have hend : ∀ acc, (endWord acc).count .rbrace = 0 := by
    intro acc
    rw [endWord]
    split
    · rfl
    · rfl
  induction s generalizing acc with
  | nil => exact hend acc
  | cons c s ih =>
    rw [lexFrom]
    rcases eq_or_ne c (.char '\x7d') with rfl | hc
    · have hpunct : punctuation (.char '\x7d') = some .rbrace := rfl
      rw [hpunct]
      simp only [List.count_append, List.count_cons_self, hend, ih, Nat.zero_add]
    · rw [List.count_cons_of_ne hc]
      cases hpunct : punctuation c with
      | some t =>
        have ht : t ≠ .rbrace := by
          rintro rfl
          exact hc (eq_of_punctuation_eq_rbrace hpunct)
        simp only [List.count_append, List.count_cons_of_ne ht, hend, ih, Nat.zero_add]
      | none =>
        dsimp only
        split
        · rw [List.count_append, hend, ih, Nat.zero_add]
        · exact ih _

theorem count_rbrace_lex (s : PyStr) : (lex s).count .rbrace = s.count (.char '\x7d') :=
  count_rbrace_lexFrom [] s

/-! ### Commands -/

/-- The commands a script may consist of. -/
inductive Command
  | flushSet (family table set : PyStr)
  | addElement (family table set : PyStr) (elems : List PyStr)
deriving DecidableEq

/-- The elements up to the closing brace, which ends the command. -/
def readElems : List Token → Option (List PyStr)
  | [.word e, .rbrace] => some [e]
  | .word e :: .comma :: ts => (readElems ts).map (e :: ·)
  | _ => none

/-- The command a list of tokens is. -/
def readTokens : List Token → Option Command
  | [.word a, .word b, .word f, .word t, .word s] =>
    if a = PyStr.lit "flush" ∧ b = PyStr.lit "set" then some (.flushSet f t s) else none
  | .word a :: .word b :: .word f :: .word t :: .word s :: .lbrace :: ts =>
    if a = PyStr.lit "add" ∧ b = PyStr.lit "element" then
      (readElems ts).map (.addElement f t s)
    else none
  | _ => none

/-- The command a text is. -/
def readCommand (cmd : PyStr) : Option Command :=
  readTokens (lex cmd)

/-- The elements of a command end with one closing brace, and there is no other. -/
theorem count_rbrace_of_readElems {ts : List Token} {es : List PyStr}
    (h : readElems ts = some es) : ts.count .rbrace = 1 := by
  fun_induction readElems ts generalizing es with
  | case1 e => rfl
  | case2 e ts ih =>
    obtain ⟨es', hes', -⟩ := Option.map_eq_some_iff.1 h
    rw [List.count_cons_of_ne (by simp), List.count_cons_of_ne (by simp), ih hes']
  | case3 ts h1 h2 => exact absurd h (by simp)

/-- **A command has one closing brace at most.** -/
theorem count_rbrace_of_readCommand {s : PyStr} {cmd : Command} (h : readCommand s = some cmd) :
    s.count (.char '\x7d') ≤ 1 := by
  rw [← count_rbrace_lex]
  rw [readCommand] at h
  generalize lex s = ts at h
  unfold readTokens at h
  split at h
  · exact Nat.zero_le _
  · rename_i a b f t set ts
    split at h
    · obtain ⟨es, hes, -⟩ := Option.map_eq_some_iff.1 h
      simp [count_rbrace_of_readElems hes]
    · exact absurd h (by simp)
  · exact absurd h (by simp)

/-! ### The lines of the script -/

/-- The names of a configuration are words of the grammar. -/
structure NftConfig.Names (cfg : NftConfig) : Prop where
  family : IsName cfg.tableFamily
  table : IsName cfg.tableName
  sets : ∀ s ∈ cfg.allowlist, IsName s

theorem NftConfig.names_default : NftConfig.default.Names :=
  ⟨by decide, by decide, by decide⟩

/-- The text of an `add element` command. -/
def addText (cfg : NftConfig) (set : Str) (elems : List PyStr) : PyStr :=
  PyStr.ofStr (addHead cfg set) ++ ((PyStr.lit ", ").intercalate elems ++ PyStr.lit " \x7d")

/-- **The line of the script is the text of the command and one brace more.** -/
theorem addLine_eq (cfg : NftConfig) (set : Str) (elems : List PyStr) :
    addLine cfg set elems = addText cfg set elems ++ [.char '\x7d'] := by
  have hbraces : PyStr.lit " \x7d\x7d" = PyStr.lit " \x7d" ++ [.char '\x7d'] := rfl
  rw [addLine, addText, hbraces, List.append_assoc, List.append_assoc]

variable {cfg : NftConfig}

/-- The flush lines are read as they are meant. -/
theorem readCommand_flushLine (hcfg : cfg.Names) {set : Str} (hset : set ∈ cfg.allowlist) :
    readCommand (flushLine cfg set) = some (.flushSet cfg.tableFamily cfg.tableName set) := by
  rw [readCommand, flushLine_eq, lex_word_space (by decide), lex_word_space (by decide),
    lex_word_space hcfg.family, lex_word_space hcfg.table, lex_word (hcfg.sets set hset)]
  rfl

/-- Elements and the closing brace are read back. -/
theorem readElems_lex {elems : List PyStr} (hne : elems ≠ []) (h : ∀ e ∈ elems, IsName e) :
    readElems (lex ((PyStr.lit ", ").intercalate elems ++ PyStr.lit " \x7d")) = some elems := by
  induction elems with
  | nil => exact absurd rfl hne
  | cons e es ih =>
    have he := h e List.mem_cons_self
    rcases es with - | ⟨e', es⟩
    · rw [List.intercalate_singleton]
      show readElems (lex (e ++ .char ' ' :: [.char '\x7d'])) = _
      rw [lex_word_space he]
      rfl
    · rw [List.intercalate_cons_of_ne_nil (List.cons_ne_nil _ _), List.append_assoc,
        List.append_assoc]
      show readElems (lex (e ++ .char ',' :: .char ' ' :: _)) = _
      rw [lex_word_comma he]
      show (readElems (lex ((PyStr.lit ", ").intercalate (e' :: es) ++
        PyStr.lit " \x7d"))).map _ = _
      rw [ih (List.cons_ne_nil _ _) fun x hx ↦ h x (List.mem_cons_of_mem _ hx)]
      rfl

/-- With one closing brace the command is read as it is meant. -/
theorem readCommand_addText (hcfg : cfg.Names) {set : Str} (hset : set ∈ cfg.allowlist)
    {elems : List PyStr} (hne : elems ≠ []) (h : ∀ e ∈ elems, IsName e) :
    readCommand (addText cfg set elems) =
      some (.addElement cfg.tableFamily cfg.tableName set elems) := by
  rw [readCommand, addText, addHead_eq]
  simp only [List.append_assoc, List.cons_append]
  rw [lex_word_space (by decide), lex_word_space (by decide), lex_word_space hcfg.family,
    lex_word_space hcfg.table, lex_word_space (hcfg.sets set hset)]
  show (readElems (lex ((PyStr.lit ", ").intercalate elems ++ PyStr.lit " \x7d"))).map _ = _
  rw [readElems_lex hne h]
  rfl

/-- **No `add element` line of the script is read**, whatever the elements are. -/
theorem readCommand_addLine (cfg : NftConfig) (set : Str) (elems : List PyStr) :
    readCommand (addLine cfg set elems) = none := by
  rw [Option.eq_none_iff_forall_ne_some]
  intro cmd hcmd
  have hcount := count_rbrace_of_readCommand hcmd
  have hbrace : .char '\x7d' ∈ addText cfg set elems := by
    have hclose : .char '\x7d' ∈ PyStr.lit " \x7d" := by decide
    rw [addText]
    simp only [List.mem_append, hclose, or_true]
  rw [addLine_eq, List.count_append, List.count_singleton_self] at hcount
  have := List.one_le_count_iff.2 hbrace
  omega

/-! ### What the kernel does -/

/-- The first value of an element. -/
def elemLo {w : ℕ} : Elem w → ℕ
  | .single v => v
  | .network v len => Elem.base v len
  | .range lo _ => lo

/-- The last value of an element. -/
def elemHi {w : ℕ} : Elem w → ℕ
  | .single v => v
  | .network v len => Elem.base v len + (2 ^ (w - len.val) - 1)
  | .range _ hi => hi

/-- Two elements have a value in common. -/
def Overlaps {w : ℕ} (e f : Elem w) : Prop :=
  elemLo e ≤ elemHi f ∧ elemLo f ≤ elemHi e

instance {w : ℕ} (e f : Elem w) : Decidable (Overlaps e f) :=
  inferInstanceAs (Decidable (_ ∧ _))

/-- Adding an element to an interval set: one that is there stays, and one that overlaps another is
refused. -/
def addElem {w : ℕ} (set : List (Elem w)) (e : Elem w) : Option (List (Elem w)) :=
  if e ∈ set then some set
  else if ∃ f ∈ set, Overlaps f e then none else some (set ++ [e])

/-- The port that a text names. -/
def readPort (e : PyStr) : Option Port :=
  e.toStr?.bind (readNumeral (2 ^ 16))

/-- A change of the set of that name. -/
def Kernel.modify (cfg : NftConfig) (k : Kernel) (set : PyStr)
    (addrs : List (Elem 32) → Option (List (Elem 32)))
    (ports : List (Elem 16) → Option (List (Elem 16))) : Option Kernel :=
  if set = ↑cfg.setAllowV4 then (addrs k.addrs).map fun es ↦ { k with addrs := es }
  else if set = ↑cfg.setTcpPorts then (ports k.tcpPorts).map fun es ↦ { k with tcpPorts := es }
  else if set = ↑cfg.setUdpPorts then (ports k.udpPorts).map fun es ↦ { k with udpPorts := es }
  else none

/-- The kernel carries a command out, if the table and the set are there and the elements fit. -/
def Kernel.exec (cfg : NftConfig) (k : Kernel) : Command → Option Kernel
  | .flushSet f t s =>
    if f = ↑cfg.tableFamily ∧ t = ↑cfg.tableName then
      k.modify cfg s (fun _ ↦ some []) (fun _ ↦ some [])
    else none
  | .addElement f t s elems =>
    if f = ↑cfg.tableFamily ∧ t = ↑cfg.tableName then
      k.modify cfg s
        (fun es ↦ (elems.mapM fun e ↦ (Target.readPy e).map Target.elem).bind (·.foldlM addElem es))
        (fun es ↦ (elems.mapM fun e ↦ (readPort e).map Elem.single).bind
          (·.foldlM addElem es))
    else none

/-- `nft -f`: every command is read and carried out, or the script is refused. -/
def runNft (cfg : NftConfig) (script : PyStr) (k : Kernel) : Option Kernel :=
  ((commands script).mapM readCommand).bind (·.foldlM (Kernel.exec cfg) k)

-- with one closing brace a line does what it is meant to do
example :
    runNft .default (scriptText [flushLine .default "frontier_allow_v4".toList,
      addText .default "frontier_allow_v4".toList ["1.1.1.1".toList, "10.0.0.0/8".toList]])
      ⟨[.single 7], [.single 443], []⟩ =
        some ⟨[.single (ofOctets 1 1 1 1), .network (ofOctets 10 0 0 0) 8], [.single 443], []⟩ := by
  decide +kernel

-- and an overlap is refused
example :
    runNft .default (scriptText [addText .default "frontier_allow_v4".toList
      ["10.1.2.3".toList, "10.0.0.0/8".toList]]) ⟨[], [], []⟩ = none := by
  decide +kernel

/-! ### What `apply_sets` loads -/

variable (py : Runtime)

/-- The sets are as the callers of `apply_sets` should give them: addresses or blocks, and texts of
port numbers. -/
structure ActiveSets.WellFormed (sets : ActiveSets) : Prop where
  addrs : ∀ x ∈ sets.addrs, IsTarget x
  ports : ∀ proto, ∀ p ∈ sets.ports proto, ∃ n : Port,
    Python.intOfStr py p = .ok (n.val : ℤ)

/-- The kernel's sets hold the given addresses, without the host mask, and the given ports, and
nothing else. -/
structure Kernel.HoldsExactly (k : Kernel) (sets : ActiveSets) : Prop where
  addrs : ∀ e, e ∈ k.addrs ↔ ∃ x ∈ sets.addrs, ∃ t, Target.readPy (dropHostMask x) = some t ∧
    t.elem = e
  ports : ∀ proto e, e ∈ k.ports proto ↔ ∃ p ∈ sets.ports proto, ∃ n : Port,
    Python.intOfStr py p = .ok (n.val : ℤ) ∧ e = .single n

/-- The script consists of commands of the grammar, and running it leaves the kernel with exactly
the sets asked for. -/
structure LoadsExactly (script : PyStr) (k : Kernel) (sets : ActiveSets) : Prop where
  grammar : ∀ cmd ∈ commands script, ∃ c, readCommand cmd = some c
  loads : ∃ k', runNft .default script k = some k' ∧ k'.HoldsExactly py sets

section Elements

variable {py}

/-- Ports that convert become numerals, and none is lost. -/
theorem elementPorts_of_intOfStr {ports : Finset PyStr}
    (h : ∀ p ∈ ports, ∃ n : ℤ, Python.intOfStr py p = .ok n) :
    ∃ qs, elementPorts py ports = .ok qs ∧ (∀ q ∈ qs, ∃ n : ℤ, PyStr.ofInt n = q) ∧
      (qs = ∅ ↔ ports = ∅) := by
  have hall : ports.filter (fun p ↦ PyStr.isBlank p = false) = ports := by
    refine Finset.filter_true_of_mem fun p hp ↦ ?_
    obtain ⟨n, hn⟩ := h p hp
    exact Python.isBlank_eq_false_of_intOfStr hn
  obtain ⟨ns, hns⟩ := exists_forall₂ fun p hp ↦ h p ((Finset.mem_sort (α := PyStr) (· ≤ ·)).1 hp)
  refine ⟨(ns.map PyStr.ofInt).toFinset, ?_, ?_, ?_⟩
  · rw [elementPorts, hall, convertPorts, sorted, mapM_eq_ok_iff.2 hns]
  · intro q hq
    obtain ⟨n, -, hn⟩ := List.mem_map.1 (List.mem_toFinset.1 hq)
    exact ⟨n, hn⟩
  · rw [List.toFinset_eq_empty_iff, List.map_eq_nil_iff, ← List.length_eq_zero_iff,
      ← hns.length_eq, Finset.length_sort, Finset.card_eq_zero]

end Elements

/-- An element that comes from a target is on one line. -/
theorem oneLine_of_mem_elementAddrs_of_isTarget {addrs : Finset PyStr}
    (h : ∀ x ∈ addrs, IsTarget x) {e : PyStr} (he : e ∈ elementAddrs addrs) : OneLine e := by
  obtain ⟨x, hx, rfl⟩ := Finset.mem_image.1 he
  obtain ⟨t, rfl⟩ := h x (Finset.mem_filter.1 hx).1
  intro c hc
  obtain ⟨d, hd, rfl⟩ := List.mem_map.1 (mem_of_mem_replace_nil hc)
  have hnl : d ≠ '\n' := fun h ↦
    Target.not_mem_text (by decide) (by decide) (by decide) t (h ▸ hd)
  have hsemi : d ≠ ';' := fun h ↦
    Target.not_mem_text (by decide) (by decide) (by decide) t (h ▸ hd)
  simp [endsCommand, hnl, hsemi]

theorem elementAddrs_eq_empty_iff {addrs : Finset PyStr} (h : ∀ x ∈ addrs, IsTarget x) :
    elementAddrs addrs = ∅ ↔ addrs = ∅ := by
  have hall : addrs.filter (fun x ↦ PyStr.isBlank x = false) = addrs := by
    refine Finset.filter_true_of_mem fun x hx ↦ ?_
    obtain ⟨t, rfl⟩ := h x hx
    exact (PyStr.isBlank_ofStr _).trans (Target.isBlank_text t)
  rw [elementAddrs, hall, Finset.image_eq_empty]

theorem sorted_eq_nil_iff (s : Finset PyStr) : sorted s = [] ↔ s = ∅ := by
  rw [← List.length_eq_zero_iff, sorted, Finset.length_sort, Finset.card_eq_zero]

/-- **The script of well-formed sets**: numerals for the ports, none lost, and as many commands as
it has lines. -/
theorem exists_script {sets : ActiveSets} (h : sets.WellFormed py) : ∃ t u : Finset PyStr,
    (t = ∅ ↔ sets.tcpPorts = ∅) ∧ (u = ∅ ↔ sets.udpPorts = ∅) ∧
    applyScript py .default sets = .ok (scriptText (scriptLines .default
      (sorted (elementAddrs sets.addrs)) (sorted t) (sorted u))) ∧
    commands (scriptText (scriptLines .default (sorted (elementAddrs sets.addrs)) (sorted t)
      (sorted u))) =
      scriptLines .default (sorted (elementAddrs sets.addrs)) (sorted t) (sorted u) := by
  have hread : ∀ proto, ∀ p ∈ sets.ports proto, ∃ n : ℤ, Python.intOfStr py p = .ok n :=
    fun proto p hp ↦ (h.ports proto p hp).imp' _ fun _ hn ↦ hn
  obtain ⟨t, ht, htnum, htempty⟩ := elementPorts_of_intOfStr (hread .tcp)
  obtain ⟨u, hu, hunum, huempty⟩ := elementPorts_of_intOfStr (hread .udp)
  have hline : ∀ {qs : Finset PyStr}, (∀ q ∈ qs, ∃ n : ℤ, PyStr.ofInt n = q) →
      ∀ q ∈ qs, OneLine q := by
    intro qs hqs q hq
    obtain ⟨n, rfl⟩ := hqs q hq
    exact oneLine_ofInt n
  refine ⟨t, u, htempty, huempty, ?_, commands_applyScript NftConfig.words_default ?_⟩
  · have ht' : elementPorts py sets.tcpPorts = .ok t := ht
    have hu' : elementPorts py sets.udpPorts = .ok u := hu
    rw [applyScript, elementSets, ht', hu']
    rfl
  · intro e he
    simp only [sorted, List.mem_append, Finset.mem_sort] at he
    rcases he with (he | he) | he
    · exact oneLine_of_mem_elementAddrs_of_isTarget h.addrs he
    · exact hline htnum e he
    · exact hline hunum e he

/-- Lines that are all commands add no element to a set. -/
theorem elems_eq_nil_of_readable {lines : List PyStr}
    (h : ∀ line ∈ lines, ∃ c, readCommand line = some c) {cfg : NftConfig} {set : Str}
    {elems : List PyStr} (hsub : addLines cfg set elems ⊆ lines) : elems = [] := by
  by_contra hne
  have hmem : addLine cfg set elems ∈ addLines cfg set elems := by
    rw [addLines, if_neg hne]
    exact List.mem_singleton_self _
  obtain ⟨c, hc⟩ := h _ (hsub hmem)
  rw [readCommand_addLine] at hc
  exact absurd hc (by simp)

/-- The script of three empty sets clears the three sets of the kernel. -/
theorem runNft_flush (k : Kernel) :
    runNft .default (scriptText (scriptLines .default [] [] [])) k = some ⟨[], [], []⟩ := by
  have hread : (scriptLines .default [] [] []).mapM readCommand =
      some (NftConfig.default.allowlist.map fun set ↦
        .flushSet NftConfig.default.tableFamily NftConfig.default.tableName set) := by
    decide +kernel
  rw [runNft, commands_applyScript NftConfig.words_default (by simp), hread]
  rfl

/-- With nothing to add, the script is the three flush lines. -/
theorem loadsExactly_flush {sets : ActiveSets} (haddrs : sets.addrs = ∅)
    (hports : ∀ proto, sets.ports proto = ∅) (k : Kernel) :
    LoadsExactly py (scriptText (scriptLines .default [] [] [])) k sets := by
  refine ⟨fun cmd hcmd ↦ ?_, ⟨[], [], []⟩, runNft_flush k, ⟨?_, ?_⟩⟩
  · rw [commands_applyScript NftConfig.words_default (by simp)] at hcmd
    have hflush : cmd ∈ NftConfig.default.allowlist.map (flushLine .default) := hcmd
    obtain ⟨set, hset, rfl⟩ := List.mem_map.1 hflush
    exact ⟨_, readCommand_flushLine NftConfig.names_default hset⟩
  · intro e
    simp [haddrs]
  · intro proto e
    cases proto with
    | tcp => simp [Kernel.ports, hports]
    | udp => simp [Kernel.ports, hports]

/-- **What `apply_sets` loads.** Take any addresses, blocks and ports, overlapping or not, and any
state of the kernel. There is a script; it is in the grammar and loads exactly the sets asked for if
and only if nothing is asked for: then it empties the three sets, and any element makes a line with
two closing braces, at which the whole script is refused. -/
theorem apply_sets_loads_iff {sets : ActiveSets} (h : sets.WellFormed py) (k : Kernel) :
    ∃ script, applyScript py .default sets = .ok script ∧
      (LoadsExactly py script k sets ↔ sets.addrs = ∅ ∧ ∀ proto, sets.ports proto = ∅) := by
  obtain ⟨t, u, htempty, huempty, hscript, hcommands⟩ := exists_script py h
  refine ⟨_, hscript, fun hload ↦ ?_, fun ⟨haddrs, hports⟩ ↦ ?_⟩
  · -- the line of a set that is not empty would have to be read
    have hread := hload.grammar
    rw [hcommands] at hread
    refine ⟨?_, fun proto ↦ ?_⟩
    · rw [← elementAddrs_eq_empty_iff h.addrs, ← sorted_eq_nil_iff]
      exact @elems_eq_nil_of_readable _ hread .default NftConfig.default.setAllowV4 _
        fun l hl ↦ by simp [scriptLines, hl]
    · cases proto with
      | tcp =>
        refine htempty.1 ((sorted_eq_nil_iff t).1 ?_)
        exact @elems_eq_nil_of_readable _ hread .default NftConfig.default.setTcpPorts _
          fun l hl ↦ by simp [scriptLines, hl]
      | udp =>
        refine huempty.1 ((sorted_eq_nil_iff u).1 ?_)
        exact @elems_eq_nil_of_readable _ hread .default NftConfig.default.setUdpPorts _
          fun l hl ↦ by simp [scriptLines, hl]
  · rw [(sorted_eq_nil_iff _).2 ((elementAddrs_eq_empty_iff h.addrs).2 haddrs),
      (sorted_eq_nil_iff t).2 (htempty.2 (hports .tcp)),
      (sorted_eq_nil_iff u).2 (huempty.2 (hports .udp))]
    exact loadsExactly_flush py haddrs hports k

/-- Targets and ports, written out, are well formed. -/
theorem ActiveSets.wellFormed_ofLists (ts : List Target) (ns ms : List Port) :
    (ActiveSets.ofLists ts ns ms).WellFormed py := by
  have hports : ∀ (l : List Port), ∀ p ∈ (l.map fun n : Port ↦ PyStr.ofInt n.val).toFinset,
      ∃ n : Port, Python.intOfStr py p = .ok (n.val : ℤ) := by
    intro l p hp
    obtain ⟨n, -, rfl⟩ := List.mem_map.1 (List.mem_toFinset.1 hp)
    exact ⟨n, Python.intOfStr_ofInt _ (hasNumeral_port n)⟩
  refine ⟨fun x hx ↦ ?_, fun proto ↦ ?_⟩
  · obtain ⟨t, -, rfl⟩ := List.mem_map.1 (List.mem_toFinset.1 hx)
    exact ⟨t, rfl⟩
  · cases proto with
    | tcp => exact hports ns
    | udp => exact hports ms

/-- Two ports for one host, in a kernel that holds others. -/
theorem apply_sets_loads_iff_of_lists :
    ∃ script, applyScript .ascii .default
        (.ofLists [.host (ofOctets 1 1 1 1)] [443, 80] []) = .ok script ∧
      (LoadsExactly .ascii script ⟨[.single 7], [], []⟩
          (.ofLists [.host (ofOctets 1 1 1 1)] [443, 80] []) ↔
        (ActiveSets.ofLists [.host (ofOctets 1 1 1 1)] [443, 80] []).addrs = ∅ ∧
          ∀ proto, (ActiveSets.ofLists [.host (ofOctets 1 1 1 1)] [443, 80] []).ports proto = ∅) :=
  apply_sets_loads_iff .ascii (ActiveSets.wellFormed_ofLists .ascii _ _ _) _

/-- **One address is enough**: its line is no command, and `nft` refuses the script. -/
theorem apply_sets_unreadable :
    ∃ script, applyScript .ascii .default (.ofLists [.host (ofOctets 1 1 1 1)] [] []) = .ok script ∧
      (∃ cmd ∈ commands script, readCommand cmd = none) ∧
      runNft .default script ⟨[], [], []⟩ = none := by
  have haddrs : sorted (elementAddrs (ActiveSets.ofLists [.host (ofOctets 1 1 1 1)] [] []).addrs) =
      [PyStr.lit "1.1.1.1"] := by
    have hset : elementAddrs (ActiveSets.ofLists [.host (ofOctets 1 1 1 1)] [] []).addrs =
        {PyStr.lit "1.1.1.1"} := by decide
    rw [hset, sorted, Finset.sort_singleton]
  have hports : sorted (∅ : Finset PyStr) = [] := Finset.sort_empty _
  refine ⟨scriptText (scriptLines .default [PyStr.lit "1.1.1.1"] [] []), ?_, by decide +kernel,
    by decide +kernel⟩
  rw [applyScript, elementSets_of_numerals _ (fun p hp ↦ absurd hp (Finset.notMem_empty p))
    fun p hp ↦ absurd hp (Finset.notMem_empty p)]
  show Except.ok (scriptText (scriptLines .default (sorted _) (sorted ∅) (sorted ∅))) = _
  rw [haddrs, hports]

end SourceOS.Gate
