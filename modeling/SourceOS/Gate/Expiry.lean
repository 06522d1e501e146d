import SourceOS.Gate.Concurrent
import SourceOS.Gate.Script

/-!
# What the kernel still admits when a grant has expired

Nothing happens at the moment a grant expires: the sets have no timeout, and they change only when
`nft` takes a script, which loads what was valid at the reading before it. So what the kernel admits
at a time `t` belongs to the grants of **that reading** (`Sourced`), and whether it still belongs to
a grant at `t` is a question about those of them that have expired since.

`within_grants_iff` is the answer, for every interleaving of the operations of any processes: the
kernel admits nothing beyond the valid grants exactly when each grant that has expired since the
reading is covered by valid ones. `outlives_its_grant` is a run in which one is not.
-/

namespace SourceOS.Gate

open Text

/-! ### Elements and grants -/

/-- Every element of the sets belongs to one of the grants. -/
structure ActiveSets.OwedTo (k : ActiveSets) (gs : List Grant) : Prop where
  addrs : ∀ x ∈ k.addrs, ∃ g ∈ gs, ∃ target ∈ g.targets, dropHostMask target = x
  tcpPorts : ∀ x ∈ k.tcpPorts, ∃ g ∈ gs, g.proto ≠ "udp".toList ∧ ∃ n ∈ g.ports, PyStr.ofInt n = x
  udpPorts : ∀ x ∈ k.udpPorts, ∃ g ∈ gs, g.proto = "udp".toList ∧ ∃ n ∈ g.ports, PyStr.ofInt n = x

/-- The targets of a grant, and its ports under its protocol, are also those of other grants. -/
structure Grant.CoveredBy (g : Grant) (gs : List Grant) : Prop where
  targets : ∀ x ∈ g.targets, ∃ h ∈ gs, ∃ y ∈ h.targets, dropHostMask y = dropHostMask x
  ports : ∀ n ∈ g.ports, ∃ h ∈ gs,
    (h.proto = "udp".toList ↔ g.proto = "udp".toList) ∧ n ∈ h.ports

theorem Grant.coveredBy_of_mem {g : Grant} {gs : List Grant} (h : g ∈ gs) : g.CoveredBy gs :=
  ⟨fun x hx ↦ ⟨g, h, x, hx, rfl⟩, fun _ hn ↦ ⟨g, h, Iff.rfl, hn⟩⟩

/-- **The union of some grants belongs to others** exactly when each of them is covered. -/
theorem owedTo_union_iff {gs us : List Grant} :
    (ActiveSets.union gs).OwedTo us ↔ ∀ g ∈ gs, g.CoveredBy us := by
  constructor
  · intro h g hg
    refine ⟨fun x hx ↦ ?_, fun n hn ↦ ?_⟩
    · exact h.addrs _ (List.mem_toFinset.2 (List.mem_flatMap.2 ⟨g, hg, List.mem_map_of_mem hx⟩))
    · by_cases hudp : g.proto = "udp".toList
      · obtain ⟨g', hg', hudp', m, hm, hmn⟩ := h.udpPorts (PyStr.ofInt n)
          (List.mem_toFinset.2 (List.mem_flatMap.2
            ⟨g, List.mem_filter.2 ⟨hg, decide_eq_true hudp⟩, List.mem_map_of_mem hn⟩))
        exact ⟨g', hg', iff_of_true hudp' hudp, PyStr.ofInt_injective hmn ▸ hm⟩
      · obtain ⟨g', hg', htcp, m, hm, hmn⟩ := h.tcpPorts (PyStr.ofInt n)
          (List.mem_toFinset.2 (List.mem_flatMap.2
            ⟨g, List.mem_filter.2 ⟨hg, decide_eq_true hudp⟩, List.mem_map_of_mem hn⟩))
        exact ⟨g', hg', iff_of_false htcp hudp, PyStr.ofInt_injective hmn ▸ hm⟩
  · intro h
    refine ⟨fun x hx ↦ ?_, fun x hx ↦ ?_, fun x hx ↦ ?_⟩
    · obtain ⟨g, hg, hgx⟩ := List.mem_flatMap.1 (List.mem_toFinset.1 hx)
      obtain ⟨target, htarget, rfl⟩ := List.mem_map.1 hgx
      exact (h g hg).targets target htarget
    · obtain ⟨g, hg, hgx⟩ := List.mem_flatMap.1 (List.mem_toFinset.1 hx)
      obtain ⟨n, hn, rfl⟩ := List.mem_map.1 hgx
      obtain ⟨hg, htcp⟩ := List.mem_filter.1 hg
      obtain ⟨g', hg', hproto, hn'⟩ := (h g hg).ports n hn
      exact ⟨g', hg', fun hudp ↦ of_decide_eq_true htcp (hproto.1 hudp), n, hn', rfl⟩
    · obtain ⟨g, hg, hgx⟩ := List.mem_flatMap.1 (List.mem_toFinset.1 hx)
      obtain ⟨n, hn, rfl⟩ := List.mem_map.1 hgx
      obtain ⟨hg, hudp⟩ := List.mem_filter.1 hg
      obtain ⟨g', hg', hproto, hn'⟩ := (h g hg).ports n hn
      exact ⟨g', hg', hproto.2 (of_decide_eq_true hudp), n, hn', rfl⟩

/-! ### Where the kernel's sets come from -/

section Runs

variable {ι : Type} [DecidableEq ι] (py : Runtime) (cfg : NftConfig)

/-- The step loads the kernel's sets. -/
def GateStep.Loads : GateStep ι → Prop
  | .load _ env _ => env.Taken cfg
  | _ => False

/-- The last script of the run that was taken was preceded by a reading `env`, which came after
`pre`. -/
def LoadedFrom (run pre : List (GateStep ι)) (env : ReadEnv) : Prop :=
  ∃ p mid l audit post, run = pre ++ .read p env :: (mid ++ .load p l audit :: post) ∧
    stepsOf p mid = [] ∧ l.Taken cfg ∧ ∀ e ∈ post, ¬ e.Loads cfg

/-- **Where the kernel's sets come from**: the reading before the last script that was taken. If
there was none, they are empty. -/
structure Sourced (run : List (GateStep ι)) (k : ActiveSets) : Prop where
  reading : ∀ pre env, LoadedFrom cfg run pre env →
    computeActiveSets py env ((store py).after Db.empty (storeCalls pre)) = .ok k
  empty : (∀ pre env, ¬ LoadedFrom cfg run pre env) → k = ⟨∅, ∅, ∅⟩

variable {py cfg} {run : List (GateStep ι)} {s : Shared ι} {applied : List Grant}

/-- A reading that no later step of the process follows is the only one of this kind. -/
theorem readAt_unique {pre pre' mid mid' : List (GateStep ι)} {p : ι} {env env' : ReadEnv}
    (hrun : pre ++ .read p env :: mid = pre' ++ .read p env' :: mid') (hmid : stepsOf p mid = [])
    (hmid' : stepsOf p mid' = []) : pre = pre' ∧ env = env' := by
  have hno : ∀ {m m' : List (GateStep ι)} {env : ReadEnv},
      stepsOf p (m ++ .read p env :: m') ≠ [] := by
    intro m m' env
    simp [stepsOf, GateStep.proc]
  rcases List.append_eq_append_iff.1 hrun with ⟨m, rfl, htail⟩ | ⟨m, rfl, htail⟩
  · rcases m with _ | ⟨e, m⟩
    · obtain ⟨he, -⟩ := List.cons.inj htail
      exact ⟨(List.append_nil _).symm, (GateStep.read.inj he).2⟩
    · obtain ⟨-, rfl⟩ := List.cons.inj htail
      exact absurd hmid hno
  · rcases m with _ | ⟨e, m⟩
    · obtain ⟨he, -⟩ := List.cons.inj htail
      exact ⟨List.append_nil _, (GateStep.read.inj he).2.symm⟩
    · obtain ⟨-, rfl⟩ := List.cons.inj htail
      exact absurd hmid' hno

/-- A step that loads nothing leaves the last script the last. -/
theorem loadedFrom_concat_iff {e : GateStep ι} (he : ¬ e.Loads cfg) {pre : List (GateStep ι)}
    {env : ReadEnv} : LoadedFrom cfg (run ++ [e]) pre env ↔ LoadedFrom cfg run pre env := by
  constructor
  · rintro ⟨p, mid, l, audit, post, hrun, hmid, hl, hpost⟩
    rcases List.eq_nil_or_concat post with rfl | ⟨post, e', rfl⟩
    · rw [← List.cons_append, ← List.append_assoc] at hrun
      obtain ⟨-, he'⟩ := List.append_inj' hrun rfl
      obtain rfl := (List.cons.inj he').1
      exact absurd hl he
    · rw [List.concat_eq_append, ← List.cons_append, ← List.append_assoc, ← List.cons_append,
        ← List.append_assoc] at hrun
      obtain ⟨rfl, -⟩ := List.append_inj' hrun rfl
      exact ⟨p, mid, l, audit, post, by simp, hmid, hl, fun e he ↦ hpost e (by simp [he])⟩
  · rintro ⟨p, mid, l, audit, post, rfl, hmid, hl, hpost⟩
    refine ⟨p, mid, l, audit, post ++ [e], by simp, hmid, hl, fun e' he' ↦ ?_⟩
    rcases List.mem_append.1 he' with he' | he'
    · exact hpost e' he'
    · rwa [List.mem_singleton.1 he']

/-- A script that has just been taken loads the last reading of its process. -/
theorem readAt_of_loadedFrom {p : ι} {l : ApplyEnv} {audit : AuditEnv} {pre : List (GateStep ι)}
    {env : ReadEnv} (hl : l.Taken cfg)
    (h : LoadedFrom cfg (run ++ [.load p l audit]) pre env) :
    ∃ mid, run = pre ++ .read p env :: mid ∧ stepsOf p mid = [] := by
  obtain ⟨q, mid, l', audit', post, hrun, hmid, -, hpost⟩ := h
  rcases List.eq_nil_or_concat post with rfl | ⟨post, e, rfl⟩
  · rw [← List.cons_append, ← List.append_assoc] at hrun
    obtain ⟨rfl, he⟩ := List.append_inj' hrun rfl
    obtain ⟨rfl, -⟩ := GateStep.load.inj (List.cons.inj he).1
    exact ⟨mid, rfl, hmid⟩
  · rw [List.concat_eq_append, ← List.cons_append, ← List.append_assoc, ← List.cons_append,
      ← List.append_assoc] at hrun
    obtain ⟨-, he⟩ := List.append_inj' hrun rfl
    obtain rfl := (List.cons.inj he).1
    exact absurd hl (hpost (.load p l audit) (by simp))

/-- What a process is about to load has a script. -/
theorem exists_script_of_readAt {pre : List (GateStep ι)} {p : ι} {sets : ActiveSets}
    (h : ReadAt py run pre p sets) : ∃ script, applyScript py cfg sets = .ok script := by
  obtain ⟨env, post, -, -, hsets⟩ := h
  exact ⟨_, applyScript_of_computed cfg hsets⟩

/-- **What a script step does to the kernel**, by whether the script is taken. -/
theorem step_load_kernel (h : Tracked py run s applied) {p : ι} {l : ApplyEnv} {audit : AuditEnv}
    (he : (s.step py cfg (.load p l audit)).2 ≠ .impossible) :
    ∃ pre sets, ReadAt py run pre p sets ∧
      (l.Taken cfg → (s.step py cfg (.load p l audit)).1.kernel = sets) ∧
      (¬ l.Taken cfg → (s.step py cfg (.load p l audit)).1.kernel = s.kernel) := by
  obtain ⟨owed, sets, k, hstage, hstep, -⟩ := step_load he
  have hown := h.stage p
  rw [hstage] at hown
  obtain ⟨pre, hread, -⟩ := hown
  have hkernel : (s.step py cfg (.load p l audit)).1.kernel =
      (applySets py cfg (fun _ _ ↦ sets) l sets s.kernel).2 := by
    rw [← loadSets_snd l audit sets s.kernel]
    simp [Shared.step, hstage]
  obtain ⟨script, hscript⟩ := @exists_script_of_readAt _ _ _ cfg _ _ _ _ hread
  refine ⟨pre, sets, hread, fun hl ↦ ?_, fun hl ↦ ?_⟩
  · rcases applySets_cases (fun _ _ ↦ sets) l hscript s.kernel with ⟨-, hrun⟩ | ⟨hno, -⟩
    · rw [hkernel, hrun]
    · exact absurd hl hno
  · rcases applySets_cases (fun _ _ ↦ sets) l hscript s.kernel with ⟨hyes, -⟩ | ⟨-, e, hrun⟩
    · exact absurd hyes hl
    · rw [hkernel, hrun]

/-- **One step keeps the source.** -/
theorem Sourced.step (hs : Tracked py run s applied) (h : Sourced py cfg run s.kernel)
    {e : GateStep ι} (he : (s.step py cfg e).2 ≠ .impossible) :
    Sourced py cfg (run ++ [e]) (s.step py cfg e).1.kernel := by
  -- a step that loads nothing and leaves the kernel alone has the source it had
  have hkeep : ¬ e.Loads cfg → (s.step py cfg e).1.kernel = s.kernel →
      Sourced py cfg (run ++ [e]) (s.step py cfg e).1.kernel := by
    intro hno hkernel
    rw [hkernel]
    exact ⟨fun pre env hfrom ↦ h.reading pre env ((loadedFrom_concat_iff hno).1 hfrom),
      fun hnone ↦ h.empty fun pre env hfrom ↦ hnone pre env ((loadedFrom_concat_iff hno).2 hfrom)⟩
  cases e with
  | start p call =>
    obtain ⟨st, hstep, -⟩ := step_start he
    exact hkeep id (by rw [hstep])
  | read p env =>
    obtain ⟨owed, st, -, hstep, -⟩ := step_read he
    exact hkeep id (by rw [hstep])
  | load p l audit =>
    obtain ⟨pre', sets, ⟨env', mid', hrun', hmid', hsets⟩, hyes, hno⟩ := step_load_kernel hs he
    by_cases hl : l.Taken cfg
    · rw [hyes hl]
      refine ⟨fun pre env hfrom ↦ ?_, fun hnone ↦ ?_⟩
      · obtain ⟨mid, hrun, hmid⟩ := readAt_of_loadedFrom hl hfrom
        obtain ⟨rfl, rfl⟩ := readAt_unique (hrun.symm.trans hrun') hmid hmid'
        exact hsets
      · exact absurd ⟨p, mid', l, audit, [], by simp [hrun'], hmid', hl, by simp⟩
          (hnone pre' env')
    · exact hkeep hl (hno hl)

/-- **In every state the kernel's sets have a source.** -/
theorem sourced_after (hrun : IsInterleaving py cfg ⟨∅, ∅, ∅⟩ run) :
    Sourced py cfg run ((processes py cfg).after (Shared.init ⟨∅, ∅, ∅⟩) run).kernel := by
  refine Machine.inv_trace_of_prefix (I := fun pre (s : Shared ι) _ ↦ Sourced py cfg pre s.kernel)
    ⟨fun pre env ⟨p, mid, l, audit, post, hnil, _⟩ ↦ absurd hnil (by simp), fun _ ↦ rfl⟩ ?_
  intro pre e hpre hI
  obtain ⟨post, rfl⟩ := hpre
  refine hI.step (tracked_after fun x hx ↦ hrun x ?_) (hrun.possible (List.prefix_append _ _))
  rw [List.append_assoc, Machine.trace_append]
  exact List.mem_append_left _ hx

/-- **The kernel admits nothing beyond the valid grants, unless one has expired since the last
reading.** Take any interleaving of the operations of any processes on a fresh store and empty
sets, with any clocks, and any time `t`. Each address and each port in the kernel's sets belongs to
an accepted grant that expires after `t` if and only if each grant that was stored and valid at the
reading of the last script `nft` took, and has expired by `t`, has its targets and ports in common
with accepted grants that expire after `t`. -/
theorem within_grants_iff (hrun : IsInterleaving py cfg ⟨∅, ∅, ∅⟩ run) (t : ℤ) :
    ((processes py cfg).after (Shared.init ⟨∅, ∅, ∅⟩) run).kernel.OwedTo
        (unexpired t (accepted ((store py).trace Db.empty (storeCalls run)))) ↔
      ∀ pre env, LoadedFrom cfg run pre env →
        ∀ g ∈ (GrantLog.ofTrace ((store py).trace Db.empty (storeCalls pre))).live,
          env.cutoff < g.exp → g.exp ≤ t →
          g.CoveredBy (unexpired t (accepted ((store py).trace Db.empty (storeCalls run)))) := by
  have hsource := sourced_after hrun
  have hunion : ∀ {pre env}, LoadedFrom cfg run pre env →
      ((processes py cfg).after (Shared.init ⟨∅, ∅, ∅⟩) run).kernel = ActiveSets.union
        (unexpired env.cutoff
          (GrantLog.ofTrace ((store py).trace Db.empty (storeCalls pre))).live) := fun hfrom ↦
    computeActiveSets_ok_of_stands py (stands_after py _) (hsource.reading _ _ hfrom)
  constructor
  · intro howed pre env hfrom g hg hcut _
    rw [hunion hfrom, owedTo_union_iff] at howed
    exact howed g (List.mem_filter.2 ⟨hg, decide_eq_true hcut⟩)
  · intro hcov
    by_cases hnone : ∀ pre env, ¬ LoadedFrom cfg run pre env
    · rw [hsource.empty hnone]
      exact ⟨by simp, by simp, by simp⟩
    · push Not at hnone
      obtain ⟨pre, env, hfrom⟩ := hnone
      rw [hunion hfrom, owedTo_union_iff]
      intro g hg
      obtain ⟨hlive, hcut⟩ := List.mem_filter.1 hg
      by_cases hexp : g.exp ≤ t
      · exact hcov pre env hfrom g hlive (of_decide_eq_true hcut) hexp
      · -- a grant that is still valid covers itself
        refine Grant.coveredBy_of_mem (List.mem_filter.2 ⟨?_, decide_eq_true (by omega)⟩)
        obtain ⟨p, mid, l, audit, post, rfl, -⟩ := hfrom
        rw [storeCalls_append]
        exact accepted_append_subset _ _ (mem_accepted_of_mem_unexpired py hg)

end Runs

/-- An `install_grant` with `apply` of a grant for a host and port 443, until a time. -/
def GateCall.installUntil (t exp : ℤ) (nonce target : Str) : GateCall :=
  .install (.quiet t) { ts := [] } ⟨"tok".toList, nonce, exp, [target], [443], "tcp".toList⟩ true
    .present

/-- A grant that is valid until 20, installed and applied at time 3, and at time 30 another one that
is valid until 90. -/
def appliedTwice : List (GateStep Unit) :=
  [.start () (.installUntil 3 20 "n1".toList "1.2.3.4/32".toList), .read () (.quiet 4),
    .load () .quiet { ts := [] },
    .start () (.installUntil 30 90 "n2".toList "5.6.7.8/32".toList), .read () (.quiet 31),
    .load () .quiet { ts := [] }]

/-- At time 50 the first grant has expired, and everything the kernel admits belongs to the
second. -/
theorem within_grants_appliedTwice :
    ((processes .ascii .default).after (Shared.init ⟨∅, ∅, ∅⟩) appliedTwice).kernel.OwedTo
      (unexpired 50 (accepted ((store .ascii).trace Db.empty (storeCalls appliedTwice)))) := by
  refine (within_grants_iff (by decide +kernel) 50).2 fun pre env hfrom g hg hcut hexp ↦ ?_
  -- the last script was preceded by the reading at time 31
  obtain ⟨mid, hrun, hmid⟩ := @readAt_of_loadedFrom _ _ .default (appliedTwice.take 5) _ .quiet
    { ts := [] } _ _ ⟨rfl, rfl, rfl⟩ hfrom
  obtain ⟨rfl, rfl⟩ := @readAt_unique _ _ _ (appliedTwice.take 4) mid [] () env (.quiet 31)
    hrun.symm hmid rfl
  have hexps : ∀ g ∈ (GrantLog.ofTrace ((store .ascii).trace Db.empty
      (storeCalls (appliedTwice.take 4)))).live, g.exp = 20 ∨ g.exp = 90 := by
    decide +kernel
  have hcutoff : (ReadEnv.quiet 31).cutoff = 31 := rfl
  rcases hexps g hg with h | h
  · omega
  · omega

/-- A grant for one host and port 443, installed and applied at time 3 and valid until 90. -/
def appliedOnce : List (GateStep Unit) :=
  [.start () (.sample 3), .read () (.quiet 4), .load () .quiet { ts := [] }]

/-- **Egress outlives its grant.** At time 95 the grant has expired, nobody is busy, and the kernel
still admits its host and its port. -/
theorem outlives_its_grant :
    let s := (processes .ascii .default).after (Shared.init ⟨∅, ∅, ∅⟩) appliedOnce
    s.stage () = none ∧ s.kernel = ⟨{PyStr.lit "1.2.3.4"}, {PyStr.lit "443"}, ∅⟩ ∧
      ¬ s.kernel.OwedTo
        (unexpired 95 (accepted ((store .ascii).trace Db.empty (storeCalls appliedOnce)))) := by
  intro s
  have hkernel : s.kernel = ⟨{PyStr.lit "1.2.3.4"}, {PyStr.lit "443"}, ∅⟩ := by decide +kernel
  refine ⟨by decide +kernel, hkernel, fun h ↦ ?_⟩
  have hnone : unexpired 95 (accepted ((store .ascii).trace Db.empty
      (storeCalls appliedOnce))) = [] := by
    decide +kernel
  obtain ⟨g, hg, -⟩ := h.addrs (PyStr.lit "1.2.3.4")
    (hkernel ▸ Finset.mem_singleton_self (PyStr.lit "1.2.3.4"))
  rw [hnone] at hg
  exact absurd hg List.not_mem_nil

end SourceOS.Gate
