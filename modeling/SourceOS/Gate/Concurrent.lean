import SourceOS.Gate.GrantLog
import SourceOS.Gate.Processes
import SourceOS.Gate.Verify

/-!
# No grant is lost, unless an apply is overtaken

A script loads what was in the store at the reading before it. So a grant is missing from what a
process loads only if its transaction came after that reading; and the grant is *lost* if, on top of
that, the script of its own installation came before: then the older reading overwrites the newer.
`Overtaken` is this order of steps, and it is the only way to lose a grant
(`loadedIn_of_not_overtaken`). It does happen (`apply_overwrites_newer_grant`), since `apply` holds
no lock while it goes from the store to the kernel.

The invariant is `Tracked`: what the tables hold, what a process is about to do, and which grants
have been applied can all be found again in the steps taken so far. Where two of these steps stand
in the run is then a matter of comparing places (`Machine.place_cases`).
-/

namespace SourceOS.Gate

open Text

/-! ### The order of steps that loses a grant -/

section Schedule

variable {ι : Type}

/-- The call on the store that a step makes, if it may write. -/
def GateStep.storeCall : GateStep ι → Option StoreCall
  | .start _ call => call.storeCall
  | _ => none

/-- The calls on the store of a run. -/
def storeCalls (run : List (GateStep ι)) : List StoreCall :=
  run.filterMap GateStep.storeCall

/-- The reading of the clock that a step compares expiries with, if it does: a prune deletes up to
it, a list shows what is after it. -/
def GateStep.cutoff : GateStep ι → Option ℤ
  | .start _ (.prune env _ _ _) => some env.cutoff
  | .read _ env => some env.cutoff
  | _ => none

/-- `t` is not before any reading of the clock that a prune or a list of the run has used. -/
def CutoffsUpTo (t : ℤ) (run : List (GateStep ι)) : Prop :=
  ∀ e ∈ run, ∀ c ∈ e.cutoff, c ≤ t

theorem storeCalls_append (run run' : List (GateStep ι)) :
    storeCalls (run ++ run') = storeCalls run ++ storeCalls run' :=
  List.filterMap_append

theorem storeCalls_concat (run : List (GateStep ι)) (e : GateStep ι) :
    storeCalls (run ++ [e]) = storeCalls run ++ e.storeCall.toList := by
  rw [storeCalls_append]
  cases hc : e.storeCall <;> simp [storeCalls, hc]

instance (t : ℤ) (run : List (GateStep ι)) : Decidable (CutoffsUpTo t run) :=
  inferInstanceAs (Decidable (∀ e ∈ run, ∀ c ∈ e.cutoff, c ≤ t))

/-- So no prune is ahead of `t` either. -/
theorem CutoffsUpTo.prunedUpTo {t : ℤ} {run : List (GateStep ι)} (h : CutoffsUpTo t run) :
    PrunedUpTo t (storeCalls run) := by
  intro env henv
  obtain ⟨e, he, hcall⟩ := List.mem_filterMap.1 henv
  rcases e with ⟨p, call⟩ | _ | _
  · cases call with
    | prune env' audit apply probe =>
      obtain rfl := StoreCall.prune.inj (Option.some.inj hcall)
      exact h _ he _ rfl
    | _ => exact absurd hcall (by simp [GateStep.storeCall, GateCall.storeCall])
  · exact absurd hcall (by simp [GateStep.storeCall])
  · exact absurd hcall (by simp [GateStep.storeCall])

variable [DecidableEq ι]

/-- The steps of one process. -/
def stepsOf (p : ι) (run : List (GateStep ι)) : List (GateStep ι) :=
  run.filter fun e ↦ e.proc = p

/-- Some process carries a whole `install_grant` through, its transaction, its reading and its
script, for a grant that expires after `t`. -/
def CarriesInstall (t : ℤ) (mid : List (GateStep ι)) : Prop :=
  ∃ q env audit a probe r l audit', t < a.exp ∧ l.script = .applied ∧
    [.start q (.install env audit a true probe), .read q r, .load q l audit'] <:+: stepsOf q mid

/-- **An apply is overtaken**: between its reading and its script, another process carries a whole
`install_grant` through. -/
def Overtaken (t : ℤ) (run : List (GateStep ι)) : Prop :=
  ∃ p env pre mid l audit post, run = pre ++ .read p env :: (mid ++ .load p l audit :: post) ∧
    stepsOf p mid = [] ∧ l.script = .applied ∧ CarriesInstall t mid

/-- The targets and ports of a grant are in the sets. -/
def Grant.LoadedIn (g : Grant) (k : ActiveSets) : Prop :=
  (∀ x ∈ g.targets, dropHostMask x ∈ k.addrs) ∧
    ∀ n ∈ g.ports, PyStr.ofInt n ∈ if g.proto = PyStr.lit "udp" then k.udpPorts else k.tcpPorts

instance (g : Grant) (k : ActiveSets) : Decidable (g.LoadedIn k) :=
  inferInstanceAs (Decidable (_ ∧ _))

theorem stepsOf_append (p : ι) (run run' : List (GateStep ι)) :
    stepsOf p (run ++ run') = stepsOf p run ++ stepsOf p run' :=
  List.filter_append _ _

theorem stepsOf_singleton_of_ne {p : ι} {e : GateStep ι} (h : e.proc ≠ p) : stepsOf p [e] = [] := by
  simp [stepsOf, h]

/-- Steps that come later do not undo it. -/
theorem Overtaken.append {t : ℤ} {run : List (GateStep ι)} (h : Overtaken t run)
    (more : List (GateStep ι)) : Overtaken t (run ++ more) := by
  obtain ⟨p, env, pre, mid, l, audit, post, rfl, hmid⟩ := h
  exact ⟨p, env, pre, mid, l, audit, post ++ more, by simp, hmid⟩

/-- **A process alone is never overtaken.** -/
theorem not_overtaken_of_subsingleton [Subsingleton ι] (t : ℤ) (run : List (GateStep ι)) :
    ¬ Overtaken t run := by
  rintro ⟨p, env, pre, mid, l, audit, post, -, hmid, -, q, _, _, _, _, _, _, _, -, -, hown⟩
  rw [Subsingleton.elim q p, hmid] at hown
  exact absurd (List.infix_nil.1 hown) (by simp)

/-- The step begins an operation. -/
def GateStep.isStart : GateStep ι → Bool
  | .start _ _ => true
  | _ => false

/-- An overtaken apply has read before the other operation starts. -/
theorem Overtaken.sublist_isStart {t : ℤ} {run : List (GateStep ι)} (h : Overtaken t run) :
    [false, true].Sublist (run.map GateStep.isStart) := by
  obtain ⟨p, env, pre, mid, l, audit, post, rfl, -, -, hmid⟩ := h
  obtain ⟨q, ienv, iaudit, a, probe, r, l', audit', -, -, hown⟩ := hmid
  have hstart : .start q (.install ienv iaudit a true probe) ∈ mid :=
    List.mem_of_mem_filter (hown.subset List.mem_cons_self)
  have hafter : true ∈ (mid ++ .load p l audit :: post).map GateStep.isStart :=
    List.mem_map.2 ⟨_, List.mem_append_left _ hstart, rfl⟩
  rw [List.map_append, List.map_cons]
  refine List.Sublist.trans ?_ (List.sublist_append_right _ _)
  exact (List.singleton_sublist.2 hafter).cons_cons false

end Schedule

/-! ### Runs -/

section Runs

variable {ι : Type} (py : Runtime)

theorem appliedGrants_concat (tr : List (GateStep ι × GateOutcome)) (e : GateStep ι)
    (r : GateOutcome) : appliedGrants (tr ++ [(e, r)]) = appliedGrants tr ++ r.applied.toList := by
  rw [appliedGrants, List.filterMap_append, ← appliedGrants]
  cases hr : r.applied <;> simp [hr]

/-- In the run, after `pre`, the process `p` installs `g` to apply it. -/
def InstalledAt (run pre : List (GateStep ι)) (p : ι) (g : Grant) (post : List (GateStep ι)) :
    Prop :=
  ∃ env audit a probe, run = pre ++ .start p (.install env audit a true probe) :: post ∧
    g.exp = a.exp ∧
    g ∈ accepted ((store py).trace Db.empty (storeCalls pre ++ [.install env a]))

variable {py} in
theorem InstalledAt.append {run pre post : List (GateStep ι)} {p : ι} {g : Grant}
    (h : InstalledAt py run pre p g post) (more : List (GateStep ι)) :
    InstalledAt py (run ++ more) pre p g (post ++ more) := by
  obtain ⟨env, audit, a, probe, rfl, hg⟩ := h
  exact ⟨env, audit, a, probe, by simp, hg⟩

variable [DecidableEq ι]

/-- In the run, after `pre`, the process `p` reads `sets`, and that is its last step so far. -/
def ReadAt (run pre : List (GateStep ι)) (p : ι) (sets : ActiveSets) : Prop :=
  ∃ env post, run = pre ++ .read p env :: post ∧ stepsOf p post = [] ∧
    computeActiveSets py env ((store py).after Db.empty (storeCalls pre)) = .ok sets

/-- In the run, the last step of `p` so far is to install `g` to apply it. -/
def JustInstalled (run : List (GateStep ι)) (p : ι) (g : Grant) : Prop :=
  ∃ pre post, InstalledAt py run pre p g post ∧ stepsOf p post = []

/-- What a process is about to do comes from its last steps. -/
def StageTracked (run : List (GateStep ι)) (p : ι) : Option Stage → Prop
  | none => True
  | some (.reading owed) => ∀ g, owed = some g → JustInstalled py run p g
  | some (.loading owed sets) => ∃ pre, ReadAt py run pre p sets ∧
    ∀ g, owed = some g → JustInstalled py pre p g

/-- In the run, one process has installed `g` and applied it, in three steps. -/
def CarriedThrough (run : List (GateStep ι)) (g : Grant) : Prop :=
  ∃ p pre post r l audit, InstalledAt py run pre p g post ∧ l.script = .applied ∧
    [.read p r, .load p l audit] <+: stepsOf p post

/-- **Where everything comes from**: the tables from the calls on the store, what a process is about
to do from its last steps, and an applied grant from three steps of one process. -/
structure Tracked (run : List (GateStep ι)) (s : Shared ι) (applied : List Grant) : Prop where
  db : s.db = (store py).after Db.empty (storeCalls run)
  stage : ∀ p, StageTracked py run p (s.stage p)
  applied : ∀ g ∈ applied, CarriedThrough py run g

variable {py}

theorem ReadAt.concat_of_ne {run pre : List (GateStep ι)} {p : ι} {sets : ActiveSets}
    (h : ReadAt py run pre p sets) {e : GateStep ι} (he : e.proc ≠ p) :
    ReadAt py (run ++ [e]) pre p sets := by
  obtain ⟨env, post, rfl, hpost, hsets⟩ := h
  refine ⟨env, post ++ [e], by simp, ?_, hsets⟩
  rw [stepsOf_append, hpost, stepsOf_singleton_of_ne he]
  rfl

theorem JustInstalled.concat_of_ne {run : List (GateStep ι)} {p : ι} {g : Grant}
    (h : JustInstalled py run p g) {e : GateStep ι} (he : e.proc ≠ p) :
    JustInstalled py (run ++ [e]) p g := by
  obtain ⟨pre, post, hinst, hpost⟩ := h
  refine ⟨pre, post ++ [e], hinst.append [e], ?_⟩
  rw [stepsOf_append, hpost, stepsOf_singleton_of_ne he]
  rfl

/-- **A step of another process does not matter** to what a process is about to do. -/
theorem StageTracked.concat_of_ne {run : List (GateStep ι)} {p : ι} {st : Option Stage}
    (h : StageTracked py run p st) {e : GateStep ι} (he : e.proc ≠ p) :
    StageTracked py (run ++ [e]) p st := by
  rcases st with _ | owed | ⟨owed, sets⟩
  · trivial
  · exact fun g hg ↦ (h g hg).concat_of_ne he
  · obtain ⟨pre, hread, howed⟩ := h
    exact ⟨pre, hread.concat_of_ne he, howed⟩

/-- A step changes the stage of the process that takes it. -/
theorem Tracked.stage_update {run : List (GateStep ι)} {s : Shared ι} {applied : List Grant}
    (h : Tracked py run s applied) {e : GateStep ι} {st : Option Stage}
    (hst : StageTracked py (run ++ [e]) e.proc st) (p : ι) :
    StageTracked py (run ++ [e]) p (Function.update s.stage e.proc st p) := by
  rcases eq_or_ne p e.proc with rfl | hp
  · rwa [Function.update_self]
  · rw [Function.update_of_ne hp]
    exact (h.stage p).concat_of_ne hp.symm

/-- What has been applied stays so. -/
theorem CarriedThrough.append {run : List (GateStep ι)} {g : Grant} (h : CarriedThrough py run g)
    (more : List (GateStep ι)) : CarriedThrough py (run ++ more) g := by
  obtain ⟨p, pre, post, r, l, audit, hinst, hl, hown⟩ := h
  refine ⟨p, pre, post ++ more, r, l, audit, hinst.append more, hl, ?_⟩
  rw [stepsOf_append]
  exact hown.trans (List.prefix_append _ _)

theorem accepted_append_subset (calls more : List StoreCall) :
    accepted ((store py).trace Db.empty calls) ⊆
      accepted ((store py).trace Db.empty (calls ++ more)) := by
  rw [Machine.trace_append, accepted, accepted, List.filterMap_append]
  exact List.subset_append_left _ _

/-- **A grant that is installed before a reading is read**, unless it has expired. -/
theorem loadedIn_of_accepted {t : ℤ} {calls : List StoreCall} {env : ReadEnv} {sets : ActiveSets}
    {g : Grant} (hpruned : PrunedUpTo t calls) (hcut : env.cutoff ≤ t)
    (hsets : computeActiveSets py env ((store py).after Db.empty calls) = .ok sets)
    (hg : g ∈ accepted ((store py).trace Db.empty calls)) (hexp : t < g.exp) : g.LoadedIn sets := by
  have hlive : g ∈ (GrantLog.ofTrace ((store py).trace Db.empty calls)).live := by
    have hall : g ∈ (GrantLog.ofTrace ((store py).trace Db.empty calls)).all.filter
        fun g ↦ t < g.exp := by
      rw [GrantLog.all_ofTrace]
      exact List.mem_filter.2 ⟨hg, decide_eq_true hexp⟩
    rw [← Ledger.filter_live (spares_after py hpruned)] at hall
    exact (List.mem_filter.1 hall).1
  have hmem : g ∈ unexpired env.cutoff (GrantLog.ofTrace ((store py).trace Db.empty calls)).live :=
    List.mem_filter.2 ⟨hlive, decide_eq_true (by omega)⟩
  rw [computeActiveSets_ok_of_stands py (stands_after py calls) hsets]
  refine ⟨fun x hx ↦ ?_, fun n hn ↦ ?_⟩
  · exact List.mem_toFinset.2 (List.mem_flatMap.2 ⟨g, hmem, List.mem_map_of_mem hx⟩)
  · split
    · rename_i hudp
      exact List.mem_toFinset.2 (List.mem_flatMap.2
        ⟨g, List.mem_filter.2 ⟨hmem, decide_eq_true hudp⟩, List.mem_map_of_mem hn⟩)
    · rename_i hudp
      exact List.mem_toFinset.2 (List.mem_flatMap.2
        ⟨g, List.mem_filter.2 ⟨hmem, decide_eq_true hudp⟩, List.mem_map_of_mem hn⟩)

theorem mem_accepted_concat {calls : List StoreCall} {env : InstallEnv} {a : GrantArgs} {g : Grant}
    (h : (Gate.installGrant env a ((store py).after Db.empty calls)).1 = .ok g) :
    g ∈ accepted ((store py).trace Db.empty (calls ++ [.install env a])) := by
  rw [Machine.trace_append, accepted, List.filterMap_append]
  refine List.mem_append_right _ (List.mem_filterMap.2 ⟨_, List.mem_singleton_self _, ?_⟩)
  show acceptedBy (_, .installed _) = _
  rw [h]
  rfl

/-- A script that ends an `install_grant` is the third of its steps. -/
theorem carriedThrough_of_load {run : List (GateStep ι)} {p : ι} {owed : Option Grant}
    {sets : ActiveSets} {g : Grant} {env : ApplyEnv} (audit : AuditEnv)
    (h : StageTracked py run p (some (.loading owed sets))) (howed : owed = some g)
    (hscript : env.script = .applied) : CarriedThrough py (run ++ [.load p env audit]) g := by
  obtain ⟨pre, ⟨r, mid, rfl, hmid, -⟩, hown⟩ := h
  obtain ⟨pre', post, hinst, hpost⟩ := hown g howed
  have happ := hinst.append (.read p r :: mid ++ [.load p env audit])
  refine ⟨p, pre', _, r, env, audit, by simpa using happ, hscript, ?_⟩
  have hsteps : stepsOf p (post ++ .read p r :: (mid ++ [.load p env audit])) =
      [.read p r, .load p env audit] := by
    rw [stepsOf_append, hpost, ← List.singleton_append, stepsOf_append, stepsOf_append, hmid]
    simp [stepsOf, GateStep.proc]
  rw [hsteps]

/-- A step that applies no grant keeps track of the applied ones. -/
theorem Tracked.applied_of_none {run : List (GateStep ι)} {s : Shared ι} {applied : List Grant}
    (h : Tracked py run s applied) (e : GateStep ι) {o : Option Grant} (ho : o = none) :
    ∀ g ∈ applied ++ o.toList, CarriedThrough py (run ++ [e]) g := by
  subst ho
  intro g hg
  rw [Option.toList_none, List.append_nil] at hg
  exact (h.applied g hg).append [e]

variable {cfg : NftConfig} {run : List (GateStep ι)} {s : Shared ι} {applied : List Grant} {p : ι}

theorem Tracked.start {call : GateCall} (h : Tracked py run s applied)
    (he : (s.step py cfg (.start p call)).2 ≠ .impossible) :
    Tracked py (run ++ [.start p call]) (s.step py cfg (.start p call)).1
      (applied ++ (s.step py cfg (.start p call)).2.applied.toList) := by
  obtain ⟨st, hstep, hst, hnone⟩ := step_start he
  refine ⟨?_, ?_, h.applied_of_none _ hnone⟩
  · rw [hstep, storeCalls_concat, Machine.after_append, ← h.db]
    rfl
  rw [hstep]
  refine h.stage_update ?_
  rcases st with _ | st
  · trivial
  rcases begin_owes (hst st rfl) with rfl | ⟨env, audit, a, probe, g, rfl, hg, rfl⟩
  · exact fun g hg ↦ absurd hg (by simp)
  · rintro g' ⟨⟩
    refine ⟨run, [], ⟨env, audit, a, probe, rfl, ?_, mem_accepted_concat (h.db ▸ hg)⟩, rfl⟩
    obtain ⟨rfl, -⟩ := installGrant_ok hg
    rfl

theorem Tracked.read {env : ReadEnv} (h : Tracked py run s applied)
    (he : (s.step py cfg (.read p env)).2 ≠ .impossible) :
    Tracked py (run ++ [.read p env]) (s.step py cfg (.read p env)).1
      (applied ++ (s.step py cfg (.read p env)).2.applied.toList) := by
  obtain ⟨owed, st, hstage, hstep, hst, hnone⟩ := step_read he
  refine ⟨?_, ?_, h.applied_of_none _ hnone⟩
  · rw [hstep, storeCalls_concat, h.db]
    simp [GateStep.storeCall]
  rw [hstep]
  refine h.stage_update ?_
  rcases st with _ | st
  · trivial
  obtain ⟨sets, rfl, hsets⟩ := hst st rfl
  refine ⟨run, ⟨env, [], rfl, rfl, h.db ▸ hsets⟩, ?_⟩
  have hown := h.stage p
  rwa [hstage] at hown

theorem Tracked.load {env : ApplyEnv} {audit : AuditEnv} (h : Tracked py run s applied)
    (he : (s.step py cfg (.load p env audit)).2 ≠ .impossible) :
    Tracked py (run ++ [.load p env audit]) (s.step py cfg (.load p env audit)).1
      (applied ++ (s.step py cfg (.load p env audit)).2.applied.toList) := by
  obtain ⟨owed, sets, k, hstage, hstep, hload⟩ := step_load he
  refine ⟨?_, ?_, fun g hg ↦ ?_⟩
  · rw [hstep, storeCalls_concat, h.db]
    simp [GateStep.storeCall]
  · rw [hstep]
    refine h.stage_update ?_
    trivial
  rcases List.mem_append.1 hg with hg | hg
  · exact (h.applied g hg).append _
  have happ : (s.step py cfg (.load p env audit)).2.applied = some g := Option.mem_toList.1 hg
  have hown := h.stage p
  rw [hstage] at hown
  rcases hload with ⟨hscript, -, howed | hnone⟩ | ⟨-, hnone⟩
  · exact carriedThrough_of_load audit hown (howed.symm.trans happ) hscript
  · exact absurd (hnone.symm.trans happ) (by simp)
  · exact absurd (hnone.symm.trans happ) (by simp)

/-- **One step keeps track.** -/
theorem Tracked.step {e : GateStep ι} (h : Tracked py run s applied)
    (he : (s.step py cfg e).2 ≠ .impossible) :
    Tracked py (run ++ [e]) (s.step py cfg e).1
      (applied ++ (s.step py cfg e).2.applied.toList) := by
  cases e with
  | start p call => exact h.start he
  | read p env => exact h.read he
  | load p env audit => exact h.load he

/-- Every step of an interleaving is possible where it is taken. -/
theorem IsInterleaving.possible {k : ActiveSets} {pre : List (GateStep ι)} {e : GateStep ι}
    (h : IsInterleaving py cfg k run) (hpre : pre ++ [e] <+: run) :
    (Shared.step py cfg ((processes py cfg).after (Shared.init k) pre) e).2 ≠ .impossible := by
  obtain ⟨post, rfl⟩ := hpre
  refine h (e, _) ?_
  rw [Machine.trace_append, Machine.trace_append]
  exact List.mem_append_left _ (List.mem_append_right _ List.mem_cons_self)

/-- **A whole run keeps track.** -/
theorem tracked_after {k : ActiveSets} (h : IsInterleaving py cfg k run) :
    Tracked py run ((processes py cfg).after (Shared.init k) run)
      (appliedGrants ((processes py cfg).trace (Shared.init k) run)) := by
  refine Machine.inv_trace_of_prefix (I := fun pre s tr ↦ Tracked py pre s (appliedGrants tr))
    ⟨rfl, fun _ ↦ trivial, fun _ hg ↦ absurd hg List.not_mem_nil⟩ ?_
  intro pre e hpre hI
  rw [appliedGrants_concat]
  exact hI.step (h.possible hpre)

/-- **A script that follows a reading loads every applied grant**, unless it has been overtaken. -/
theorem loadedIn_of_load {t : ℤ} {pre : List (GateStep ι)} {g : Grant} {sets : ActiveSets}
    {env : ApplyEnv} {audit : AuditEnv} (hcut : CutoffsUpTo t run)
    (hno : ¬ Overtaken t (run ++ [.load p env audit])) (hread : ReadAt py run pre p sets)
    (hscript : env.script = .applied) (hg : CarriedThrough py (run ++ [.load p env audit]) g)
    (hexp : t < g.exp) : g.LoadedIn sets := by
  obtain ⟨r', mid, rfl, hmid, hsets⟩ := hread
  obtain ⟨q, pre', post, r, l, audit', hinst, hl, hown⟩ := hg
  obtain ⟨ienv, iaudit, a, probe, hrun, hgexp, hacc⟩ := hinst
  have hcutoff : r'.cutoff ≤ t := hcut (.read p r') (by simp) _ rfl
  have hpruned : PrunedUpTo t (storeCalls pre) :=
    CutoffsUpTo.prunedUpTo fun e he ↦ hcut e (List.mem_append_left _ he)
  rw [List.append_assoc, List.cons_append] at hrun
  rcases Machine.place_cases hrun.symm (by simp) with ⟨m, rfl⟩ | ⟨m, rfl, hpost⟩
  · -- the grant was in the tables when they were read
    refine loadedIn_of_accepted hpruned hcutoff hsets ?_ hexp
    rw [storeCalls_append, ← List.singleton_append, storeCalls_append, ← List.append_assoc]
    exact accepted_append_subset _ _ hacc
  · -- all three steps of the installation are between the reading and the script
    refine absurd ⟨p, r', pre, mid, env, audit, [], by simp, hmid, hscript, ?_⟩ hno
    rcases List.eq_nil_or_concat post with rfl | ⟨post, e, rfl⟩
    · exact absurd hown.length_le (by simp [stepsOf])
    rw [List.concat_eq_append, ← List.cons_append, ← List.append_assoc] at hpost
    obtain ⟨rfl, hlast⟩ := List.append_inj' hpost rfl
    obtain rfl := (List.cons.inj hlast).1
    have hne : (GateStep.load p env audit).proc ≠ q := by
      rintro rfl
      simp [stepsOf, GateStep.proc] at hmid
    rw [List.concat_eq_append, stepsOf_append, stepsOf_singleton_of_ne hne, List.append_nil] at hown
    refine ⟨q, ienv, iaudit, a, probe, r, l, audit', hgexp ▸ hexp, hl, ?_⟩
    have hsteps : stepsOf q (m ++ .start q (.install ienv iaudit a true probe) :: post) =
        stepsOf q m ++ .start q (.install ienv iaudit a true probe) :: stepsOf q post := by
      simp [stepsOf, GateStep.proc]
    rw [hsteps]
    exact ((List.prefix_cons_inj _).2 hown).isInfix.trans (List.suffix_append _ _).isInfix

/-- **One step loses nothing**, unless it is the script of an overtaken apply. -/
theorem loadedIn_step {t : ℤ} {e : GateStep ι} (h : Tracked py run s applied)
    (he : (s.step py cfg e).2 ≠ .impossible) (hcut : CutoffsUpTo t run)
    (hno : ¬ Overtaken t (run ++ [e])) (hk : ∀ g ∈ applied, t < g.exp → g.LoadedIn s.kernel) :
    ∀ g ∈ applied ++ (s.step py cfg e).2.applied.toList, t < g.exp →
      g.LoadedIn (s.step py cfg e).1.kernel := by
  intro g hg hexp
  -- a step that applies no grant and leaves the kernel alone has nothing to lose
  have hkeep : (s.step py cfg e).2.applied = none → (s.step py cfg e).1.kernel = s.kernel →
      g.LoadedIn (s.step py cfg e).1.kernel := by
    intro hnone hkernel
    rw [hnone, Option.toList_none, List.append_nil] at hg
    rw [hkernel]
    exact hk g hg hexp
  have hcarried := (h.step he).applied g hg
  cases e with
  | start p call =>
    obtain ⟨st, hstep, -, hnone⟩ := step_start he
    exact hkeep hnone (by rw [hstep])
  | read p env =>
    obtain ⟨owed, st, -, hstep, -, hnone⟩ := step_read he
    exact hkeep hnone (by rw [hstep])
  | load p env audit =>
    obtain ⟨owed, sets, k, hstage, hstep, ⟨hscript, rfl, -⟩ | ⟨rfl, hnone⟩⟩ := step_load he
    · have hread := h.stage p
      rw [hstage] at hread
      obtain ⟨pre, hread, -⟩ := hread
      rw [hstep]
      exact loadedIn_of_load hcut hno hread hscript hcarried hexp
    · exact hkeep hnone (by rw [hstep])

/-- **Concurrent applies lose no grant, unless one is overtaken.** Take any interleaving of the
operations of any processes on one store and one kernel, and a time `t` that is not before the
cutoffs used in it. If no apply of it is overtaken, then every grant whose `install_grant` with
`apply` returned, and which expires after `t`, has its targets and ports in the kernel, whether
operations are in progress or not. -/
theorem loadedIn_of_not_overtaken {k : ActiveSets} {t : ℤ} (hrun : IsInterleaving py cfg k run)
    (hcut : CutoffsUpTo t run) (hno : ¬ Overtaken t run) :
    ∀ g ∈ appliedGrants ((processes py cfg).trace (Shared.init k) run), t < g.exp →
      g.LoadedIn ((processes py cfg).after (Shared.init k) run).kernel := by
  refine Machine.inv_trace_of_prefix
    (I := fun _ (s : Shared ι) tr ↦ ∀ g ∈ appliedGrants tr, t < g.exp → g.LoadedIn s.kernel)
    (fun _ hg ↦ absurd hg List.not_mem_nil) ?_
  intro pre e hpre hI
  obtain ⟨post, rfl⟩ := hpre
  rw [appliedGrants_concat]
  refine loadedIn_step (tracked_after ?_) (hrun.possible (List.prefix_append _ _)) ?_ ?_ hI
  · intro x hx
    refine hrun x ?_
    rw [List.append_assoc, Machine.trace_append]
    exact List.mem_append_left _ hx
  · exact fun e he ↦ hcut e (List.mem_append_left _ (List.mem_append_left _ he))
  · exact fun hover ↦ hno (hover.append post)

end Runs

/-! The samples: the baseline is there and nothing fails; the command line is `true`, the daemon is
`false`. -/

/-- An `apply_sets` that `nft` takes. -/
def ApplyEnv.quiet : ApplyEnv := ⟨true, .present, .applied⟩

/-- `install_grant` with `apply`, at time `t`, of a grant for one host and port 443. -/
def GateCall.sample (t : ℤ) : GateCall :=
  .install (.quiet t) { ts := [] }
    ⟨"tok".toList, "n1".toList, 90, ["1.2.3.4/32".toList], [443], "tcp".toList⟩ true .present

/-- The command line reads after the daemon has installed its grant, and may run its script last. -/
theorem loadedIn_of_not_overtaken_sample :
    Grant.LoadedIn ⟨"tok".toList, "n1".toList, 90, ["1.2.3.4/32".toList], [443], "tcp".toList, 3⟩
      ((processes .ascii .default).after (Shared.init ⟨∅, ∅, ∅⟩)
        [.start true (.apply .present), .start false (.sample 3), .read true (.quiet 4),
          .read false (.quiet 4), .load false .quiet { ts := [] },
          .load true .quiet { ts := [] }]).kernel := by
  refine loadedIn_of_not_overtaken (t := 5) (by decide +kernel) (by decide) ?_ _ ?_ (by decide)
  · exact fun h ↦ absurd h.sublist_isStart (by decide)
  · decide +kernel

/-- **An apply overwrites a newer grant.** The command line reads the empty tables; the daemon
installs a grant, applies it and returns; then the command line runs its script. Nobody is busy, the
grant is valid for a long time, and the kernel's sets are empty. -/
theorem apply_overwrites_newer_grant :
    ¬ ∀ (run : List (GateStep Bool)) (t : ℤ), IsInterleaving .ascii .default ⟨∅, ∅, ∅⟩ run →
      CutoffsUpTo t run →
      (∀ p, ((processes .ascii .default).after (Shared.init ⟨∅, ∅, ∅⟩) run).stage p = none) →
      ∀ g ∈ appliedGrants ((processes .ascii .default).trace (Shared.init ⟨∅, ∅, ∅⟩) run),
        t < g.exp →
          g.LoadedIn ((processes .ascii .default).after (Shared.init ⟨∅, ∅, ∅⟩) run).kernel := by
  intro h
  have hlost := h
    [.start true (.apply .present), .read true (.quiet 2), .start false (.sample 3),
      .read false (.quiet 3), .load false .quiet { ts := [] }, .load true .quiet { ts := [] }]
    5 (by decide +kernel) (by decide) (by decide +kernel)
    ⟨"tok".toList, "n1".toList, 90, ["1.2.3.4/32".toList], [443], "tcp".toList, 3⟩
    (by decide +kernel) (by decide)
  exact absurd hlost (by decide +kernel)

end SourceOS.Gate
