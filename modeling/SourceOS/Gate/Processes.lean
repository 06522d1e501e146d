import Mathlib.Logic.Function.Basic
import SourceOS.Gate.Daemon

/-!
# Several processes on one store

The daemon and the command line share a store root and a kernel, and nothing spans the two: an
operation that applies is a transaction on the store, a reading of the active sets, and a script
that overwrites the kernel's sets with what was read. Between two of these steps other processes
take theirs.

Here an operation is cut at exactly these places and the processes take turns in any order; a
process is busy with at most one operation. A script is taken to load exactly the sets that were
read, which is what the `act` of the script step is.

* `step_start`, `step_read` and `step_load` say what each kind of step can do.
* `alone_after` connects the machine to the level above: an operation whose steps are not
  interrupted is the operation of `Egress`.
-/

namespace SourceOS.Gate

open Text

/-! ### Steps -/

/-- A call of an operation, with what the outside decides of its first step. -/
inductive GateCall
  /-- `install_grant`, up to the reading of the sets: the transaction, the audit record, and, if
  the grant is to be applied, the baseline check of `apply`. -/
  | install (env : InstallEnv) (audit : AuditEnv) (a : GrantArgs) (apply : Bool) (probe : Probe)
  /-- `prune`, likewise. -/
  | prune (env : ReadEnv) (audit : AuditEnv) (apply : Bool) (probe : Probe)
  /-- `apply`, up to the reading of the sets. -/
  | apply (probe : Probe)
  /-- `init`, `verify` or `snapshot`, which write neither the tables nor the kernel. -/
  | observe

/-- The call on the store that it makes, if it may write. -/
def GateCall.storeCall : GateCall → Option StoreCall
  | .install env _ a _ _ => some (.install env a)
  | .prune env _ _ _ => some (.prune env)
  | .apply _ | .observe => none

/-- A step of a process of `ι`. -/
inductive GateStep (ι : Type)
  /-- A call, and its first step. -/
  | start (p : ι) (call : GateCall)
  /-- `compute_active_sets`. -/
  | read (p : ι) (env : ReadEnv)
  /-- `apply_sets`, and the audit record of `apply`. -/
  | load (p : ι) (env : ApplyEnv) (audit : AuditEnv)

/-- The process that takes the step. -/
def GateStep.proc {ι : Type} : GateStep ι → ι
  | .start p _ | .read p _ | .load p _ _ => p

/-- Where a busy process stands. Both stages keep the grant that the operation is to apply, when it
is an `install_grant`. -/
inductive Stage
  /-- Before it reads the sets. -/
  | reading (owed : Option Grant)
  /-- Before it hands them to `nft`. -/
  | loading (owed : Option Grant) (sets : ActiveSets)
deriving DecidableEq

/-- What the processes share, and where each of them stands. -/
structure Shared (ι : Type) where
  db : Db
  kernel : ActiveSets
  /-- `none` for a process that is not busy. -/
  stage : ι → Option Stage

/-- What a step comes to. -/
inductive GateOutcome
  /-- The operation goes on. -/
  | pending
  /-- It returned; if it was an `install_grant` that applied, with its grant. -/
  | returned (installed : Option Grant)
  /-- It raised. -/
  | raised (e : Exc)
  /-- The process was not there, so this is not a step of it. -/
  | impossible

section Machine

variable {ι : Type} [DecidableEq ι] (py : Runtime) (cfg : NftConfig)

/-- `if apply: self.apply()`, up to the reading of the sets. -/
def toReading (owed : Option Grant) (apply : Bool) (probe : Probe) :
    Effect Exc Db (Option Stage) := do
  if apply then
    .ofExcept (requireBaseline cfg probe)
    return some (.reading owed)
  else return none

/-- `recordAndApply`, up to the reading of the sets. -/
def recordAndRead (audit : AuditEnv) (owed : Option Grant) (apply : Bool) (probe : Probe) :
    Effect Exc Db (Option Stage) := do
  .ofExcept audit.fault.check
  toReading cfg owed apply probe

/-- The first step of a call: what is left to do after it, `none` if nothing is. -/
def GateCall.begin : GateCall → Effect Exc Db (Option Stage)
  | .install env audit a doApply probe => do
    let g ← (Gate.installGrant env a : Effect Exc Db Grant)
    recordAndRead cfg audit (some g) doApply probe
  | .prune env audit doApply probe => do
    let _ ← (pruneExpired env : Effect Exc Db ℕ)
    recordAndRead cfg audit none doApply probe
  | .apply probe => toReading cfg none true probe
  | .observe => pure none

/-- The end of `apply`: the script, then the audit record. -/
def loadSets (env : ApplyEnv) (audit : AuditEnv) (sets : ActiveSets) :
    Effect Exc ActiveSets Unit := do
  (applySets py cfg (fun _ _ ↦ sets) env sets : Effect Exc ActiveSets Unit)
  .ofExcept audit.fault.check

/-- The outcome of a step that ends the operation. -/
def GateOutcome.ofExcept (owed : Option Grant) : Except Exc Unit → GateOutcome
  | .ok () => .returned owed
  | .error e => .raised e

/-- One step. -/
def Shared.step (s : Shared ι) : GateStep ι → Shared ι × GateOutcome
  | .start p call =>
    match s.stage p with
    | some _ => (s, .impossible)
    | none =>
      match (call.begin cfg).run s.db with
      | (.error e, db) => ({ s with db := db }, .raised e)
      | (.ok none, db) => ({ s with db := db }, .returned none)
      | (.ok (some st), db) =>
        ({ s with db := db, stage := Function.update s.stage p (some st) }, .pending)
  | .read p env =>
    match s.stage p with
    | some (.reading owed) =>
      match computeActiveSets py env s.db with
      | .error e => ({ s with stage := Function.update s.stage p none }, .raised e)
      | .ok sets =>
        ({ s with stage := Function.update s.stage p (some (.loading owed sets)) }, .pending)
    | _ => (s, .impossible)
  | .load p env audit =>
    match s.stage p with
    | some (.loading owed sets) =>
      let (r, k) := (loadSets py cfg env audit sets).run s.kernel
      ({ s with kernel := k, stage := Function.update s.stage p none }, .ofExcept owed r)
    | _ => (s, .impossible)

/-- The processes, taking turns. -/
def processes : Machine (Shared ι) (GateStep ι) GateOutcome := ⟨Shared.step py cfg⟩

/-- A fresh store, any content of the kernel, and nobody busy. -/
def Shared.init (k : ActiveSets) : Shared ι := ⟨Db.empty, k, fun _ ↦ none⟩

/-- **An interleaving**: every step is taken by a process that is there. -/
def IsInterleaving (k : ActiveSets) (run : List (GateStep ι)) : Prop :=
  ∀ x ∈ (processes py cfg).trace (Shared.init k) run, x.2 ≠ .impossible

/-- The grant, if this is how an `install_grant` with `apply` returned. -/
def GateOutcome.applied : GateOutcome → Option Grant
  | .returned g => g
  | _ => none

/-- The grants whose `install_grant` with `apply` returned, in a trace. -/
def appliedGrants (tr : List (GateStep ι × GateOutcome)) : List Grant :=
  tr.filterMap fun x ↦ x.2.applied

instance (r : GateOutcome) : Decidable (r = .impossible) :=
  match r with
  | .impossible => isTrue rfl
  | .pending | .returned _ | .raised _ => isFalse nofun

instance (k : ActiveSets) (run : List (GateStep ι)) : Decidable (IsInterleaving py cfg k run) :=
  inferInstanceAs (Decidable (∀ x ∈ (processes py cfg).trace (Shared.init k) run, _))

end Machine

/-! ### One step -/

section Step

variable {ι : Type} [DecidableEq ι] {py : Runtime} {cfg : NftConfig}

theorem frames_toReading (owed : Option Grant) (apply : Bool) (probe : Probe) :
    Effect.Frames (fun db : Db ↦ db) (toReading cfg owed apply probe) := by
  cases apply with
  | false => exact fun _ ↦ rfl
  | true => exact Effect.Frames.bind (Effect.Frames.ofExcept _) fun _ _ ↦ rfl

/-- What is left to do is a reading, if anything. -/
theorem toReading_ok {owed : Option Grant} {apply : Bool} {probe : Probe} {db : Db} {st : Stage}
    (h : ((toReading cfg owed apply probe).run db).1 = .ok (some st)) :
    apply = true ∧ st = .reading owed := by
  cases apply with
  | false => exact absurd h (by simp [toReading])
  | true =>
    obtain ⟨_, s', -, hpure⟩ := Effect.exists_of_bind_ok h
    exact ⟨rfl, (Option.some.inj (Except.ok.inj hpure)).symm⟩

theorem frames_recordAndRead (audit : AuditEnv) (owed : Option Grant) (apply : Bool)
    (probe : Probe) :
    Effect.Frames (fun db : Db ↦ db) (recordAndRead cfg audit owed apply probe) :=
  Effect.Frames.bind (Effect.Frames.ofExcept _) fun _ ↦ frames_toReading owed apply probe

/-- The first step does to the tables what its call on the store does. -/
theorem begin_snd (call : GateCall) (db : Db) :
    ((call.begin cfg).run db).2 = (store py).after db call.storeCall.toList := by
  cases call with
  | install env audit a apply probe =>
    exact Effect.run_bind_snd (fun g ↦ frames_recordAndRead audit (some g) apply probe) db
  | prune env audit apply probe =>
    exact Effect.run_bind_snd (fun _ ↦ frames_recordAndRead audit none apply probe) db
  | apply probe => exact frames_toReading none true probe db
  | observe => rfl

/-- A call that goes on to apply a grant is an `install_grant` that has just accepted it. -/
theorem begin_owes {call : GateCall} {db : Db} {st : Stage}
    (h : ((call.begin cfg).run db).1 = .ok (some st)) :
    st = .reading none ∨ ∃ env audit a probe g, call = .install env audit a true probe ∧
      (Gate.installGrant env a db).1 = .ok g ∧ st = .reading (some g) := by
  cases call with
  | install env audit a apply probe =>
    obtain ⟨g, db', hg, h⟩ := Effect.exists_of_bind_ok h
    obtain ⟨_, db', -, h⟩ := Effect.exists_of_bind_ok h
    obtain ⟨rfl, rfl⟩ := toReading_ok h
    exact Or.inr ⟨env, audit, a, probe, g, rfl, congrArg Prod.fst hg, rfl⟩
  | prune env audit apply probe =>
    obtain ⟨_, db', -, h⟩ := Effect.exists_of_bind_ok h
    obtain ⟨_, db', -, h⟩ := Effect.exists_of_bind_ok h
    exact Or.inl (toReading_ok h).2
  | apply probe => exact Or.inl (toReading_ok h).2
  | observe => exact absurd h (by simp [GateCall.begin])

/-- The audit record does not matter to the kernel. -/
theorem loadSets_snd (env : ApplyEnv) (audit : AuditEnv) (sets k : ActiveSets) :
    ((loadSets py cfg env audit sets).run k).2 =
      (applySets py cfg (fun _ _ ↦ sets) env sets k).2 := by
  have hrecord : Effect.Frames (fun k : ActiveSets ↦ k)
      (.ofExcept audit.fault.check : Effect Exc ActiveSets Unit) := Effect.Frames.ofExcept _
  exact Effect.run_bind_snd (fun _ ↦ hrecord) k

/-- **What the script step does**: it loads the sets, or it raises and leaves the kernel alone; and
it returns only if `nft` has taken the script. -/
theorem loadSets_cases (env : ApplyEnv) (audit : AuditEnv) (sets k : ActiveSets) :
    (env.script = .applied ∧ ((loadSets py cfg env audit sets).run k).2 = sets) ∨
      (((loadSets py cfg env audit sets).run k).2 = k ∧
        ∃ e, ((loadSets py cfg env audit sets).run k).1 = .error e) := by
  rw [loadSets_snd]
  rcases Effect.bind_cases (applySets py cfg (fun _ _ ↦ sets) env sets : Effect Exc ActiveSets Unit)
    (fun _ ↦ .ofExcept audit.fault.check) k with ⟨e, k', hx, hrun⟩ | ⟨_, k', hx, -⟩
  · exact Or.inr ⟨applySets_error (congrArg Prod.fst hx), e, congrArg Prod.fst hrun⟩
  · obtain ⟨happlied, _, -, hact⟩ := applySets_ok (congrArg Prod.fst hx)
    exact Or.inl ⟨happlied, hact⟩

/-- **What a first step can do.** -/
theorem step_start {s : Shared ι} {p : ι} {call : GateCall}
    (h : (s.step py cfg (.start p call)).2 ≠ .impossible) :
    ∃ st, (s.step py cfg (.start p call)).1 =
        ⟨(store py).after s.db call.storeCall.toList, s.kernel, Function.update s.stage p st⟩ ∧
      (∀ x, st = some x → ((call.begin cfg).run s.db).1 = .ok (some x)) ∧
      (s.step py cfg (.start p call)).2.applied = none := by
  have hdb := @begin_snd py cfg call s.db
  rcases hst : s.stage p with _ | st
  · rcases hrun : (call.begin cfg).run s.db with ⟨e | _ | st, db⟩
    · refine ⟨none, ?_, ?_, ?_⟩ <;> simp [Shared.step, hst, hrun, ← hdb, GateOutcome.applied]
    · refine ⟨none, ?_, ?_, ?_⟩ <;> simp [Shared.step, hst, hrun, ← hdb, GateOutcome.applied]
    · refine ⟨some st, ?_, ?_, ?_⟩ <;> simp [Shared.step, hst, hrun, ← hdb, GateOutcome.applied]
  · exact absurd (by simp [Shared.step, hst]) h

/-- **What a reading can do.** -/
theorem step_read {s : Shared ι} {p : ι} {env : ReadEnv}
    (h : (s.step py cfg (.read p env)).2 ≠ .impossible) :
    ∃ owed st, s.stage p = some (.reading owed) ∧
      (s.step py cfg (.read p env)).1 = { s with stage := Function.update s.stage p st } ∧
      (∀ x, st = some x → ∃ sets, x = .loading owed sets ∧
        computeActiveSets py env s.db = .ok sets) ∧
      (s.step py cfg (.read p env)).2.applied = none := by
  rcases hst : s.stage p with _ | owed | ⟨owed, sets⟩
  · exact absurd (by simp [Shared.step, hst]) h
  · rcases hsets : computeActiveSets py env s.db with e | sets
    · refine ⟨owed, none, rfl, ?_, ?_, ?_⟩ <;>
        simp [Shared.step, hst, hsets, GateOutcome.applied]
    · refine ⟨owed, some (.loading owed sets), rfl, ?_, ?_, ?_⟩ <;>
        simp [Shared.step, hst, hsets, GateOutcome.applied]
  · exact absurd (by simp [Shared.step, hst]) h

/-- **What a script step can do.** -/
theorem step_load {s : Shared ι} {p : ι} {env : ApplyEnv} {audit : AuditEnv}
    (h : (s.step py cfg (.load p env audit)).2 ≠ .impossible) :
    ∃ owed sets k, s.stage p = some (.loading owed sets) ∧
      (s.step py cfg (.load p env audit)).1 =
        { s with kernel := k, stage := Function.update s.stage p none } ∧
      ((env.script = .applied ∧ k = sets ∧
          ((s.step py cfg (.load p env audit)).2.applied = owed ∨
            (s.step py cfg (.load p env audit)).2.applied = none)) ∨
        (k = s.kernel ∧ (s.step py cfg (.load p env audit)).2.applied = none)) := by
  rcases hst : s.stage p with _ | owed | ⟨owed, sets⟩
  · exact absurd (by simp [Shared.step, hst]) h
  · exact absurd (by simp [Shared.step, hst]) h
  · have hstep : s.step py cfg (.load p env audit) =
        ({ s with kernel := ((loadSets py cfg env audit sets).run s.kernel).2,
                  stage := Function.update s.stage p none },
          .ofExcept owed ((loadSets py cfg env audit sets).run s.kernel).1) := by
      simp [Shared.step, hst]
    refine ⟨owed, sets, _, rfl, congrArg Prod.fst hstep, ?_⟩
    rw [hstep]
    rcases loadSets_cases env audit sets s.kernel with ⟨happlied, hk⟩ | ⟨hk, e, herr⟩
    · refine Or.inl ⟨happlied, hk, ?_⟩
      rcases ((loadSets py cfg env audit sets).run s.kernel).1 with e | _
      · exact Or.inr rfl
      · exact Or.inl rfl
    · refine Or.inr ⟨hk, ?_⟩
      rw [herr]
      rfl

end Step

/-! ### An operation alone -/

section Alone

variable {ι : Type} [DecidableEq ι] (G : EgressGate ActiveSets)

/-- The operation of `Egress` that a call stands for, given what the outside decides of the other
steps. -/
def GateCall.perform (r : ReadEnv) (l : ApplyEnv) (audit' : AuditEnv) :
    GateCall → GateM ActiveSets Unit
  | .install env audit a doApply probe =>
    G.installGrant ⟨env, audit, ⟨probe, r, l, audit'⟩⟩ a doApply
  | .prune env audit doApply probe => do
    let _ ← G.prune ⟨env, audit, ⟨probe, r, l, audit'⟩⟩ doApply
  | .apply probe => G.apply ⟨probe, r, l, audit'⟩
  | .observe => pure ()

/-- What reading the sets and running the script come to for the kernel. -/
def readAndLoad (act : PyStr → ActiveSets → ActiveSets) (r : ReadEnv) (l : ApplyEnv) (db : Db)
    (k : ActiveSets) : ActiveSets :=
  match computeActiveSets G.py r db with
  | .error _ => k
  | .ok sets => (applySets G.py G.cfg act l sets k).2

theorem run_apply_kernel (env : GateApplyEnv) (w : World ActiveSets) :
    ((G.apply env).run w).2.kernel = match requireBaseline G.cfg env.probe with
      | .error _ => w.kernel
      | .ok () => readAndLoad G G.act env.read env.sets w.db w.kernel := by
  unfold EgressGate.apply readAndLoad
  rcases Effect.read_bind_cases (Effect.run_ofExcept (requireBaseline G.cfg env.probe) w) _ with
    ⟨_, hbase, hrun⟩ | ⟨_, hbase, hrun⟩
  · rw [hrun, hbase]
  rw [hrun, hbase]
  rcases Effect.read_bind_cases (run_readStore (computeActiveSets G.py env.read) w) _ with
    ⟨_, hsets, hrun⟩ | ⟨sets, hsets, hrun⟩
  · rw [hrun, hsets]
  rw [hrun, hsets]
  exact Effect.run_bind_snd (fun _ ↦ frames_auditAppend (fun _ k ↦ k) env.audit _ _) w

/-- What is left after the first step, as far as the kernel is concerned. -/
def finish (r : ReadEnv) (l : ApplyEnv) (k : ActiveSets) :
    Except Exc (Option Stage) × Db → ActiveSets
  | (.ok (some _), db) => readAndLoad G G.act r l db k
  | _ => k

/-- The end of `install_grant` and of `prune`, in one piece and cut before the reading. -/
theorem run_recordAndApply (audit : AuditEnv) (record : List (PyStr × Json PyChar)) (apply : Bool)
    (env : GateApplyEnv) (owed : Option Grant) (w : World ActiveSets) :
    ((G.recordAndApply audit record apply env).run w).2.db = w.db ∧
      ((G.recordAndApply audit record apply env).run w).2.kernel =
        finish G env.read env.sets w.kernel
          ((recordAndRead G.cfg audit owed apply env.probe).run w.db) := by
  have hdb := frames_auditAppend (fun db (_ : ActiveSets) ↦ db) audit "gate.egress" record w
  have hkernel := frames_auditAppend (fun _ (k : ActiveSets) ↦ k) audit "gate.egress" record w
  have hfst := run_auditAppend_fst audit "gate.egress" record w
  unfold EgressGate.recordAndApply recordAndRead
  rcases Effect.bind_cases (auditAppend audit "gate.egress" record) _ w with
    ⟨e, w', hx, hrun⟩ | ⟨_, w', hx, hrun⟩
  · rw [hx] at hdb hkernel hfst
    rw [hrun, ← hfst]
    exact ⟨hdb, hkernel⟩
  · rw [hx] at hdb hkernel hfst
    rw [hrun, ← hfst]
    cases apply with
    | false => exact ⟨hdb, hkernel⟩
    | true =>
      refine ⟨(frames_db_apply G env w').trans hdb, ?_⟩
      rw [if_pos rfl, run_apply_kernel, show w'.db = w.db from hdb,
        show w'.kernel = w.kernel from hkernel]
      simp only [toReading]
      cases requireBaseline G.cfg env.probe <;> rfl

/-- A call on the store, followed by such an end. -/
theorem run_onStore_recordAndApply {α β : Type} (x : Effect Exc Db α) {f : α → GateM ActiveSets β}
    (owed : α → Option Grant) (audit : AuditEnv) (record : α → List (PyStr × Json PyChar))
    (apply : Bool) (env : GateApplyEnv)
    (hf : ∀ a w, ((f a).run w).2 = ((G.recordAndApply audit (record a) apply env).run w).2)
    (w : World ActiveSets) :
    ((onStore x >>= f).run w).2.db =
        ((x >>= fun a ↦ recordAndRead G.cfg audit (owed a) apply env.probe).run w.db).2 ∧
      ((onStore x >>= f).run w).2.kernel = finish G env.read env.sets w.kernel
        ((x >>= fun a ↦ recordAndRead G.cfg audit (owed a) apply env.probe).run w.db) := by
  rcases hx : x.run w.db with ⟨e | a, db⟩
  · have hstore : (onStore x : GateM ActiveSets α).run w = (.error e, { w with db := db }) := by
      show ((x.run w.db).1, { w with db := (x.run w.db).2 }) = _
      rw [hx]
    rw [Effect.run_bind_of_error hx, Effect.run_bind_of_error hstore]
    exact ⟨rfl, rfl⟩
  · have hstore : (onStore x : GateM ActiveSets α).run w = (.ok a, { w with db := db }) := by
      show ((x.run w.db).1, { w with db := (x.run w.db).2 }) = _
      rw [hx]
    rw [Effect.run_bind_of_ok hx, Effect.run_bind_of_ok hstore, hf]
    obtain ⟨hdb, hkernel⟩ := run_recordAndApply G audit (record a) apply env (owed a)
      { w with db := db }
    exact ⟨hdb.trans (frames_recordAndRead audit (owed a) apply env.probe db).symm, hkernel⟩

/-- An operation, in one piece and cut after its first step. -/
theorem run_perform (call : GateCall) (r : ReadEnv) (l : ApplyEnv) (audit' : AuditEnv)
    (w : World ActiveSets) :
    ((call.perform G r l audit').run w).2.db = ((call.begin G.cfg).run w.db).2 ∧
      ((call.perform G r l audit').run w).2.kernel =
        finish G r l w.kernel ((call.begin G.cfg).run w.db) := by
  cases call with
  | install env audit a apply probe =>
    exact run_onStore_recordAndApply G (Gate.installGrant env a) some audit Grant.record apply
      ⟨probe, r, l, audit'⟩ (fun _ _ ↦ rfl) w
  | prune env audit apply probe =>
    have h := run_onStore_recordAndApply G (pruneExpired env) (fun _ ↦ none) audit
      (fun n ↦ [("action".toList, .str "grant.prune".toList), ("removed".toList, .int n)]) apply
      ⟨probe, r, l, audit'⟩ (fun n w ↦ Effect.run_bind_pure_snd _ (fun _ ↦ n) w) w
    have hrun := Effect.run_bind_pure_snd (G.prune ⟨env, audit, ⟨probe, r, l, audit'⟩⟩ apply)
      (fun _ ↦ ()) w
    exact ⟨(congrArg World.db hrun).trans h.1, (congrArg World.kernel hrun).trans h.2⟩
  | apply probe =>
    refine ⟨(frames_db_apply G _ w).trans (frames_toReading none true probe w.db).symm, ?_⟩
    refine (run_apply_kernel G ⟨probe, r, l, audit'⟩ w).trans ?_
    simp only [GateCall.begin, toReading]
    cases requireBaseline G.cfg probe <;> rfl
  | observe => exact ⟨rfl, rfl⟩

/-- Only what the script does to the kernel matters. -/
theorem applySets_congr {act act' : PyStr → ActiveSets → ActiveSets} {l : ApplyEnv}
    {sets k : ActiveSets}
    (h : ∀ script, applyScript G.py G.cfg sets = .ok script → act script k = act' script k) :
    applySets G.py G.cfg act l sets k = applySets G.py G.cfg act' l sets k := by
  unfold applySets runScript
  cases hscript : applyScript G.py G.cfg sets with
  | error e => rfl
  | ok script => simp only [h script hscript]

/-- **An operation whose steps are not interrupted is the operation of `Egress`**, if the script
loads the sets that were read. -/
theorem alone_after {s : Shared ι} {p : ι} (hidle : s.stage p = none) (call : GateCall)
    (r : ReadEnv) (l : ApplyEnv) (audit' : AuditEnv) (log : List (Str × Json PyChar))
    (hact : ∀ sets script k, computeActiveSets G.py r ((call.begin G.cfg).run s.db).2 = .ok sets →
      applyScript G.py G.cfg sets = .ok script → G.act script k = sets) :
    (processes G.py G.cfg).after s [.start p call, .read p r, .load p l audit'] =
      ⟨((call.perform G r l audit').run ⟨s.db, s.kernel, log⟩).2.db,
        ((call.perform G r l audit').run ⟨s.db, s.kernel, log⟩).2.kernel, s.stage⟩ := by
  obtain ⟨hdb, hkernel⟩ := run_perform G call r l audit' ⟨s.db, s.kernel, log⟩
  rw [hdb, hkernel]
  rcases hbegin : (call.begin G.cfg).run s.db with ⟨e | _ | st, db⟩
  · simp [processes, Shared.step, hidle, hbegin, finish]
  · simp [processes, Shared.step, hidle, hbegin, finish]
  rw [hbegin] at hact
  obtain ⟨owed, rfl⟩ : ∃ owed, st = .reading owed := by
    rcases begin_owes (congrArg Prod.fst hbegin) with rfl | ⟨-, -, -, -, g, -, -, rfl⟩
    · exact ⟨none, rfl⟩
    · exact ⟨some g, rfl⟩
  rcases hsets : computeActiveSets G.py r db with e | sets
  · simp [processes, Shared.step, hidle, hbegin, finish, readAndLoad, hsets]
  · have hload := @loadSets_snd G.py G.cfg l audit' sets s.kernel
    rw [← applySets_congr G fun script hscript ↦ hact sets script s.kernel hsets hscript] at hload
    simp [processes, Shared.step, hidle, hbegin, finish, readAndLoad, hsets, hload]

end Alone

end SourceOS.Gate
