import Mathlib.Algebra.Order.BigOperators.Group.Finset
import SourceOS.Foundation.Simulation
import SourceOS.Gate.Statements
import SourceOS.Gate.StoreRun

/-!
# Interleaved statements as a serial history

`Statements` takes the calls of several processes apart, statement by statement; `Store` takes each
call as one step. This module relates the two: **every interleaving is the serial history of the
calls that committed, in the order of their commits** (`statements_serialisable`). A call is in this
history where it commits, so between its first statement and its answer; a call that raised is not
in it at all.

What carries the proof is the lock. From the first writing statement of a transaction to its commit
nobody else commits, so the copy it works on is the database as it is now with its own statements
done (`Work.Holds`). A count of `prune_expired` is taken before the lock and is no part of this.

Facts about runs of the store are then facts about interleavings: a key is granted at most once
(`granted_at_most_once`). And since the only thing a process can wait for is the lock, and whoever
has the lock can go on, **no interleaving gets stuck** (`calls_can_finish`).
-/

namespace SourceOS.Gate

variable (py : Runtime) {ι : Type}

/-! ### What is known of a connection -/

/-- The transaction of the connection is open. -/
def Work.IsOpen : Work → Prop
  | .deleted .. | .recorded .. | .inserted .. => True
  | .idle | .counted .. => False

/-- What is known of a connection: nothing has failed so far, and an open transaction has the lock
and works on the database as it is, with its statements done. -/
def Work.Holds (db : Db) (lock : Option ι) (p : ι) : Work → Prop
  | .idle => True
  | .counted env _ => env.start = .ok ()
  | .deleted env _ copy => lock = some p ∧ env.start = .ok () ∧ env.delete = none ∧
      copy = db.prune env.cutoff
  | .recorded env a copy => lock = some p ∧ env.start a = .ok () ∧ recordReplay env a db = .ok copy
  | .inserted env a copy => lock = some p ∧ env.start a = .ok () ∧
      ∃ mid, recordReplay env a db = .ok mid ∧ insertGrant env a mid = .ok copy

/-- This is known of every connection, and the lock is that of an open transaction. -/
structure Orderly (s : Sessions ι) : Prop where
  holds : ∀ p, (s.work p).Holds s.db s.lock p
  isOpen : ∀ p, s.lock = some p → (s.work p).IsOpen

theorem orderly_init (db : Db) : Orderly (Sessions.init ι db) :=
  ⟨fun _ ↦ trivial, fun _ h ↦ nomatch h⟩

/-- The lock of a transaction keeps the database as it is. -/
theorem Work.Holds.transfer {work : Work} {db db' : Db} {lock lock' : Option ι} {p : ι}
    (h : work.Holds db lock p) (hlock : lock = some p → lock' = some p ∧ db' = db) :
    work.Holds db' lock' p := by
  cases work with
  | idle | counted => exact h
  | deleted | recorded | inserted =>
    obtain ⟨hheld, hmore⟩ := h
    obtain ⟨hheld', rfl⟩ := hlock hheld
    exact ⟨hheld', hmore⟩

section Step

variable [DecidableEq ι] {s : Sessions ι}

/-- One process comes to stand elsewhere. -/
theorem orderly_put (h : Orderly s) {p : ι} {work : Work} {lock : Option ι} {db : Db}
    (hwork : work.Holds db lock p) (hself : lock = some p → work.IsOpen)
    (hlock : ∀ q ≠ p, (s.lock = some q → lock = some q ∧ db = s.db) ∧
      (lock = some q → s.lock = some q)) :
    Orderly (s.put p work lock db) := by
  have hother : ∀ q ≠ p, (s.put p work lock db).work q = s.work q := fun q hq ↦
    Function.update_of_ne hq ..
  constructor
  · intro q
    rcases eq_or_ne q p with rfl | hq
    · rw [put_work]
      exact hwork
    · rw [hother q hq]
      exact (h.holds q).transfer (hlock q hq).1
  · intro q hheld
    rcases eq_or_ne q p with rfl | hq
    · rw [put_work]
      exact hself hheld
    · rw [hother q hq]
      exact h.isOpen q ((hlock q hq).2 hheld)

/-- The process takes the lock. -/
theorem orderly_take (h : Orderly s) {p : ι} {work : Work} (hfree : s.lock = none)
    (hwork : work.Holds s.db (some p) p) (hopen : work.IsOpen) :
    Orderly (s.put p work (some p) s.db) := by
  refine orderly_put h hwork (fun _ ↦ hopen) fun q hq ↦ ⟨fun hheld ↦ ?_, fun hheld ↦ ?_⟩
  · rw [hfree] at hheld
    cases hheld
  · exact absurd (Option.some.inj hheld).symm hq

/-- The process gives the lock back, with the database as it leaves it. -/
theorem orderly_release (h : Orderly s) {p : ι} (hheld : s.lock = some p) (db : Db) :
    Orderly (s.put p .idle none db) := by
  refine orderly_put h trivial (fun hno ↦ nomatch hno) fun q hq ↦ ⟨fun hheld' ↦ ?_, fun hno ↦
    nomatch hno⟩
  exact absurd (Option.some.inj (hheld'.symm.trans hheld)) hq

/-- The process goes on without the lock. -/
theorem orderly_aside (h : Orderly s) {p : ι} {work : Work} (hwork : work.Holds s.db s.lock p)
    (hclosed : ¬ (s.work p).IsOpen) : Orderly (s.put p work s.lock s.db) :=
  orderly_put h hwork (fun hheld ↦ absurd (h.isOpen p hheld) hclosed) fun _ _ ↦
    ⟨fun hheld ↦ ⟨hheld, rfl⟩, fun hheld ↦ hheld⟩

/-- The process goes on with its transaction. -/
theorem orderly_within (h : Orderly s) {p : ι} {work : Work} (hwork : work.Holds s.db s.lock p)
    (hopen : work.IsOpen) : Orderly (s.put p work s.lock s.db) :=
  orderly_put h hwork (fun _ ↦ hopen) fun _ _ ↦ ⟨fun hheld ↦ ⟨hheld, rfl⟩, fun hheld ↦ hheld⟩

/-! ### The calls that commit -/

/-- The call that a statement commits. -/
def Sessions.committing (s : Sessions ι) : Statement ι → List StoreCall
  | .next p =>
    match s.work p with
    | .deleted env _ _ => if env.commit = none then [.prune env] else []
    | .inserted env a _ => if env.commit = none then [.install env a] else []
    | _ => []
  | _ => []

/-- The grant that a call returned, if it did. -/
def Reply.grant? : Reply → Option Grant
  | .granted g => some g
  | _ => none

@[inherit_doc Reply.grant?]
def StoreAnswer.grant? : StoreAnswer → Option Grant
  | .installed (.ok g) => some g
  | _ => none

/-- A commit goes through or changes nothing. -/
theorem commit_cases (p : ι) (copy : Db) (commit : Fault) (reply : Reply) :
    commit = none ∧ s.commit p copy commit reply = (s.put p .idle none copy, reply) ∨
      commit ≠ none ∧ ∃ e, s.commit p copy commit reply = (s.put p .idle none s.db, .raised e) := by
  rcases commit with _ | e
  · exact Or.inl ⟨rfl, rfl⟩
  · exact Or.inr ⟨by simp, _, rfl⟩

/-- A `prune_expired` of which nothing fails is one step of the store. -/
theorem pruneExpired_of_start {env : ReadEnv} (hstart : env.start = .ok ())
    (hdelete : env.delete = none) (hcommit : env.commit = none) (db : Db) :
    pruneExpired env db = (.ok (db.expired env.cutoff), db.prune env.cutoff) := by
  rw [pruneExpired_eq, hstart, hdelete, hcommit]
  rfl

/-- An `install_grant` whose statements have all gone through is one step of the store. -/
theorem installGrant_of_start {env : InstallEnv} {a : GrantArgs} {db mid copy : Db}
    (hstart : env.start a = .ok ()) (hrecord : recordReplay env a db = .ok mid)
    (hinsert : insertGrant env a mid = .ok copy) (hcommit : env.commit = none) :
    installGrant env a db = (.ok (a.grant env), copy) := by
  simp only [installGrant_eq, hstart, hrecord, hinsert, hcommit, Fault.check_none]

/-- What a statement makes of a connection and of the database: it stays in order, and what it does
to the database is what the call it commits does. -/
structure Follows (s : Sessions ι) (st : Statement ι) : Prop where
  orderly : Orderly (s.step st).1
  db : (s.step st).1.db = (store py).after s.db (s.committing st)
  answer : (s.step st).2.grant?.toList =
    ((store py).trace s.db (s.committing st)).filterMap fun x ↦ x.2.grant?

variable {py}

/-- A statement that commits nothing, and answers with no grant. -/
theorem follows_quiet {st : Statement ι} (horderly : Orderly (s.step st).1)
    (hdb : (s.step st).1.db = s.db) (hanswer : (s.step st).2.grant? = none)
    (hnone : s.committing st = []) : Follows py s st where
  orderly := horderly
  db := by rw [hnone, hdb, Machine.after_nil]
  answer := by rw [hnone, hanswer]; rfl

theorem follows_prune (h : Orderly s) (p : ι) (env : ReadEnv) : Follows py s (.prune p env) := by
  rcases hwork : s.work p with _ | ⟨env', n⟩ | ⟨env', n, copy⟩ | ⟨env', a, copy⟩ | ⟨env', a, copy⟩
  · rcases hstart : env.start with e | _
    · have hstep : s.step (.prune p env) = (s, .raised e) := by simp [Sessions.step, hwork, hstart]
      exact follows_quiet (by rwa [hstep]) (by rw [hstep]) (by rw [hstep]; rfl) rfl
    · have hstep : s.step (.prune p env) =
          (s.put p (.counted env (s.db.expired env.cutoff)) s.lock s.db, .pending) := by
        simp [Sessions.step, hwork, hstart]
      refine follows_quiet ?_ (by rw [hstep]; rfl) (by rw [hstep]; rfl) rfl
      rw [hstep]
      exact orderly_aside h hstart (by simp [hwork, Work.IsOpen])
  all_goals
    have hstep : s.step (.prune p env) = (s, .impossible) := by simp [Sessions.step, hwork]
    exact follows_quiet (by rwa [hstep]) (by rw [hstep]) (by rw [hstep]; rfl) rfl

theorem follows_install (h : Orderly s) (p : ι) (env : InstallEnv) (a : GrantArgs) :
    Follows py s (.install p env a) := by
  rcases hwork : s.work p with _ | ⟨env', n⟩ | ⟨env', n, copy⟩ | ⟨env', b, copy⟩ | ⟨env', b, copy⟩
  · rcases hstart : env.start a with e | _
    · have hstep : s.step (.install p env a) = (s, .raised e) := by
        simp [Sessions.step, hwork, hstart]
      exact follows_quiet (by rwa [hstep]) (by rw [hstep]) (by rw [hstep]; rfl) rfl
    rcases hlock : s.lock with _ | q
    · rcases hrecord : recordReplay env a s.db with e | copy
      · have hstep : s.step (.install p env a) = (s, .raised e) := by
          simp [Sessions.step, hwork, hstart, hlock, hrecord]
        exact follows_quiet (by rwa [hstep]) (by rw [hstep]) (by rw [hstep]; rfl) rfl
      · have hstep : s.step (.install p env a) =
            (s.put p (.recorded env a copy) (some p) s.db, .pending) := by
          simp [Sessions.step, hwork, hstart, hlock, hrecord]
        refine follows_quiet ?_ (by rw [hstep]; rfl) (by rw [hstep]; rfl) rfl
        rw [hstep]
        exact orderly_take h hlock ⟨rfl, hstart, hrecord⟩ trivial
    · have hstep : s.step (.install p env a) = (s, .impossible) := by
        simp [Sessions.step, hwork, hstart, hlock]
      exact follows_quiet (by rwa [hstep]) (by rw [hstep]) (by rw [hstep]; rfl) rfl
  all_goals
    have hstep : s.step (.install p env a) = (s, .impossible) := by simp [Sessions.step, hwork]
    exact follows_quiet (by rwa [hstep]) (by rw [hstep]) (by rw [hstep]; rfl) rfl

/-- The `DELETE` of `prune_expired`. -/
theorem follows_delete (h : Orderly s) {p : ι} {env : ReadEnv} {n : ℕ}
    (hwork : s.work p = .counted env n) : Follows py s (.next p) := by
  have hnone : s.committing (.next p) = [] := by simp [Sessions.committing, hwork]
  have hstart : env.start = .ok () := by
    have := h.holds p
    rwa [hwork] at this
  have hclosed : ¬ (s.work p).IsOpen := by simp [hwork, Work.IsOpen]
  rcases hdelete : env.delete with _ | e
  · rcases hlock : s.lock with _ | q
    · have hstep : s.step (.next p) =
          (s.put p (.deleted env n (s.db.prune env.cutoff)) (some p) s.db, .pending) := by
        simp [Sessions.step, hwork, hdelete, hlock]
      refine follows_quiet ?_ (by rw [hstep]; rfl) (by rw [hstep]; rfl) hnone
      rw [hstep]
      exact orderly_take h hlock ⟨rfl, hstart, hdelete, rfl⟩ trivial
    · have hstep : s.step (.next p) = (s, .impossible) := by
        simp [Sessions.step, hwork, hdelete, hlock]
      exact follows_quiet (by rwa [hstep]) (by rw [hstep]) (by rw [hstep]; rfl) hnone
  · have hstep : s.step (.next p) = (s.put p .idle s.lock s.db, .raised (.builtin e)) := by
      simp [Sessions.step, hwork, hdelete, Fault.check]
    refine follows_quiet ?_ (by rw [hstep]; rfl) (by rw [hstep]; rfl) hnone
    rw [hstep]
    exact orderly_aside h trivial hclosed

/-- The second `INSERT` of `install_grant`. -/
theorem follows_insert (h : Orderly s) {p : ι} {env : InstallEnv} {a : GrantArgs} {copy : Db}
    (hwork : s.work p = .recorded env a copy) : Follows py s (.next p) := by
  have hnone : s.committing (.next p) = [] := by simp [Sessions.committing, hwork]
  obtain ⟨hheld, hstart, hrecord⟩ : s.lock = some p ∧ env.start a = .ok () ∧
      recordReplay env a s.db = .ok copy := by
    have := h.holds p
    rwa [hwork] at this
  rcases hinsert : insertGrant env a copy with e | copy'
  · have hstep : s.step (.next p) = (s.put p .idle none s.db, .raised e) := by
      simp [Sessions.step, hwork, hinsert]
    refine follows_quiet ?_ (by rw [hstep]; rfl) (by rw [hstep]; rfl) hnone
    rw [hstep]
    exact orderly_release h hheld s.db
  · have hstep : s.step (.next p) = (s.put p (.inserted env a copy') s.lock s.db, .pending) := by
      simp [Sessions.step, hwork, hinsert]
    refine follows_quiet ?_ (by rw [hstep]; rfl) (by rw [hstep]; rfl) hnone
    rw [hstep]
    exact orderly_within h ⟨hheld, hstart, copy, hrecord, hinsert⟩ trivial

/-- The commit of `prune_expired`. -/
theorem follows_commit_prune (h : Orderly s) {p : ι} {env : ReadEnv} {n : ℕ} {copy : Db}
    (hwork : s.work p = .deleted env n copy) : Follows py s (.next p) := by
  obtain ⟨hheld, hstart, hdelete, rfl⟩ : s.lock = some p ∧ env.start = .ok () ∧
      env.delete = none ∧ copy = s.db.prune env.cutoff := by
    have := h.holds p
    rwa [hwork] at this
  have hstep : s.step (.next p) = s.commit p (s.db.prune env.cutoff) env.commit (.pruned n) := by
    rw [Sessions.step, hwork]
  rcases commit_cases p (s.db.prune env.cutoff) env.commit (.pruned n) with
    ⟨hcommit, hdone⟩ | ⟨hcommit, e, hdone⟩
  · have hcall : s.committing (.next p) = [.prune env] := by
      simp [Sessions.committing, hwork, hcommit]
    have hstore := pruneExpired_of_start hstart hdelete hcommit s.db
    constructor
    · rw [hstep, hdone]
      exact orderly_release h hheld _
    · rw [hstep, hdone, hcall]
      simp [store, hstore]
    · rw [hstep, hdone, hcall]
      simp [store, Reply.grant?, StoreAnswer.grant?]
  · have hnone : s.committing (.next p) = [] := by simp [Sessions.committing, hwork, hcommit]
    refine follows_quiet ?_ ?_ ?_ hnone
    · rw [hstep, hdone]
      exact orderly_release h hheld s.db
    · rw [hstep, hdone]
      rfl
    · rw [hstep, hdone]
      rfl

/-- The commit of `install_grant`. -/
theorem follows_commit_install (h : Orderly s) {p : ι} {env : InstallEnv} {a : GrantArgs}
    {copy : Db} (hwork : s.work p = .inserted env a copy) : Follows py s (.next p) := by
  obtain ⟨hheld, hstart, mid, hrecord, hinsert⟩ : s.lock = some p ∧ env.start a = .ok () ∧
      ∃ mid, recordReplay env a s.db = .ok mid ∧ insertGrant env a mid = .ok copy := by
    have := h.holds p
    rwa [hwork] at this
  have hstep : s.step (.next p) = s.commit p copy env.commit (.granted (a.grant env)) := by
    rw [Sessions.step, hwork]
  rcases commit_cases p copy env.commit (.granted (a.grant env)) with
    ⟨hcommit, hdone⟩ | ⟨hcommit, e, hdone⟩
  · have hcall : s.committing (.next p) = [.install env a] := by
      simp [Sessions.committing, hwork, hcommit]
    have hstore := installGrant_of_start hstart hrecord hinsert hcommit
    constructor
    · rw [hstep, hdone]
      exact orderly_release h hheld _
    · rw [hstep, hdone, hcall]
      simp [store, hstore]
    · rw [hstep, hdone, hcall]
      simp [store, hstore, Reply.grant?, StoreAnswer.grant?]
  · have hnone : s.committing (.next p) = [] := by simp [Sessions.committing, hwork, hcommit]
    refine follows_quiet ?_ ?_ ?_ hnone
    · rw [hstep, hdone]
      exact orderly_release h hheld s.db
    · rw [hstep, hdone]
      rfl
    · rw [hstep, hdone]
      rfl

/-- **What a statement does**, whichever it is. -/
theorem follows_step (h : Orderly s) (st : Statement ι) : Follows py s st := by
  cases st with
  | prune p env => exact follows_prune h p env
  | install p env a => exact follows_install h p env a
  | next p =>
    rcases hwork : s.work p with _ | ⟨env, n⟩ | ⟨env, n, copy⟩ | ⟨env, a, copy⟩ | ⟨env, a, copy⟩
    · have hstep : s.step (.next p) = (s, .impossible) := by simp [Sessions.step, hwork]
      exact follows_quiet (by rwa [hstep]) (by rw [hstep]) (by rw [hstep]; rfl)
        (by simp [Sessions.committing, hwork])
    · exact follows_delete h hwork
    · exact follows_commit_prune h hwork
    · exact follows_insert h hwork
    · exact follows_commit_install h hwork

end Step

/-! ### Serial histories -/

section Serial

variable [DecidableEq ι]

/-- **The connections, seen as the store**: a statement stands for the call it commits. -/
def serial (ι : Type) [DecidableEq ι] : (sessions ι).Refinement (store py) where
  Inv := Orderly
  abs := Sessions.db
  emit := Sessions.committing
  inv_step _ st h := (@follows_step py ι _ _ h st).orderly
  abs_step _ st h := (follows_step h st).db

/-- The calls that commit in a run, in the order of their commits. -/
def history (db : Db) (run : List (Statement ι)) : List StoreCall :=
  (serial py ι).emitted (.init ι db) run

/-- The calls of `install_grant` that return are answered as in the history. -/
theorem filterMap_grant?_trace (db : Db) (run : List (Statement ι)) :
    ((sessions ι).trace (.init ι db) run).filterMap (fun x ↦ x.2.grant?) =
      ((store py).trace db (history py db run)).filterMap fun x ↦ x.2.grant? :=
  (serial py ι).filterMap_trace (fun _ st h ↦ (follows_step h st).answer) (orderly_init db) run

/-- **Interleavings are serial.** In every run of the statements of any number of processes, the
database is what the calls that committed make of it, one after another in the order of their
commits, and each call of `install_grant` that returns is answered as it is answered there. -/
theorem statements_serialisable (db : Db) (run : List (Statement ι)) :
    ((sessions ι).after (.init ι db) run).db = (store py).after db (history py db run) ∧
      ((sessions ι).trace (.init ι db) run).filterMap (fun x ↦ x.2.grant?) =
        ((store py).trace db (history py db run)).filterMap fun x ↦ x.2.grant? :=
  ⟨(serial py ι).abs_after (orderly_init db) run, filterMap_grant?_trace py db run⟩

/-- A call of the store that grants a key finds it unrecorded and leaves it recorded. -/
theorem fresh_of_grant {db : Db} {c : StoreCall} {g : Grant}
    (h : ((store py).step db c).2.grant? = some g) :
    g.key ∉ db.replay.map ReplayRow.key ∧
      g.key ∈ ((store py).step db c).1.replay.map ReplayRow.key := by
  rcases store_step_cases py db c with ⟨env, a, rfl, hstep, -, hfresh, -⟩ | ⟨env, rfl, hstep⟩ |
    ⟨-, hwrote⟩
  · rw [hstep] at h ⊢
    obtain rfl := Option.some.inj h
    exact ⟨hfresh, by simp [Db.accept, ReplayRow.key, Grant.key, GrantArgs.grant]⟩
  · rw [hstep] at h
    exact absurd h (by simp [StoreAnswer.grant?])
  · rcases hans : ((store py).step db c).2 with (e | g') | r | r <;> rw [hans] at h hwrote
    · exact absurd h (by simp [StoreAnswer.grant?])
    · exact absurd hwrote (by simp [StoreAnswer.wrote])
    · exact absurd h (by simp [StoreAnswer.grant?])
    · exact absurd h (by simp [StoreAnswer.grant?])

/-- **At most once, statement by statement.** In no interleaving do two calls of `install_grant`
return for one key, whichever processes make them and whatever is pruned in between. -/
theorem granted_at_most_once (db : Db) (run : List (Statement ι)) (k : PyStr × PyStr) :
    (((sessions ι).trace (.init ι db) run).filterMap fun x ↦ x.2.grant?).countP
      (fun g ↦ g.key = k) ≤ 1 := by
  -- the same is counted in the serial history
  rw [filterMap_grant?_trace Runtime.ascii db run, List.countP_filterMap]
  refine le_trans (le_of_eq (List.countP_congr fun x _ ↦ ?_))
    (@Machine.countP_trace_le_one _ _ _ _ (fun db : Db ↦ k ∈ db.replay.map ReplayRow.key)
      (fun x : StoreCall × StoreAnswer ↦ x.2.grant?.any fun g ↦ g.key = k)
      (fun db c h ↦ ((replay_prefix_step Runtime.ascii db c).map _).subset h) ?_ ?_ db _)
  · rcases x.2.grant? with _ | g <;> simp
  · intro db c hfires
    obtain ⟨g, hg, hkey⟩ := (Option.any_eq_true _ _).1 hfires
    exact of_decide_eq_true hkey ▸ (fresh_of_grant Runtime.ascii hg).1
  · intro db c hfires
    obtain ⟨g, hg, hkey⟩ := (Option.any_eq_true _ _).1 hfires
    exact of_decide_eq_true hkey ▸ (fresh_of_grant Runtime.ascii hg).2

end Serial

/-! ### Nobody waits for ever -/

/-- How many statements a call has still to make. -/
def Work.remaining : Work → ℕ
  | .idle => 0
  | .counted .. | .recorded .. => 2
  | .deleted .. | .inserted .. => 1

section Progress

variable [DecidableEq ι] {s : Sessions ι}

/-- A process that comes to stand elsewhere is nearer to the end of its call. -/
structure Advances (s : Sessions ι) (p : ι) : Prop where
  possible : (s.step (.next p)).2 ≠ .impossible
  nearer : ((s.step (.next p)).1.work p).remaining < (s.work p).remaining
  others : ∀ q ≠ p, (s.step (.next p)).1.work q = s.work q

theorem advances_of_put {p : ι} {work : Work} {lock : Option ι} {db : Db} {reply : Reply}
    (hstep : s.step (.next p) = (s.put p work lock db, reply)) (hreply : reply ≠ .impossible)
    (hnearer : work.remaining < (s.work p).remaining) : Advances s p where
  possible := by rwa [hstep]
  nearer := by rwa [hstep, put_work]
  others q hq := by
    rw [hstep]
    exact Function.update_of_ne hq ..

/-- **Only the lock is waited for.** A process with a call to finish can go on if nobody else's
transaction is open. -/
theorem advances_of_free {p : ι} (hbusy : s.work p ≠ .idle)
    (hlock : (s.work p).IsOpen ∨ s.lock = none) : Advances s p := by
  rcases hwork : s.work p with _ | ⟨env, n⟩ | ⟨env, n, copy⟩ | ⟨env, a, copy⟩ | ⟨env, a, copy⟩
  · exact absurd hwork hbusy
  · have hfree : s.lock = none := hlock.resolve_left (by simp [hwork, Work.IsOpen])
    rcases hdelete : env.delete.check with e | _
    · exact @advances_of_put _ _ s p .idle s.lock s.db (.raised e)
        (by simp [Sessions.step, hwork, hdelete]) (by simp) (by simp [hwork, Work.remaining])
    · exact @advances_of_put _ _ s p (.deleted env n (s.db.prune env.cutoff)) (some p) s.db
        .pending (by simp [Sessions.step, hwork, hdelete, hfree]) (by simp)
        (by simp [hwork, Work.remaining])
  · have hstep : s.step (.next p) = s.commit p copy env.commit (.pruned n) := by
      rw [Sessions.step, hwork]
    rcases commit_cases p copy env.commit (.pruned n) with ⟨-, hdone⟩ | ⟨-, e, hdone⟩
    · exact advances_of_put (hstep.trans hdone) (by simp) (by simp [hwork, Work.remaining])
    · exact advances_of_put (hstep.trans hdone) (by simp) (by simp [hwork, Work.remaining])
  · rcases hinsert : insertGrant env a copy with e | copy'
    · exact @advances_of_put _ _ s p .idle none s.db (.raised e)
        (by simp [Sessions.step, hwork, hinsert]) (by simp) (by simp [hwork, Work.remaining])
    · exact @advances_of_put _ _ s p (.inserted env a copy') s.lock s.db .pending
        (by simp [Sessions.step, hwork, hinsert]) (by simp)
        (by simp [hwork, Work.remaining])
  · have hstep : s.step (.next p) = s.commit p copy env.commit (.granted (a.grant env)) := by
      rw [Sessions.step, hwork]
    rcases commit_cases p copy env.commit (.granted (a.grant env)) with ⟨-, hdone⟩ | ⟨-, e, hdone⟩
    · exact advances_of_put (hstep.trans hdone) (by simp) (by simp [hwork, Work.remaining])
    · exact advances_of_put (hstep.trans hdone) (by simp) (by simp [hwork, Work.remaining])

/-- Somebody can go on as long as a call is in progress: whoever has the lock, or else anybody. -/
theorem exists_advances (h : Orderly s) {p : ι} (hbusy : s.work p ≠ .idle) :
    ∃ q, s.work q ≠ .idle ∧ Advances s q := by
  rcases hlock : s.lock with _ | q
  · exact ⟨p, hbusy, advances_of_free hbusy (Or.inr hlock)⟩
  · have hopen := h.isOpen q hlock
    have hbusy' : s.work q ≠ .idle := fun hidle ↦ by simp [hidle, Work.IsOpen] at hopen
    exact ⟨q, hbusy', advances_of_free hbusy' (Or.inl hopen)⟩

/-- Calls in progress can be brought to their ends, one statement after the other. -/
theorem exists_finish (procs : Finset ι) : ∀ (n : ℕ) (s : Sessions ι), Orderly s →
    (∀ p ∉ procs, s.work p = .idle) → (∑ p ∈ procs, (s.work p).remaining) = n →
    ∃ turns : List ι, turns.length ≤ n ∧
      (∀ x ∈ (sessions ι).trace s (turns.map .next), x.2 ≠ .impossible) ∧
      ∀ p, ((sessions ι).after s (turns.map .next)).work p = .idle := by
  intro n
  induction n using Nat.strong_induction_on with
  | _ n ih =>
    intro s h hout hsum
    by_cases hall : ∀ p, s.work p = .idle
    · exact ⟨[], Nat.zero_le _, by simp, hall⟩
    · obtain ⟨p, hp⟩ := not_forall.1 hall
      obtain ⟨q, hq, hadv⟩ := exists_advances h hp
      have hmem : q ∈ procs := by
        by_contra hno
        exact hq (hout q hno)
      -- the sum goes down by what `q` has come nearer
      have hless : (∑ p ∈ procs, ((s.step (.next q)).1.work p).remaining) < n := by
        rw [← hsum]
        refine Finset.sum_lt_sum (fun r _ ↦ ?_) ⟨q, hmem, hadv.nearer⟩
        rcases eq_or_ne r q with rfl | hr
        · exact hadv.nearer.le
        · rw [hadv.others r hr]
      have hout' : ∀ p ∉ procs, (s.step (.next q)).1.work p = .idle := fun r hr ↦ by
        rw [hadv.others r fun heq ↦ hr (heq ▸ hmem)]
        exact hout r hr
      obtain ⟨turns, hlen, hposs, hidle⟩ := ih _ hless (s.step (.next q)).1
        (@follows_step Runtime.ascii ι _ _ h _).orderly hout' rfl
      refine ⟨q :: turns, by simp only [List.length_cons]; omega, ?_, hidle⟩
      intro x hx
      rcases List.mem_cons.1 hx with rfl | hx
      · exact hadv.possible
      · exact hposs x hx

/-- The process that a statement is of. -/
def Statement.process : Statement ι → ι
  | .prune p _ | .install p _ _ | .next p => p

/-- A process that has made no statement has no call in progress. -/
theorem work_of_notMem {db : Db} {run : List (Statement ι)} {p : ι}
    (h : p ∉ run.map Statement.process) : ((sessions ι).after (.init ι db) run).work p = .idle := by
  refine Machine.inv_after_of_mem (I := fun s : Sessions ι ↦ s.work p = .idle) rfl
    fun s st hst hidle ↦ ?_
  have hne : p ≠ st.process := fun heq ↦ h (heq ▸ List.mem_map_of_mem hst)
  have hput : ∀ work lock db, (s.put st.process work lock db).work p = .idle := fun work lock db ↦
    (Function.update_of_ne hne ..).trans hidle
  show (s.step st).1.work p = .idle
  cases st with
  | prune q env =>
    rw [Sessions.step]
    split
    · split
      · exact hidle
      · exact hput ..
    · exact hidle
  | install q env a =>
    rw [Sessions.step]
    split
    · split
      · exact hidle
      · exact hidle
      · split
        · exact hidle
        · exact hput ..
    · exact hidle
  | next q =>
    rw [Sessions.step]
    split
    · exact hidle
    · split
      · exact hput ..
      · exact hidle
      · exact hput ..
    · rename_i env n copy hwork
      rcases commit_cases q copy env.commit (.pruned n) with ⟨-, hdone⟩ | ⟨-, e, hdone⟩
      · rw [hdone]
        exact hput ..
      · rw [hdone]
        exact hput ..
    · split
      · exact hput ..
      · exact hput ..
    · rename_i env a copy hwork
      rcases commit_cases q copy env.commit (.granted (a.grant env)) with ⟨-, hdone⟩ | ⟨-, e, hdone⟩
      · rw [hdone]
        exact hput ..
      · rw [hdone]
        exact hput ..

/-- **No interleaving gets stuck.** After any run, whoever has the lock can make its next statement,
and if nobody has it, then so can everybody with a call in progress; and two statements for each
process, at the most, bring every call to its end. -/
theorem calls_can_finish (db : Db) (run : List (Statement ι)) :
    let s := (sessions ι).after (.init ι db) run
    (∀ p, s.work p ≠ .idle → s.lock = some p ∨ s.lock = none →
      (s.step (.next p)).2 ≠ .impossible) ∧
    ∃ turns : List ι, turns.length ≤ 2 * (run.map Statement.process).toFinset.card ∧
      (∀ x ∈ (sessions ι).trace s (turns.map .next), x.2 ≠ .impossible) ∧
      ∀ p, ((sessions ι).after s (turns.map .next)).work p = .idle := by
  intro s
  have h : Orderly s := (serial Runtime.ascii ι).inv_after (orderly_init db) run
  constructor
  · intro p hbusy hlock
    exact (advances_of_free hbusy (hlock.imp_left (h.isOpen p))).possible
  · obtain ⟨turns, hlen, hposs, hidle⟩ := exists_finish (run.map Statement.process).toFinset _ s h
      (fun p hp ↦ work_of_notMem fun hmem ↦ hp (List.mem_toFinset.2 hmem)) rfl
    refine ⟨turns, hlen.trans ?_, hposs, hidle⟩
    rw [mul_comm, ← Nat.nsmul_eq_mul]
    refine Finset.sum_le_card_nsmul _ _ 2 fun p _ ↦ ?_
    cases s.work p <;> simp [Work.remaining]

end Progress

end SourceOS.Gate
