import Mathlib.Data.Fintype.Defs
import Mathlib.Logic.Function.Basic
import SourceOS.Gate.Store

/-!
# The statements of several connections

`install_grant` and `prune_expired`, statement by statement, by several processes on one store. The
database driver opens a transaction before the first `INSERT` or `DELETE` of a connection and not
before a `SELECT`. A transaction works on a copy; while it is open it has the write lock, and the
first writing statement of another connection waits, or raises as any statement may. A `SELECT` sees
what was committed last.

So the two statements of `prune_expired` are not one transaction: it returns what it counted, and
deletes what has expired when it comes to deleting. **The counts add up to the rows deleted** if no
commit changes, between the two, how many rows have expired at its cutoff
(`prune_counts_add_up`); two prunes at once may both count the rows that one of them deletes
(`prune_counted_twice`).

* `keeps_step` says what each statement keeps, and books what it deletes.
* `prune_alone` and `install_alone` connect the statements to the store: a call whose statements are
  not interrupted is the call of `Store`.
-/

namespace SourceOS.Gate

/-! ### Statements -/

/-- How many grants have expired at a cutoff. -/
def Db.expired (db : Db) (cutoff : ℤ) : ℕ :=
  db.grants.countP fun r ↦ r.exp ≤ cutoff

/-- Where a connection stands, with the copy that its transaction works on. -/
inductive Work
  /-- It has no call to finish. -/
  | idle
  /-- In `prune_expired`, after the `SELECT`. -/
  | counted (env : ReadEnv) (toDelete : ℕ)
  /-- In `prune_expired`, after the `DELETE`. -/
  | deleted (env : ReadEnv) (toDelete : ℕ) (copy : Db)
  /-- In `install_grant`, after the first `INSERT`. -/
  | recorded (env : InstallEnv) (a : GrantArgs) (copy : Db)
  /-- In `install_grant`, after the second `INSERT`. -/
  | inserted (env : InstallEnv) (a : GrantArgs) (copy : Db)

/-- The store, and the connections of the processes in `ι`. -/
structure Sessions (ι : Type) where
  /-- What was committed last. -/
  db : Db
  /-- The process whose transaction is open. -/
  lock : Option ι
  work : ι → Work

/-- One statement of a process. -/
inductive Statement (ι : Type)
  /-- A call of `prune_expired`, up to its `SELECT`. -/
  | prune (p : ι) (env : ReadEnv)
  /-- A call of `install_grant`, up to its first `INSERT`. -/
  | install (p : ι) (env : InstallEnv) (a : GrantArgs)
  /-- The next statement of the call, or its commit. -/
  | next (p : ι)

/-- What a statement comes to. -/
inductive Reply
  /-- The call goes on. -/
  | pending
  /-- `prune_expired` returned. -/
  | pruned (removed : ℕ)
  /-- `install_grant` returned. -/
  | granted (g : Grant)
  /-- The call raised. -/
  | raised (e : Exc)
  /-- The process is not there, or waits for the lock: nothing happens. -/
  | impossible

/-- The number that `prune_expired` returned, if it did. -/
def Reply.removed : Reply → ℕ
  | .pruned n => n
  | _ => 0

/-- How a call ended, if it did. -/
def Reply.answer : Reply → Option (Except Exc (ℕ ⊕ Grant))
  | .pruned n => some (.ok (.inl n))
  | .granted g => some (.ok (.inr g))
  | .raised e => some (.error e)
  | .pending | .impossible => none

section Machine

variable {ι : Type} [DecidableEq ι]

/-- The process comes to stand elsewhere. -/
def Sessions.put (s : Sessions ι) (p : ι) (work : Work) (lock : Option ι) (db : Db) : Sessions ι :=
  ⟨db, lock, Function.update s.work p work⟩

/-- The end of `with self.connect() as conn:`, where the call would return. -/
def Sessions.commit (s : Sessions ι) (p : ι) (copy : Db) (commit : Fault) (reply : Reply) :
    Sessions ι × Reply :=
  match commit.check with
  | .error e => (s.put p .idle none s.db, .raised e)
  | .ok () => (s.put p .idle none copy, reply)

/-- What may raise in `prune_expired` up to its `SELECT`. -/
def ReadEnv.start (env : ReadEnv) : Except Exc Unit := do
  env.init.check
  env.connect.check
  env.select.check

/-- What may raise in `install_grant` up to its first `INSERT`, while this may wait. -/
def InstallEnv.start (env : InstallEnv) (a : GrantArgs) : Except Exc Unit := do
  if a.exp ≤ env.now then .error (.expired "grant expired".toList)
  else
    env.convert.check
    env.init.check
    env.connect.check
    env.insertReplay.check

/-- One statement. -/
def Sessions.step (s : Sessions ι) : Statement ι → Sessions ι × Reply
  | .prune p env =>
    match s.work p with
    | .idle =>
      match env.start with
      | .error e => (s, .raised e)
      | .ok () => (s.put p (.counted env (s.db.expired env.cutoff)) s.lock s.db, .pending)
    | _ => (s, .impossible)
  | .install p env a =>
    match s.work p with
    | .idle =>
      match env.start a, s.lock with
      | .error e, _ => (s, .raised e)
      | .ok (), some _ => (s, .impossible)
      | .ok (), none =>
        match recordReplay env a s.db with
        | .error e => (s, .raised e)
        | .ok copy => (s.put p (.recorded env a copy) (some p) s.db, .pending)
    | _ => (s, .impossible)
  | .next p =>
    match s.work p with
    | .idle => (s, .impossible)
    | .counted env toDelete =>
      match env.delete.check, s.lock with
      | .error e, _ => (s.put p .idle s.lock s.db, .raised e)
      | .ok (), some _ => (s, .impossible)
      | .ok (), none =>
        (s.put p (.deleted env toDelete (s.db.prune env.cutoff)) (some p) s.db, .pending)
    | .deleted env toDelete copy => s.commit p copy env.commit (.pruned toDelete)
    | .recorded env a copy =>
      match insertGrant env a copy with
      | .error e => (s.put p .idle none s.db, .raised e)
      | .ok copy => (s.put p (.inserted env a copy) s.lock s.db, .pending)
    | .inserted env a copy => s.commit p copy env.commit (.granted (a.grant env))

variable (ι) in
/-- The connections, taking turns. -/
def sessions : Machine (Sessions ι) (Statement ι) Reply := ⟨Sessions.step⟩

variable (ι) in
/-- A store that nobody works on. -/
def Sessions.init (db : Db) : Sessions ι := ⟨db, none, fun _ ↦ .idle⟩

/-- The grants that were there before and are not there any more. -/
def rowsDeleted (s s' : Sessions ι) : ℕ :=
  s.db.grants.countP fun r ↦ r ∉ s'.db.grants

/-- The cutoff of a `prune_expired` that has counted, is still to delete, and is going to return. -/
def Work.counting : Work → Option ℤ
  | .counted env _ => if env.delete = none ∧ env.commit = none then some env.cutoff else none
  | _ => none

/-- No `prune_expired` between its `SELECT` and its `DELETE` sees the number of expired rows
change. -/
def Undisturbed (s : Sessions ι) (st : Statement ι) : Prop :=
  ∀ p, ∀ cutoff ∈ (s.work p).counting, (s.step st).1.db.expired cutoff = s.db.expired cutoff

instance [Fintype ι] (s : Sessions ι) (st : Statement ι) : Decidable (Undisturbed s st) :=
  inferInstanceAs (Decidable (∀ p, ∀ cutoff ∈ (s.work p).counting, _))

end Machine

/-! ### What a statement keeps -/

/-- The rows that are deleted are those that have expired. -/
theorem countP_notMem_prune (db : Db) (cutoff : ℤ) :
    (db.grants.countP fun r ↦ r ∉ (db.prune cutoff).grants) = db.expired cutoff := by
  refine List.countP_congr fun r hr ↦ ?_
  simp [Db.prune, hr]

/-- No row goes where some are added. -/
theorem countP_notMem_append (rows rows' : List GrantRow) :
    (rows.countP fun r ↦ r ∉ rows ++ rows') = 0 := by
  rw [List.countP_eq_zero]
  intro r hr
  simp [hr]

section Invariant

variable {ι : Type} [DecidableEq ι]

/-- What is known of a connection: the lock is that of the transaction, whose copy says what will be
deleted or added; and an undisturbed count is still right. -/
def Work.Fits (db : Db) (lock : Option ι) (p : ι) : Work → Prop
  | .idle => True
  | .counted env n => env.delete = none → env.commit = none → n = db.expired env.cutoff
  | .deleted env n copy => lock = some p ∧ copy = db.prune env.cutoff ∧
      (env.commit = none → n = db.expired env.cutoff)
  | .recorded _ _ copy => lock = some p ∧ copy.grants = db.grants
  | .inserted env a copy => lock = some p ∧ copy.grants = db.grants ++ [a.row env]

/-- Everything is known of every connection. -/
def Settled (s : Sessions ι) : Prop :=
  ∀ p, (s.work p).Fits s.db s.lock p

omit [DecidableEq ι] in
theorem settled_init (db : Db) : Settled (Sessions.init ι db) :=
  fun _ ↦ trivial

omit [DecidableEq ι] in
/-- The lock of a transaction keeps the database as it is, and a count depends on how many rows have
expired only. -/
theorem Work.Fits.transfer {work : Work} {db db' : Db} {lock lock' : Option ι} {p : ι}
    (h : work.Fits db lock p)
    (hcount : ∀ cutoff ∈ work.counting, db'.expired cutoff = db.expired cutoff)
    (hlock : lock = some p → lock' = some p ∧ db' = db) : work.Fits db' lock' p := by
  cases work with
  | idle => trivial
  | counted env n =>
    intro hdelete hcommit
    rw [hcount env.cutoff (by simp [counting, hdelete, hcommit])]
    exact h hdelete hcommit
  | deleted env n copy | recorded env a copy | inserted env a copy =>
    obtain ⟨hheld, hcopy⟩ := h
    obtain ⟨hheld', rfl⟩ := hlock hheld
    exact ⟨hheld', hcopy⟩

/-- One process comes to stand elsewhere. -/
theorem settled_put {s : Sessions ι} (h : Settled s) {p : ι} {work : Work} {lock : Option ι}
    {db : Db} (hwork : work.Fits db lock p)
    (hcount : ∀ q ≠ p, ∀ cutoff ∈ (s.work q).counting, db.expired cutoff = s.db.expired cutoff)
    (hlock : ∀ q ≠ p, s.lock = some q → lock = some q ∧ db = s.db) :
    Settled (s.put p work lock db) := by
  intro q
  rcases eq_or_ne q p with rfl | hq
  · have hself : (s.put q work lock db).work q = work := Function.update_self ..
    rw [hself]
    exact hwork
  · have hother : (s.put p work lock db).work q = s.work q := Function.update_of_ne hq ..
    rw [hother]
    exact (h q).transfer (hcount q hq) (hlock q hq)

/-- The same, where nothing is committed. -/
theorem settled_put_self {s : Sessions ι} (h : Settled s) {p : ι} {work : Work} {lock : Option ι}
    (hwork : work.Fits s.db lock p) (hlock : ∀ q ≠ p, s.lock = some q → lock = some q) :
    Settled (s.put p work lock s.db) :=
  settled_put h hwork (fun _ _ _ _ ↦ rfl) fun q hq hheld ↦ ⟨hlock q hq hheld, rfl⟩

omit [DecidableEq ι] in
/-- Where nothing is committed, nothing is deleted. -/
theorem rowsDeleted_of_db_eq {s s' : Sessions ι} (h : s'.db = s.db) : rowsDeleted s s' = 0 := by
  rw [rowsDeleted, h, List.countP_eq_zero]
  intro r hr
  simpa using hr

/-- **What a commit keeps**, of a transaction that has the lock. -/
theorem settled_commit {s : Sessions ι} (h : Settled s) {p : ι} (hheld : s.lock = some p)
    {copy : Db} {commit : Fault} {reply : Reply}
    (hcount : ∀ q, ∀ cutoff ∈ (s.work q).counting,
      (s.commit p copy commit reply).1.db.expired cutoff = s.db.expired cutoff)
    (hbook : commit = none → reply.removed = s.db.grants.countP fun r ↦ r ∉ copy.grants) :
    Settled (s.commit p copy commit reply).1 ∧ (s.commit p copy commit reply).2.removed =
      rowsDeleted s (s.commit p copy commit reply).1 := by
  have hlock : ∀ q ≠ p, s.lock ≠ some q := fun q hq hheld' ↦
    hq (Option.some.inj (hheld'.symm.trans hheld))
  rcases commit with _ | e
  · exact ⟨settled_put h trivial (fun q _ ↦ hcount q) fun q hq hheld' ↦ absurd hheld' (hlock q hq),
      hbook rfl⟩
  · exact ⟨settled_put_self h trivial fun q hq hheld' ↦ absurd hheld' (hlock q hq),
      (rowsDeleted_of_db_eq rfl).symm⟩

/-- A statement keeps everything known, and the number it returns is that of the rows it deletes. -/
def Keeps (s : Sessions ι) (st : Statement ι) : Prop :=
  Settled (s.step st).1 ∧ (s.step st).2.removed = rowsDeleted s (s.step st).1

omit [DecidableEq ι] in
/-- Nothing happens. -/
theorem settled_same {s : Sessions ι} (h : Settled s) : Settled s ∧ 0 = rowsDeleted s s :=
  ⟨h, (rowsDeleted_of_db_eq rfl).symm⟩

theorem keeps_prune {s : Sessions ι} (h : Settled s) (p : ι) (env : ReadEnv) :
    Keeps s (.prune p env) := by
  rw [Keeps, Sessions.step]
  split
  · split
    · exact settled_same h
    · exact ⟨settled_put_self h (fun _ _ ↦ rfl) fun _ _ hheld ↦ hheld,
        (rowsDeleted_of_db_eq rfl).symm⟩
  · exact settled_same h

theorem keeps_install {s : Sessions ι} (h : Settled s) (p : ι) (env : InstallEnv) (a : GrantArgs) :
    Keeps s (.install p env a) := by
  rw [Keeps, Sessions.step]
  split
  · split
    · exact settled_same h
    · exact settled_same h
    · rename_i hfree
      split
      · exact settled_same h
      · rename_i copy hcopy
        refine ⟨settled_put_self h ⟨rfl, ?_⟩ fun q _ hheld ↦ ?_, (rowsDeleted_of_db_eq rfl).symm⟩
        · obtain ⟨-, rfl⟩ := recordReplay_ok hcopy
          rfl
        · rw [hfree] at hheld
          cases hheld
  · exact settled_same h

/-- The `DELETE` of `prune_expired`. -/
theorem keeps_delete {s : Sessions ι} (h : Settled s) {p : ι} {env : ReadEnv} {n : ℕ}
    (hwork : s.work p = .counted env n) : Keeps s (.next p) := by
  have hfits := h p
  rw [hwork] at hfits
  simp only [Keeps, Sessions.step, hwork]
  split
  · exact ⟨settled_put_self h trivial fun _ _ hheld ↦ hheld, (rowsDeleted_of_db_eq rfl).symm⟩
  · exact settled_same h
  · rename_i hdelete hfree
    refine ⟨settled_put_self h ⟨rfl, rfl, hfits (Fault.check_ok_iff.1 hdelete)⟩ fun q _ hheld ↦ ?_,
      (rowsDeleted_of_db_eq rfl).symm⟩
    rw [hfree] at hheld
    cases hheld

/-- The second `INSERT` of `install_grant`. -/
theorem keeps_insert {s : Sessions ι} (h : Settled s) {p : ι} {env : InstallEnv} {a : GrantArgs}
    {copy : Db} (hwork : s.work p = .recorded env a copy) : Keeps s (.next p) := by
  have hfits := h p
  rw [hwork] at hfits
  obtain ⟨hheld, hcopy⟩ := hfits
  simp only [Keeps, Sessions.step, hwork]
  split
  · refine ⟨settled_put_self h trivial fun q hq hheld' ↦ ?_, (rowsDeleted_of_db_eq rfl).symm⟩
    exact absurd (Option.some.inj (hheld'.symm.trans hheld)) hq
  · rename_i copy' hcopy'
    refine ⟨settled_put_self h ⟨hheld, ?_⟩ fun _ _ hheld' ↦ hheld', (rowsDeleted_of_db_eq rfl).symm⟩
    obtain ⟨-, -, rfl⟩ := insertGrant_ok hcopy'
    rw [hcopy]

/-- **What a statement keeps, and what it books**, if it does not disturb a count. -/
theorem keeps_step {s : Sessions ι} (h : Settled s) (st : Statement ι) (hst : Undisturbed s st) :
    Keeps s st := by
  cases st with
  | prune p env => exact keeps_prune h p env
  | install p env a => exact keeps_install h p env a
  | next p =>
    have hfits := h p
    rcases hwork : s.work p with _ | ⟨env, n⟩ | ⟨env, n, copy⟩ | ⟨env, a, copy⟩ | ⟨env, a, copy⟩
    · rw [Keeps, Sessions.step, hwork]
      exact settled_same h
    · exact keeps_delete h hwork
    · have hstep : s.step (.next p) = s.commit p copy env.commit (.pruned n) := by
        rw [Sessions.step, hwork]
      rw [hwork] at hfits
      rw [Undisturbed, hstep] at hst
      rw [Keeps, hstep]
      obtain ⟨hheld, rfl, hcount⟩ := hfits
      refine settled_commit h hheld hst fun hcommit ↦ ?_
      rw [countP_notMem_prune]
      exact hcount hcommit
    · exact keeps_insert h hwork
    · have hstep : s.step (.next p) = s.commit p copy env.commit (.granted (a.grant env)) := by
        rw [Sessions.step, hwork]
      rw [hwork] at hfits
      rw [Undisturbed, hstep] at hst
      rw [Keeps, hstep]
      obtain ⟨hheld, hcopy⟩ := hfits
      refine settled_commit h hheld hst fun _ ↦ ?_
      -- the grant is added, and no row goes
      rw [hcopy]
      exact (countP_notMem_append s.db.grants _).symm

end Invariant

/-! ### Whole runs -/

section Run

variable {ι : Type} [DecidableEq ι]

/-- **The counts add up.** In every run of the statements in which no commit changes how many rows
have expired at the cutoff of a `prune_expired` that has counted and is still to delete, the numbers
that the calls of `prune_expired` return add up to the number of rows deleted. -/
theorem prune_counts_add_up (db : Db) {run : List (Statement ι)}
    (h : (sessions ι).Along Undisturbed (Sessions.init ι db) run) :
    (((sessions ι).trace (Sessions.init ι db) run).map fun x ↦ x.2.removed).sum =
      (sessions ι).total rowsDeleted (Sessions.init ι db) run :=
  @Machine.sum_trace_eq_total _ _ _ (sessions ι) Settled Undisturbed Reply.removed rowsDeleted
    (fun _ st hs hst ↦ keeps_step hs st hst) _ (settled_init db) run h

end Run

/-- A call that installs a grant at time 0. -/
def installAt (p : Bool) (tokenId : String) (exp : ℤ) : Statement Bool :=
  .install p ⟨0, 0, 0, 0, none, none, none, none, none, none⟩
    ⟨tokenId.toList, "n".toList, exp, ["10.0.0.1/32".toList], [443], "tcp".toList⟩

/-- A call that prunes at time 20. -/
def pruneAt20 (p : Bool) : Statement Bool :=
  .prune p ⟨20, none, none, none, none, none⟩

/-- A grant that has not expired is installed between the `SELECT` and the `DELETE` of a prune; and
another prune comes after it. -/
theorem prune_counts_add_up_beside_install :
    (sessions Bool).total rowsDeleted (.init Bool .empty)
      [installAt true "a" 10, .next true, .next true, pruneAt20 true, installAt false "b" 30,
        .next false, .next false, .next true, .next true, pruneAt20 false, .next false,
        .next false] = 1 :=
  (prune_counts_add_up Db.empty (by decide +kernel)).symm.trans (by decide +kernel)

/-- **A row is counted twice.** Of two prunes at once, both return 1, and one row is deleted. -/
theorem prune_counted_twice :
    let run := [installAt true "a" 10, .next true, .next true, pruneAt20 true, pruneAt20 false,
      .next true, .next true, .next false, .next false]
    (((sessions Bool).trace (.init Bool .empty) run).map fun x ↦ x.2.removed).sum = 2 ∧
      (sessions Bool).total rowsDeleted (.init Bool .empty) run = 1 := by
  decide +kernel

/-! ### A call alone -/

section Alone

variable {ι : Type} [DecidableEq ι] {s : Sessions ι} {p : ι}

@[simp] theorem put_db (work : Work) (lock : Option ι) (db : Db) :
    (s.put p work lock db).db = db := rfl

@[simp] theorem put_lock (work : Work) (lock : Option ι) (db : Db) :
    (s.put p work lock db).lock = lock := rfl

@[simp] theorem put_work (work : Work) (lock : Option ι) (db : Db) :
    (s.put p work lock db).work p = work :=
  Function.update_self ..

@[simp] theorem put_put (work work' : Work) (lock lock' : Option ι) (db db' : Db) :
    (s.put p work lock db).put p work' lock' db' = s.put p work' lock' db' := by
  simp only [Sessions.put, Function.update_idem]

/-- The process comes back to where it stood. -/
theorem put_idle (hidle : s.work p = .idle) (hfree : s.lock = none) (db : Db) :
    s.put p .idle none db = { s with db := db } := by
  rw [Sessions.put, ← hidle, Function.update_eq_self, ← hfree]

/-- `pruneExpired`, statement by statement. -/
theorem pruneExpired_eq (env : ReadEnv) (db : Db) : pruneExpired env db =
    match env.start with
    | .error e => (.error e, db)
    | .ok () => match env.delete.check with
      | .error e => (.error e, db)
      | .ok () => match env.commit.check with
        | .error e => (.error e, db)
        | .ok () => (.ok (db.expired env.cutoff), db.prune env.cutoff) := by
  obtain ⟨cutoff, _ | _, _ | _, _ | _, _ | _, _ | _⟩ := env
  all_goals rfl

/-- **A `prune_expired` alone** is that of the store. -/
theorem prune_alone (hidle : s.work p = .idle) (hfree : s.lock = none) (env : ReadEnv) :
    (sessions ι).after s [.prune p env, .next p, .next p] =
      { s with db := (pruneExpired env s.db).2 } ∧
    ((sessions ι).trace s [.prune p env, .next p, .next p]).filterMap (·.2.answer) =
      [(pruneExpired env s.db).1.map Sum.inl] := by
  have hback := put_idle hidle hfree
  rw [pruneExpired_eq]
  rcases hstart : env.start with e | _
  · simp [sessions, Sessions.step, Reply.answer, hidle, hstart, Except.map]
  · rcases hdelete : env.delete.check with e | _
    · simp [sessions, Sessions.step, Reply.answer, hidle, hfree, hstart, hdelete, hback, Except.map]
    · rcases hcommit : env.commit.check with e | _
      · simp [sessions, Sessions.step, Sessions.commit, Reply.answer, hidle, hfree, hstart, hdelete,
          hcommit, hback, Except.map]
      · simp [sessions, Sessions.step, Sessions.commit, Reply.answer, hidle, hfree, hstart, hdelete,
          hcommit, hback, Except.map]

/-- `installGrant`, statement by statement. -/
theorem installGrant_eq (env : InstallEnv) (a : GrantArgs) (db : Db) : installGrant env a db =
    match env.start a with
    | .error e => (.error e, db)
    | .ok () => match recordReplay env a db with
      | .error e => (.error e, db)
      | .ok copy => match insertGrant env a copy with
        | .error e => (.error e, db)
        | .ok copy => match env.commit.check with
          | .error e => (.error e, db)
          | .ok () => (.ok (a.grant env), copy) := by
  by_cases hexp : a.exp ≤ env.now
  · rw [installGrant, if_pos hexp, InstallEnv.start, if_pos hexp]
  · rw [installGrant, if_neg hexp, InstallEnv.start, if_neg hexp]
    obtain ⟨now, seenAt, installedAt, returnedAt, _ | _, _ | _, _ | _, _ | _, insert, commit⟩ := env
    · -- nothing fails before the transaction
      simp only [withConnection, installBody, Fault.check_none]
      rcases recordReplay _ a db with e | copy
      · rfl
      · simp only [bind, Except.bind]
        rcases insertGrant _ a copy with e | copy'
        · rfl
        · rcases commit with _ | _
          · rfl
          · rfl
    all_goals rfl

/-- **An `install_grant` alone** is that of the store. -/
theorem install_alone (hidle : s.work p = .idle) (hfree : s.lock = none) (env : InstallEnv)
    (a : GrantArgs) :
    (sessions ι).after s [.install p env a, .next p, .next p] =
      { s with db := (installGrant env a s.db).2 } ∧
    ((sessions ι).trace s [.install p env a, .next p, .next p]).filterMap (·.2.answer) =
      [(installGrant env a s.db).1.map Sum.inr] := by
  have hback := put_idle hidle hfree
  rw [installGrant_eq]
  rcases hstart : env.start a with e | _
  · simp [sessions, Sessions.step, Reply.answer, hidle, hstart, Except.map]
  · rcases hrecord : recordReplay env a s.db with e | copy
    · simp [sessions, Sessions.step, Reply.answer, hidle, hfree, hstart, hrecord, Except.map]
      rw [← hfree]
    · rcases hinsert : insertGrant env a copy with e | copy'
      · simp [sessions, Sessions.step, Reply.answer, hidle, hfree, hstart, hrecord, hinsert, hback,
          Except.map]
      · rcases hcommit : env.commit.check with e | _
        · simp [sessions, Sessions.step, Sessions.commit, Reply.answer, hidle, hfree, hstart,
            hrecord, hinsert, hcommit, hback, Except.map]
        · simp [sessions, Sessions.step, Sessions.commit, Reply.answer, hidle, hfree, hstart,
            hrecord, hinsert, hcommit, hback, Except.map]

end Alone

end SourceOS.Gate
