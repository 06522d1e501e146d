import SourceOS.Mount.Retention

/-!
# What a retainer reports

`Apply`, `Tick` and `Converge` return the versions that were pruned, also next to an error. Here
their results are held against what the pruner did. A pruner may fail on any call; it has deleted
the version when it returns nil, and nothing when it does not. `logged` writes down what it deleted.

* The lists of `Apply` and of `Tick` are what was deleted, whatever fails (`tick_logged`).
* `Converge` puts the lists of its ticks together, but returns at the error of a tick **before** it
  has taken over the list of that tick. So its list falls short exactly when the pruner fails in a
  tick in which it has already deleted something: `converge_reports_iff`.
-/

namespace SourceOS.Mount.Retainer

variable {σ : Type}

/-! ### Writing down what is deleted -/

/-- The retainer, with the versions that its pruner deleted written down. -/
def logged (R : Retainer σ) : Retainer (σ × List Version) where
  list := fun s ↦ ((R.list.run s.1).1, ((R.list.run s.1).2, s.2))
  policy := R.policy
  prune v := fun s ↦
    match (R.prune v).run s.1 with
    | (.error err, t) => (.error err, (t, s.2))
    | (.ok (), t) => (.ok (), (t, s.2 ++ [v]))
  maxPrunePerTick := R.maxPrunePerTick

/-- What the pruner deletes during a call of `Converge`, in order. -/
def deleted (R : Retainer σ) (now maxTicks : ℤ) (s : σ) : List Version :=
  (R.logged.converge now maxTicks (s, [])).2.2

variable (R : Retainer σ) (now : ℤ)

/-- **`Apply` returns what was deleted**, with or without an error. -/
theorem apply_logged (plan : List VersionMeta) (s : σ) (l : List Version) :
    apply R.logged.prune plan (s, l) =
      ((apply R.prune plan s).1,
        ((apply R.prune plan s).2, l ++ (apply R.prune plan s).1.done)) := by
  induction plan generalizing s l with
  | nil => simp [apply]
  | cons v plan ih =>
    have hprune : (R.logged.prune v.version).run (s, l) =
        match (R.prune v.version).run s with
        | (.error err, t) => (.error err, (t, l))
        | (.ok (), t) => (.ok (), (t, l ++ [v.version])) := rfl
    rw [apply, apply, hprune]
    rcases (R.prune v.version).run s with ⟨err | ⟨⟩, t⟩
    · simp
    · simp only [ih]
      simp

/-- **`Tick` returns what was deleted**, with or without an error. -/
theorem tick_logged (s : σ) (l : List Version) :
    R.logged.tick now (s, l) =
      ((R.tick now s).1, ((R.tick now s).2, l ++ (R.tick now s).1.done)) := by
  have hlist : R.logged.list.run (s, l) = ((R.list.run s).1, ((R.list.run s).2, l)) := rfl
  rw [tick, tick, hlist]
  rcases R.list.run s with ⟨err | vs, t⟩
  · simp
  · exact apply_logged R _ t l

/-! ### Where a pruner fails -/

/-- How many versions of a list the pruner deletes before it fails; `none` if it does not fail. -/
def failsAfter (pr : Version → Effect GoString σ Unit) : List VersionMeta → σ → Option ℕ
  | [], _ => none
  | v :: plan, s =>
    match (pr v.version).run s with
    | (.error _, _) => some 0
    | (.ok (), t) => (failsAfter pr plan t).map (· + 1)

/-- What a tick is to prune of the versions that are listed. -/
def due (vs : List VersionMeta) : List VersionMeta :=
  (R.policy.plan now vs).2.take (R.batch now vs)

/-- A tick that starts in the state deletes something and then fails. -/
def BreaksOff (s : σ) : Prop :=
  ∃ vs t n, R.list.run s = (.ok vs, t) ∧ failsAfter R.prune (R.due now vs) t = some (n + 1)

/-- A tick that starts in the state deletes what is due, and something is. -/
def GoesOn (s : σ) : Prop :=
  ∃ vs t, R.list.run s = (.ok vs, t) ∧ R.due now vs ≠ [] ∧
    failsAfter R.prune (R.due now vs) t = none

/-- What `Apply` returns, by where the pruner fails. -/
theorem apply_spec (pr : Version → Effect GoString σ Unit) (plan : List VersionMeta) (s : σ) :
    ((apply pr plan s).1.err = none ↔ failsAfter pr plan s = none) ∧
      (apply pr plan s).1.done = (plan.take
        ((failsAfter pr plan s).getD plan.length)).map VersionMeta.version := by
  induction plan generalizing s with
  | nil => simp [apply, failsAfter]
  | cons v plan ih =>
    rw [apply, failsAfter]
    rcases (pr v.version).run s with ⟨err | ⟨⟩, t⟩
    · simp
    · obtain ⟨herr, hdone⟩ := ih t
      refine ⟨by simpa using herr, ?_⟩
      dsimp only
      rw [hdone]
      rcases failsAfter pr plan t with _ | n <;> simp

variable {R now}

/-- A tick prunes what is due. -/
theorem tick_eq_apply_due {s t : σ} {vs : List VersionMeta} (h : R.list.run s = (.ok vs, t)) :
    R.tick now s = apply R.prune (R.due now vs) t := by
  rw [tick, h, due]
  dsimp only
  by_cases hm : R.maxPrunePerTick > 0
  · rw [batch, if_pos hm]
    split
    · rfl
    · rw [List.take_of_length_le (by omega)]
  · rw [batch, if_neg hm, if_neg fun h ↦ hm h.1, List.take_length]

/-- The list of a tick that failed is empty unless the tick broke off. -/
theorem breaksOff_iff {s : σ} :
    R.BreaksOff now s ↔ (R.tick now s).1.err ≠ none ∧ (R.tick now s).1.done ≠ [] := by
  rcases hlist : R.list.run s with ⟨err | vs, t⟩
  · simp [BreaksOff, tick, hlist]
  · obtain ⟨herr, hdone⟩ := apply_spec R.prune (R.due now vs) t
    rw [tick_eq_apply_due hlist, ne_eq, herr, hdone]
    constructor
    · rintro ⟨ws, u, n, hrun, hfails⟩
      obtain ⟨hvs, rfl⟩ := Prod.mk.inj (hlist.symm.trans hrun)
      obtain rfl := Except.ok.inj hvs
      refine ⟨by simp [hfails], fun hnil ↦ ?_⟩
      rw [hfails, List.map_eq_nil_iff, Option.getD_some, List.take_eq_nil_iff] at hnil
      rw [hnil.resolve_left n.succ_ne_zero] at hfails
      exact absurd hfails (by simp [failsAfter])
    · rintro ⟨hfails, hne⟩
      rcases hn : failsAfter R.prune (R.due now vs) t with _ | _ | n
      · exact absurd hn hfails
      · simp [hn] at hne
      · exact ⟨vs, t, n, hlist, hn⟩

/-- The loop goes on after a tick without an error that pruned something. -/
theorem goesOn_iff {s : σ} :
    R.GoesOn now s ↔ (R.tick now s).1.err = none ∧ (R.tick now s).1.done ≠ [] := by
  rcases hlist : R.list.run s with ⟨err | vs, t⟩
  · simp [GoesOn, tick, hlist]
  · obtain ⟨herr, hdone⟩ := apply_spec R.prune (R.due now vs) t
    rw [tick_eq_apply_due hlist, herr, hdone]
    constructor
    · rintro ⟨ws, u, hrun, hdue, hfails⟩
      obtain ⟨hvs, rfl⟩ := Prod.mk.inj (hlist.symm.trans hrun)
      obtain rfl := Except.ok.inj hvs
      exact ⟨hfails, by simpa [hfails] using hdue⟩
    · rintro ⟨hfails, hne⟩
      exact ⟨vs, t, hlist, by simpa [hfails] using hne, hfails⟩

/-! ### The loop -/

/-- The condition on a loop, taken apart at its first tick. -/
theorem forall_lt_succ_iff {n : ℕ} {s : σ} :
    (∀ k < n + 1, (∀ j < k, R.GoesOn now (R.ticked now j s)) →
        ¬ R.BreaksOff now (R.ticked now k s)) ↔
      ¬ R.BreaksOff now s ∧ (R.GoesOn now s → ∀ k < n,
        (∀ j < k, R.GoesOn now (R.ticked now j (R.tick now s).2)) →
          ¬ R.BreaksOff now (R.ticked now k (R.tick now s).2)) := by
  have hticked : ∀ k, R.ticked now k (R.tick now s).2 = R.ticked now (k + 1) s := fun k ↦
    (Function.iterate_succ_apply (fun s ↦ (R.tick now s).2) k s).symm
  simp only [hticked]
  constructor
  · intro h
    refine ⟨h 0 n.succ_pos fun j hj ↦ absurd hj (Nat.not_lt_zero j), fun hs k hk hj ↦
      h (k + 1) (Nat.succ_lt_succ hk) fun j hjk ↦ ?_⟩
    cases j with
    | zero => exact hs
    | succ j => exact hj j (Nat.lt_of_succ_lt_succ hjk)
  · rintro ⟨hfirst, hrest⟩ k hk hj
    cases k with
    | zero => exact hfirst
    | succ k =>
      exact hrest (hj 0 k.succ_pos) k (Nat.lt_of_succ_lt_succ hk) fun j hjk ↦
        hj (j + 1) (Nat.succ_lt_succ hjk)

/-- Writing down what is deleted changes nothing else. -/
theorem convergeFrom_logged (maxTicks : ℤ) (n : ℕ) (all : List Version) (s : σ)
    (l : List Version) :
    (R.logged.convergeFrom now maxTicks n all (s, l)).1 =
        (R.convergeFrom now maxTicks n all s).1 ∧
      (R.logged.convergeFrom now maxTicks n all (s, l)).2.1 =
        (R.convergeFrom now maxTicks n all s).2 := by
  induction n generalizing all s l with
  | zero => exact ⟨rfl, rfl⟩
  | succ n ih =>
    rw [convergeFrom, convergeFrom, tick_logged]
    rcases R.tick now s with ⟨⟨pruned, _ | err⟩, t⟩
    · dsimp only
      split
      · exact ⟨rfl, rfl⟩
      · exact ih _ _ _
    · exact ⟨rfl, rfl⟩

/-- **The loop of `Converge`**, entered with a list that is what was deleted so far. -/
theorem convergeFrom_reports_iff (maxTicks : ℤ) (n : ℕ) (all : List Version) (s : σ) :
    (R.convergeFrom now maxTicks n all s).1.done =
        (R.logged.convergeFrom now maxTicks n all (s, all)).2.2 ↔
      ∀ k < n, (∀ j < k, R.GoesOn now (R.ticked now j s)) →
        ¬ R.BreaksOff now (R.ticked now k s) := by
  induction n generalizing all s with
  | zero => exact iff_of_true rfl fun k hk ↦ absurd hk (Nat.not_lt_zero k)
  | succ n ih =>
    rw [forall_lt_succ_iff, breaksOff_iff, goesOn_iff, convergeFrom, convergeFrom, tick_logged]
    rcases htick : R.tick now s with ⟨⟨pruned, _ | err⟩, t⟩
    · rcases pruned with _ | ⟨v, pruned⟩
      · -- A tick that prunes nothing ends the loop.
        simp
      · simpa using ih (all ++ v :: pruned) t
    · -- What the failing tick has deleted is not in the list.
      simp

variable (R now)

/-- The call that writes down what is deleted is the call. -/
theorem converge_logged (maxTicks : ℤ) (s : σ) :
    (R.logged.converge now maxTicks (s, [])).1 = (R.converge now maxTicks s).1 ∧
      (R.logged.converge now maxTicks (s, [])).2.1 = (R.converge now maxTicks s).2 :=
  convergeFrom_logged maxTicks maxTicks.toNat [] s []

/-- **What `Converge` reports.** Its list is what the pruner deleted during the call, in order,
exactly when in no tick that the call comes to the pruner fails after it has deleted a version. -/
theorem converge_reports_iff (maxTicks : ℤ) (s : σ) :
    (R.converge now maxTicks s).1.done = R.deleted now maxTicks s ↔
      ∀ k : ℕ, (k : ℤ) < maxTicks → (∀ j < k, R.GoesOn now (R.ticked now j s)) →
        ¬ R.BreaksOff now (R.ticked now k s) := by
  rw [converge, deleted, converge, convergeFrom_reports_iff]
  exact forall_congr' fun k ↦ by rw [Int.lt_toNat]

/-- A store of which one version cannot be deleted. -/
def stuckRetainer (p : RetentionPolicy) (m : ℤ) (stuck : Version) :
    Retainer (List VersionMeta) where
  list := fun vs ↦ (.ok vs, vs)
  policy := p
  prune v := fun vs ↦
    if v = stuck then (.error (Go.ascii "busy".toList), vs)
    else (.ok (), vs.filter fun w ↦ w.version ≠ v)
  maxPrunePerTick := m

/-- Three versions, one to keep. The second of the two others cannot be deleted: the first one is,
and `Converge` returns no version. -/
theorem converge_report_falls_short :
    let vs := [versionAt "a".toList 1, versionAt "b".toList 2, versionAt "c".toList 3]
    let R := stuckRetainer ⟨1, 0⟩ 0 (versionAt "a".toList 1).version
    (R.converge 9 4 vs).1.done = [] ∧ (R.converge 9 4 vs).1.err ≠ none ∧
      R.deleted 9 4 vs = [(versionAt "b".toList 2).version] ∧
      (R.converge 9 4 vs).1.done ≠ R.deleted 9 4 vs := by
  decide

end SourceOS.Mount.Retainer
