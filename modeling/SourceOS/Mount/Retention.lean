import Mathlib.Order.MinMax
import SourceOS.Foundation.Effect
import SourceOS.Foundation.StableSort
import SourceOS.Mount.InceptionFS

/-!
# Retention

Which versions of a space are kept: a **policy** splits the held versions into those to keep and
those to prune, and a **retainer** ticks — it lists, plans, and prunes the front of the plan, at
most so many versions a tick.

* `plan` sorts from newest to oldest and decides for each version by its rank and its age. Rank and
  age grow along the list, so the kept versions come first (`plan_append`): the plan cuts the
  sorted list in two.
* `plan_after_prune` is what makes the loop converge. Once some of the pruned versions are gone, the
  next plan keeps what the first one kept and prunes what is left: the rest has moved up in rank,
  but never past the cut.
* The store and the pruner are interfaces of the source. `Retainer.Lawful` says that they do what
  their names say, and `retention_converges` is about every store and pruner that do.

A `Created` time is an instant, in nanoseconds: `After` and `Sub` compare instants, and a time that
was read back from a file system carries nothing else.
-/

namespace SourceOS.Mount

open Go

/-! ### The policy -/

/-- `VersionMeta`. -/
structure VersionMeta where
  /-- The version. -/
  version : Version
  /-- `Created`, in nanoseconds. -/
  created : ℤ
deriving DecidableEq

/-- `RetentionPolicy`. -/
structure RetentionPolicy where
  /-- Keep so many of the most recent versions. -/
  keepLast : ℤ
  /-- Keep any version that is not older, in nanoseconds. -/
  keepSince : ℤ

/-- `now.Sub(created)`: the difference, saturated to what a `Duration` holds. -/
def sub (now created : ℤ) : ℤ :=
  max (-2 ^ 63) (min (2 ^ 63 - 1) (now - created))

/-- What was created earlier is not younger, saturated or not. -/
theorem sub_le_sub {now c d : ℤ} (h : d ≤ c) : sub now c ≤ sub now d :=
  max_le_max le_rfl (min_le_min le_rfl (by omega))

/-- The order of the plan: newest first. -/
def NotOlder (v w : VersionMeta) : Prop :=
  ¬ w.created > v.created

instance : DecidableRel NotOlder := fun v w ↦ inferInstanceAs (Decidable (¬ w.created > v.created))

instance : IsTrans VersionMeta NotOlder :=
  ⟨fun u v w h h' ↦ by
    unfold NotOlder at *
    omega⟩

instance : Std.Total NotOlder :=
  ⟨fun v w ↦ by
    unfold NotOlder
    omega⟩

/-- The versions sorted stably, newest first. -/
def sorted (vs : List VersionMeta) : List VersionMeta :=
  vs.insertionSort NotOlder

namespace RetentionPolicy

variable (p : RetentionPolicy) (now : ℤ)

/-- Whether the version at rank `i` of the sorted list is kept. -/
def keeps (i : ℕ) (v : VersionMeta) : Bool :=
  let zero := p.keepLast == 0 && p.keepSince == 0
  let withinLast := decide (p.keepLast > 0) && decide ((i : ℤ) < p.keepLast)
  let withinSince := decide (p.keepSince > 0) && decide (sub now v.created ≤ p.keepSince)
  zero || withinLast || withinSince

/-- The loop of `Plan`, from rank `i` on. -/
def split : ℕ → List VersionMeta → List VersionMeta × List VersionMeta
  | _, [] => ([], [])
  | i, v :: vs =>
    let rest := split (i + 1) vs
    if p.keeps now i v then (v :: rest.1, rest.2) else (rest.1, v :: rest.2)

/-- `Plan`: the versions to keep and the versions to prune. -/
def plan (vs : List VersionMeta) : List VersionMeta × List VersionMeta :=
  p.split now 0 (sorted vs)

variable {p now}

theorem split_cons_pos {i : ℕ} {v : VersionMeta} {vs : List VersionMeta}
    (h : p.keeps now i v = true) : p.split now i (v :: vs) =
      (v :: (p.split now (i + 1) vs).1, (p.split now (i + 1) vs).2) := by
  rw [split, if_pos h]

theorem split_cons_neg {i : ℕ} {v : VersionMeta} {vs : List VersionMeta}
    (h : p.keeps now i v = false) : p.split now i (v :: vs) =
      ((p.split now (i + 1) vs).1, v :: (p.split now (i + 1) vs).2) := by
  rw [split, if_neg (by simp [h])]

/-- **Nothing is kept behind the cut.** A version that is not newer, at a rank that is not lower, of
a version that is pruned is pruned. -/
theorem keeps_false_of_notOlder {i j : ℕ} {v w : VersionMeta} (hij : i ≤ j) (hvw : NotOlder v w)
    (h : p.keeps now i v = false) : p.keeps now j w = false := by
  have hage : sub now v.created ≤ sub now w.created := sub_le_sub (not_lt.1 hvw)
  simp only [keeps, Bool.or_eq_false_iff, Bool.and_eq_false_iff, decide_eq_false_iff_not,
    beq_eq_false_iff_ne] at h ⊢
  omega

/-- A list that starts behind the cut is pruned as a whole. -/
theorem split_of_all_false {i : ℕ} {vs : List VersionMeta}
    (h : ∀ v ∈ vs, ∀ j, i ≤ j → p.keeps now j v = false) : p.split now i vs = ([], vs) := by
  induction vs generalizing i with
  | nil => rfl
  | cons v vs ih =>
    rw [split_cons_neg (h v List.mem_cons_self i le_rfl),
      ih fun w hw j hj ↦ h w (List.mem_cons_of_mem _ hw) j (by omega)]

/-- Behind a version that is pruned, everything is. -/
theorem split_of_head {i : ℕ} {v : VersionMeta} {vs : List VersionMeta}
    (hvs : (v :: vs).Pairwise NotOlder) (h : p.keeps now i v = false) {ws : List VersionMeta}
    (hws : ∀ w ∈ ws, w ∈ v :: vs) : p.split now i ws = ([], ws) := by
  refine split_of_all_false fun w hw j hj ↦ ?_
  rcases List.mem_cons.1 (hws w hw) with rfl | hw
  · exact keeps_false_of_notOlder hj (by simp [NotOlder]) h
  · exact keeps_false_of_notOlder hj (List.rel_of_pairwise_cons hvs hw) h

/-- **The plan cuts a sorted list in two**, from any rank on. -/
theorem split_append {i : ℕ} {vs : List VersionMeta} (hvs : vs.Pairwise NotOlder) :
    (p.split now i vs).1 ++ (p.split now i vs).2 = vs := by
  induction vs generalizing i with
  | nil => rfl
  | cons v vs ih =>
    rcases h : p.keeps now i v with _ | _
    · rw [split_of_head hvs h fun _ hw ↦ hw, List.nil_append]
    · rw [split_cons_pos h, List.cons_append, ih hvs.of_cons]

/-- **Pruning from the plan leaves the plan.** With some of the pruned versions gone, the same are
kept and the others are pruned. -/
theorem split_drop {i : ℕ} {vs : List VersionMeta} (hvs : vs.Pairwise NotOlder) (n : ℕ) :
    p.split now i ((p.split now i vs).1 ++ (p.split now i vs).2.drop n) =
      ((p.split now i vs).1, (p.split now i vs).2.drop n) := by
  induction vs generalizing i with
  | nil => simp [split]
  | cons v vs ih =>
    rcases h : p.keeps now i v with _ | _
    · rw [split_of_head hvs h fun _ hw ↦ hw, List.nil_append]
      exact split_of_head hvs h fun w hw ↦ List.mem_of_mem_drop hw
    · rw [split_cons_pos h, List.cons_append, split_cons_pos h, ih hvs.of_cons]

theorem pairwise_sorted (vs : List VersionMeta) : (sorted vs).Pairwise NotOlder :=
  List.pairwise_insertionSort NotOlder vs

/-- **The plan cuts the sorted list in two.** -/
theorem plan_append (vs : List VersionMeta) :
    (p.plan now vs).1 ++ (p.plan now vs).2 = sorted vs :=
  split_append (pairwise_sorted vs)

/-- The plan of versions loses none and invents none. -/
theorem perm_plan (vs : List VersionMeta) :
    ((p.plan now vs).1 ++ (p.plan now vs).2).Perm vs := by
  rw [plan_append]
  exact List.perm_insertionSort NotOlder vs

/-- **How far the kept versions reach**: up to the last rank that is kept. -/
theorem lt_length_split_iff {k : ℕ} {vs : List VersionMeta} (hvs : vs.Pairwise NotOlder) {i : ℕ}
    (hi : i < vs.length) :
    i < (p.split now k vs).1.length ↔ p.keeps now (k + i) vs[i] = true := by
  induction vs generalizing k i with
  | nil => exact absurd hi (Nat.not_lt_zero i)
  | cons v vs ih =>
    rcases h : p.keeps now k v with _ | _
    · rw [split_of_head hvs h fun _ hw ↦ hw]
      have hold : NotOlder v (v :: vs)[i] := by
        rcases List.mem_cons.1 (List.getElem_mem hi) with heq | hmem
        · rw [heq]
          exact lt_irrefl _
        · exact List.rel_of_pairwise_cons hvs hmem
      rw [keeps_false_of_notOlder (Nat.le_add_right k i) hold h]
      simp
    · rw [split_cons_pos h]
      cases i with
      | zero => simpa using h
      | succ i =>
        have hi' : i < vs.length := Nat.lt_of_succ_lt_succ hi
        rw [List.length_cons, Nat.add_lt_add_iff_right, ih hvs.of_cons hi', Nat.add_right_comm]
        rfl

/-- **The plan is the documented policy.** The kept versions followed by the pruned ones are the
versions in stable order from newest to oldest. The version at rank `i` is kept exactly when the
policy is zero, or the rank is below `KeepLast`, or the age is within a positive `KeepSince`; and
none that is kept is older than one that is pruned. -/
theorem plan_is_policy (p : RetentionPolicy) (now : ℤ) (vs : List VersionMeta) :
    let keep := (p.plan now vs).1
    let prune := (p.plan now vs).2
    ((keep ++ prune).Perm vs ∧
      (keep ++ prune).Pairwise (fun v w ↦ w.created ≤ v.created) ∧
      ∀ t, ((keep ++ prune).filter fun v ↦ v.created = t) = vs.filter fun v ↦ v.created = t) ∧
    (∀ i, ∀ hi : i < (keep ++ prune).length,
      i < keep.length ↔ (p.keepLast = 0 ∧ p.keepSince = 0) ∨ (i : ℤ) < p.keepLast ∨
        (p.keepSince > 0 ∧ sub now ((keep ++ prune)[i]).created ≤ p.keepSince)) ∧
    ∀ v ∈ keep, ∀ w ∈ prune, w.created ≤ v.created := by
  intro keep prune
  have happend : keep ++ prune = sorted vs := plan_append vs
  have hsorted : (keep ++ prune).Pairwise NotOlder := happend ▸ pairwise_sorted vs
  refine ⟨⟨perm_plan vs, hsorted.imp not_lt.1, fun t ↦ ?_⟩, fun i hi ↦ ?_, fun v hv w hw ↦ ?_⟩
  · rw [happend]
    refine filter_insertionSort_of_ties (fun v w hv hw ↦ ?_) vs
    rw [NotOlder, of_decide_eq_true hv, of_decide_eq_true hw]
    exact lt_irrefl t
  · have hkeep : i < keep.length ↔ p.keeps now (0 + i) (keep ++ prune)[i] = true := by
      have hsplit : keep = (p.split now 0 (keep ++ prune)).1 := by
        rw [happend]
        rfl
      conv_lhs => rw [hsplit]
      exact lt_length_split_iff hsorted hi
    rw [hkeep, Nat.zero_add, keeps]
    simp only [Bool.or_eq_true, Bool.and_eq_true, beq_iff_eq, decide_eq_true_eq]
    omega
  · exact not_lt.1 ((List.pairwise_append.1 hsorted).2.2 v hv w hw)

/-- **The newest version is kept**, by every policy that keeps one. -/
theorem notMem_prune_of_newest {vs : List VersionMeta} {v : VersionMeta} (hp : 0 < p.keepLast)
    (hvs : (vs.map VersionMeta.version).Nodup) (hv : v ∈ vs)
    (hnewest : ∀ w ∈ vs, w ≠ v → w.created < v.created) :
    v.version ∉ (p.plan now vs).2.map VersionMeta.version := by
  have hnodup : (((p.plan now vs).1 ++ (p.plan now vs).2).map VersionMeta.version).Nodup :=
    ((perm_plan vs).map _).nodup_iff.2 hvs
  have hperm : (sorted vs).Perm vs := List.perm_insertionSort NotOlder vs
  have hsorted : (sorted vs).Pairwise NotOlder := pairwise_sorted vs
  have hplan : p.plan now vs = p.split now 0 (sorted vs) := rfl
  rcases hlist : sorted vs with _ | ⟨w, ws⟩
  · rw [hlist] at hperm
    exact absurd (hperm.mem_iff.2 hv) List.not_mem_nil
  · rw [hlist] at hperm hsorted hplan
    -- Nothing else can come first.
    obtain rfl : w = v := by
      by_contra hne
      have hlt := hnewest w (hperm.mem_iff.1 List.mem_cons_self) hne
      have hmem := (List.mem_cons.1 (hperm.mem_iff.2 hv)).resolve_left (Ne.symm hne)
      exact List.rel_of_pairwise_cons hsorted hmem hlt
    have hkeeps : p.keeps now 0 w = true := by simp [keeps, hp]
    rw [split_cons_pos hkeeps] at hplan
    rw [List.map_append, List.nodup_append] at hnodup
    intro hmem
    refine hnodup.2.2 w.version ?_ w.version hmem rfl
    rw [hplan]
    exact List.mem_cons_self

end RetentionPolicy

/-- The versions of a list of which none is to go. -/
def without (vs gone : List VersionMeta) : List VersionMeta :=
  vs.filter fun v ↦ v.version ∉ gone.map VersionMeta.version

/-- The held versions are different ones. -/
def Distinct (vs : List VersionMeta) : Prop :=
  (vs.map VersionMeta.version).Nodup

instance (vs : List VersionMeta) : Decidable (Distinct vs) :=
  inferInstanceAs (Decidable (List.Nodup _))

theorem without_nil (vs : List VersionMeta) : without vs [] = vs := by
  simp [without]

theorem without_without (vs as bs : List VersionMeta) :
    without (without vs as) bs = without vs (as ++ bs) := by
  rw [without, without, without, List.filter_filter]
  refine List.filter_congr fun w _ ↦ ?_
  rw [List.map_append]
  by_cases h : w.version ∈ as.map VersionMeta.version
  · simp only [h, List.mem_append, true_or]
    simp
  · simp only [h, List.mem_append, false_or]
    simp

theorem Distinct.without {vs : List VersionMeta} (h : Distinct vs) (gone : List VersionMeta) :
    Distinct (without vs gone) :=
  h.sublist (List.filter_sublist.map _)

/-- Of different versions in a row, leaving out some of the first ones. -/
theorem without_of_append {as bs cs : List VersionMeta} (h : Distinct (as ++ bs ++ cs)) :
    Mount.without (as ++ bs ++ cs) bs = as ++ cs := by
  have hnodup := h
  rw [Distinct, List.map_append, List.map_append, List.nodup_append, List.nodup_append] at hnodup
  obtain ⟨⟨-, -, hab⟩, -, hc⟩ := hnodup
  rw [Mount.without, List.filter_append, List.filter_append, List.filter_eq_self.2,
    List.filter_eq_nil_iff.2, List.filter_eq_self.2, List.append_nil]
  · intro c hc'
    have := fun hb ↦
      hc c.version (List.mem_append_right _ hb) c.version (List.mem_map_of_mem hc') rfl
    simpa using this
  · intro b hb
    simpa using ⟨b, hb, rfl⟩
  · intro a ha
    have := fun hb ↦ hab a.version (List.mem_map_of_mem ha) a.version hb rfl
    simpa using this

namespace RetentionPolicy

variable {p : RetentionPolicy} {now : ℤ}

/-- **The next plan.** Once the first versions of the plan are gone, the next plan keeps the same
and prunes the rest. -/
theorem plan_without {vs : List VersionMeta} (hvs : Distinct vs) (n : ℕ) :
    p.plan now (without vs ((p.plan now vs).2.take n)) =
      ((p.plan now vs).1, (p.plan now vs).2.drop n) := by
  have hdistinct : Distinct (sorted vs) :=
    (((List.perm_insertionSort NotOlder vs).map _).nodup_iff).2 hvs
  have hsorted : sorted (without vs ((p.plan now vs).2.take n)) =
      (p.plan now vs).1 ++ (p.plan now vs).2.drop n := by
    rw [without, sorted, insertionSort_filter]
    show without (sorted vs) _ = _
    have hcut : sorted vs = (p.plan now vs).1 ++ (p.plan now vs).2.take n ++
        (p.plan now vs).2.drop n := by
      rw [List.append_assoc, List.take_append_drop, plan_append]
    rw [hcut] at hdistinct
    rw [hcut]
    exact without_of_append hdistinct
  rw [plan, hsorted]
  exact split_drop (pairwise_sorted vs) n

end RetentionPolicy

/-! ### The control loop -/

/-- What `Apply`, `Tick` and `Converge` return: versions, and an error or nil. -/
structure Pruned where
  /-- The versions that were pruned. -/
  done : List Version
  /-- The error; `none` is nil. -/
  err : Option GoString
deriving DecidableEq

/-- `Apply`: prune the versions of a plan in order, up to the first error. -/
def apply {σ : Type} (pr : Version → Effect GoString σ Unit) : List VersionMeta → σ → Pruned × σ
  | [], s => (⟨[], none⟩, s)
  | v :: plan, s =>
    match (pr v.version).run s with
    | (.error err, s) => (⟨[], some err⟩, s)
    | (.ok (), s) =>
      let rest := apply pr plan s
      (⟨v.version :: rest.1.done, rest.1.err⟩, rest.2)

/-- `Retainer`. Its store and its pruner are computations on a state `σ`. -/
structure Retainer (σ : Type) where
  /-- `Store.List`. -/
  list : Effect GoString σ (List VersionMeta)
  /-- `Policy`. -/
  policy : RetentionPolicy
  /-- `Pruner.Prune`. -/
  prune : Version → Effect GoString σ Unit
  /-- `MaxPrunePerTick`; not positive means unbounded. -/
  maxPrunePerTick : ℤ

namespace Retainer

variable {σ : Type} (R : Retainer σ) (now : ℤ)

/-- `Tick`. -/
def tick (s : σ) : Pruned × σ :=
  match R.list.run s with
  | (.error err, s) =>
    (⟨[], some (ascii "retain: list failed, pruning nothing: ".toList ++ err)⟩, s)
  | (.ok vs, s) =>
    let prune := (R.policy.plan now vs).2
    let prune := if R.maxPrunePerTick > 0 ∧ (prune.length : ℤ) > R.maxPrunePerTick then
      prune.take R.maxPrunePerTick.toNat else prune
    apply R.prune prune s

/-- The loop of `Converge`, with so many ticks left and the versions pruned so far. -/
def convergeFrom (maxTicks : ℤ) : ℕ → List Version → σ → Pruned × σ
  | 0, all, s => (⟨all, some (ascii "retain: did not converge within ".toList ++
      ascii (Text.decimal maxTicks) ++ ascii " ticks".toList)⟩, s)
  | n + 1, all, s =>
    match R.tick now s with
    | (⟨_, some err⟩, s) => (⟨all, some err⟩, s)
    | (⟨pruned, none⟩, s) =>
      if pruned.length = 0 then (⟨all ++ pruned, none⟩, s)
      else convergeFrom maxTicks n (all ++ pruned) s

/-- `Converge`. -/
def converge (maxTicks : ℤ) (s : σ) : Pruned × σ :=
  R.convergeFrom now maxTicks maxTicks.toNat [] s

/-- **What `Apply` preserves** is what pruning a version of the plan does. -/
theorem apply_induction {pr : Version → Effect GoString σ Unit} {P : σ → Prop}
    {plan : List VersionMeta} (hstep : ∀ v ∈ plan, ∀ s, P s → P ((pr v.version).run s).2) {s : σ}
    (hs : P s) : P (apply pr plan s).2 := by
  induction plan generalizing s with
  | nil => exact hs
  | cons v plan ih =>
    have hv := hstep v List.mem_cons_self s hs
    rw [apply]
    rcases hrun : (pr v.version).run s with ⟨_ | _, t⟩
    · rwa [hrun] at hv
    · rw [hrun] at hv
      exact ih (fun w hw ↦ hstep w (List.mem_cons_of_mem _ hw)) hv

variable {R now} in
/-- **What a `Tick` preserves**, of a store and a pruner that may fail: what listing does, and
pruning a version that the plan of the listed ones prunes. -/
theorem tick_induction {P : σ → Prop} {s : σ} (hlist : P (R.list.run s).2)
    (hprune : ∀ vs, (R.list.run s).1 = .ok vs → ∀ v ∈ (R.policy.plan now vs).2, ∀ t, P t →
      P ((R.prune v.version).run t).2) : P (R.tick now s).2 := by
  rw [tick]
  rcases hrun : R.list.run s with ⟨err | vs, t⟩
  · rwa [hrun] at hlist
  · rw [hrun] at hlist hprune
    refine apply_induction (fun v hv ↦ hprune vs rfl v ?_) hlist
    split at hv
    · exact List.mem_of_mem_take hv
    · exact hv

/-- The state after so many ticks. -/
def ticked (k : ℕ) (s : σ) : σ :=
  (fun s ↦ (R.tick now s).2)^[k] s

/-- The store lists what it holds and the pruner removes the held version it is given; neither
fails. `held` is what a state holds, in the order it is listed. -/
structure Lawful (held : σ → List VersionMeta) : Prop where
  /-- Listing returns what is held. -/
  list_ok : ∀ s, (R.list.run s).1 = .ok (held s)
  /-- Listing changes nothing. -/
  list_held : ∀ s, held (R.list.run s).2 = held s
  /-- Pruning succeeds. -/
  prune_ok : ∀ s, ∀ v ∈ held s, ((R.prune v.version).run s).1 = .ok ()
  /-- Pruning removes that version. -/
  prune_held : ∀ s, ∀ v ∈ held s,
    held ((R.prune v.version).run s).2 = (held s).filter fun w ↦ w.version ≠ v.version

/-- How many versions a tick prunes of a plan that is long enough. -/
def batch (s : List VersionMeta) : ℕ :=
  if R.maxPrunePerTick > 0 then R.maxPrunePerTick.toNat else (R.policy.plan now s).2.length

variable {R now} {held : σ → List VersionMeta} (hR : R.Lawful held)

include hR in
/-- **What `Apply` does** with a lawful pruner, for different versions that are held. -/
theorem apply_of_lawful {plan : List VersionMeta} (hdistinct : Distinct plan) {s : σ}
    (hplan : ∀ v ∈ plan, v ∈ held s) :
    (apply R.prune plan s).1 = ⟨plan.map VersionMeta.version, none⟩ ∧
      held (apply R.prune plan s).2 = without (held s) plan := by
  induction plan generalizing s with
  | nil => exact ⟨rfl, (without_nil _).symm⟩
  | cons v plan ih =>
    have hok := hR.prune_ok s v (hplan v List.mem_cons_self)
    have hheld := hR.prune_held s v (hplan v List.mem_cons_self)
    rcases hrun : (R.prune v.version).run s with ⟨r, t⟩
    rw [hrun] at hok hheld
    obtain rfl : r = .ok () := hok
    obtain ⟨hv, hdistinct⟩ := List.nodup_cons.1 hdistinct
    obtain ⟨hdone, hrest⟩ := @ih hdistinct t (by
      -- The others are other versions, and still held.
      intro w hw
      rw [hheld, List.mem_filter, decide_eq_true_iff]
      exact ⟨hplan w (List.mem_cons_of_mem _ hw), fun h ↦ hv (h ▸ List.mem_map_of_mem hw)⟩)
    rw [apply, hrun]
    refine ⟨?_, ?_⟩
    · show (⟨v.version :: (apply R.prune plan t).1.done, (apply R.prune plan t).1.err⟩ : Pruned) = _
      rw [hdone]
      rfl
    · show held (apply R.prune plan t).2 = _
      rw [hrest, hheld, ← List.singleton_append, ← without_without]
      congr 1
      exact List.filter_congr fun w _ ↦ by simp

include hR in
/-- **What a `Tick` does** with a lawful store: it prunes the front of the plan. -/
theorem tick_of_lawful {s : σ} (hs : Distinct (held s)) :
    (R.tick now s).1 =
      ⟨((R.policy.plan now (held s)).2.take (R.batch now (held s))).map VersionMeta.version, none⟩ ∧
      held (R.tick now s).2 =
        without (held s) ((R.policy.plan now (held s)).2.take (R.batch now (held s))) := by
  have hok := hR.list_ok s
  have hheld := hR.list_held s
  rcases hrun : R.list.run s with ⟨r, t⟩
  rw [hrun] at hok hheld
  obtain rfl : r = .ok (held s) := hok
  have htake : (if R.maxPrunePerTick > 0 ∧
      ((R.policy.plan now (held s)).2.length : ℤ) > R.maxPrunePerTick then
        (R.policy.plan now (held s)).2.take R.maxPrunePerTick.toNat
      else (R.policy.plan now (held s)).2) =
      (R.policy.plan now (held s)).2.take (R.batch now (held s)) := by
    by_cases hm : R.maxPrunePerTick > 0
    · rw [batch, if_pos hm]
      split
      · rfl
      · rw [List.take_of_length_le (by omega)]
    · rw [batch, if_neg hm, if_neg fun h ↦ hm h.1, List.take_length]
  rw [tick, hrun]
  show (apply R.prune (if _ then _ else _) t).1 = _ ∧
    held (apply R.prune (if _ then _ else _) t).2 = _
  rw [htake]
  -- What is pruned is part of the plan, and the plan of what is held.
  have hsub : ((R.policy.plan now (held s)).2.take (R.batch now (held s))).Sublist
      ((R.policy.plan now (held s)).1 ++ (R.policy.plan now (held s)).2) :=
    (List.take_sublist _ _).trans (List.sublist_append_right _ _)
  have hperm : ((R.policy.plan now (held s)).1 ++ (R.policy.plan now (held s)).2).Perm (held s) :=
    RetentionPolicy.perm_plan _
  have hdistinct : Distinct ((R.policy.plan now (held s)).2.take (R.batch now (held s))) :=
    List.Nodup.sublist (hsub.map _) ((hperm.map _).nodup_iff.2 hs)
  have hmem : ∀ v ∈ (R.policy.plan now (held s)).2.take (R.batch now (held s)), v ∈ held t :=
    fun v hv ↦ hheld ▸ hperm.mem_iff.1 (hsub.subset hv)
  obtain ⟨hdone, hrest⟩ := apply_of_lawful hR hdistinct hmem
  exact ⟨hdone, hrest.trans (by rw [hheld])⟩

include hR in
/-- **One tick further.** From a state in which the first `n` versions of the plan are gone, a tick
prunes the next batch. -/
theorem tick_of_held {s t : σ} (hs : Distinct (held s)) {n : ℕ}
    (ht : held t = without (held s) ((R.policy.plan now (held s)).2.take n)) :
    (R.tick now t).1 = ⟨(((R.policy.plan now (held s)).2.drop n).take
        (R.batch now (held s))).map VersionMeta.version, none⟩ ∧
      held (R.tick now t).2 = without (held s)
        ((R.policy.plan now (held s)).2.take (n + R.batch now (held s))) := by
  have hplan : (R.policy.plan now (held t)).2 = (R.policy.plan now (held s)).2.drop n := by
    rw [ht, RetentionPolicy.plan_without hs]
  -- Without a bound the batch is the whole plan, and what is left of it is no longer than that.
  have hbatch : (R.policy.plan now (held t)).2.take (R.batch now (held t)) =
      ((R.policy.plan now (held s)).2.drop n).take (R.batch now (held s)) := by
    rw [hplan, batch, batch]
    split
    · rfl
    · rw [hplan, List.take_length, List.take_of_length_le]
      rw [List.length_drop]
      exact Nat.sub_le _ _
  have hdistinct : Distinct (held t) := by
    rw [ht]
    exact hs.without _
  obtain ⟨hdone, hheld⟩ := @tick_of_lawful σ R now held hR t hdistinct
  rw [hbatch] at hdone hheld
  refine ⟨hdone, ?_⟩
  rw [hheld, ht, without_without, List.take_add]

include hR in
/-- **After so many ticks**, the front of the plan is gone, one batch for each tick. -/
theorem held_ticked {s : σ} (hs : Distinct (held s)) (k : ℕ) :
    held (R.ticked now k s) = without (held s)
        ((R.policy.plan now (held s)).2.take (k * R.batch now (held s))) := by
  induction k with
  | zero =>
    rw [Nat.zero_mul, List.take_zero, without_nil]
    rfl
  | succ k ih =>
    rw [ticked, Function.iterate_succ_apply']
    exact (tick_of_held hR hs ih).2.trans (by rw [Nat.succ_mul])

/-- The number of ticks that prune something. -/
def needed (R : Retainer σ) (now : ℤ) (vs : List VersionMeta) : ℕ :=
  if R.maxPrunePerTick > 0 then
    ((R.policy.plan now vs).2.length + R.maxPrunePerTick.toNat - 1) / R.maxPrunePerTick.toNat
  else if (R.policy.plan now vs).2 = [] then 0 else 1

/-- The ticks needed are those up to the first that finds nothing to prune. -/
theorem needed_le_iff {vs : List VersionMeta} {k : ℕ} :
    R.needed now vs ≤ k ↔ (R.policy.plan now vs).2.length ≤ k * R.batch now vs := by
  rw [needed, batch]
  by_cases hm : R.maxPrunePerTick > 0
  · have hpos : 0 < R.maxPrunePerTick.toNat := by omega
    rw [if_pos hm, if_pos hm, Nat.div_le_iff_le_mul_add_pred hpos, Nat.mul_comm]
    omega
  · rw [if_neg hm, if_neg hm]
    rcases hp : (R.policy.plan now vs).2 with _ | ⟨v, l⟩
    · simp
    · rw [if_neg (by simp)]
      constructor
      · intro hk
        exact Nat.le_mul_of_pos_left _ hk
      · intro hk
        by_contra hzero
        obtain rfl : k = 0 := by omega
        simp at hk

/-- A tick finds nothing to prune exactly when the needed ones are done. -/
theorem batch_eq_nil_iff {vs : List VersionMeta} {k : ℕ} :
    ((R.policy.plan now vs).2.drop (k * R.batch now vs)).take (R.batch now vs) = [] ↔
      R.needed now vs ≤ k := by
  rw [needed_le_iff, List.take_eq_nil_iff, List.drop_eq_nil_iff]
  constructor
  · rintro (h | h)
    · rw [batch] at h ⊢
      split at h
      · omega
      · rw [h]
        exact Nat.zero_le _
    · exact h
  · exact Or.inr

/-- One round of `Converge`, whose tick raised no error. -/
theorem convergeFrom_succ {t u : σ} {pruned : List Version}
    (h : R.tick now t = (⟨pruned, none⟩, u)) (maxTicks : ℤ) (n : ℕ) (all : List Version) :
    R.convergeFrom now maxTicks (n + 1) all t =
      if pruned = [] then (⟨all, none⟩, u)
      else R.convergeFrom now maxTicks n (all ++ pruned) u := by
  rw [convergeFrom, h]
  rcases pruned with _ | ⟨v, l⟩
  · show ((⟨all ++ [], none⟩ : Pruned), u) = _
    rw [List.append_nil, if_pos rfl]
  · rfl

include hR in
/-- **The loop of `Converge`**, entered after `k` ticks that pruned: it ends well exactly when
enough ticks are left, and has then pruned the rest of the plan. -/
theorem convergeFrom_of_held {s : σ} (hs : Distinct (held s)) (maxTicks : ℤ) (n : ℕ) {k : ℕ}
    (hk : k ≤ R.needed now (held s)) {t : σ} (all : List Version)
    (ht : held t = without (held s)
      ((R.policy.plan now (held s)).2.take (k * R.batch now (held s)))) :
    ((R.convergeFrom now maxTicks n all t).1.err = none ↔ R.needed now (held s) < k + n) ∧
      ((R.convergeFrom now maxTicks n all t).1.err = none →
        (R.convergeFrom now maxTicks n all t).1.done = all ++ ((R.policy.plan now (held s)).2.drop
          (k * R.batch now (held s))).map VersionMeta.version ∧
        held (R.convergeFrom now maxTicks n all t).2 =
          without (held s) (R.policy.plan now (held s)).2) := by
  induction n generalizing k t all with
  | zero => exact ⟨iff_of_false (by simp [convergeFrom]) (by omega), fun h ↦ absurd h (by
      simp [convergeFrom])⟩
  | succ n ih =>
    obtain ⟨hdone, hheld⟩ := tick_of_held hR hs ht
    rcases hrun : R.tick now t with ⟨⟨pruned, err⟩, u⟩
    rw [hrun] at hdone hheld
    obtain ⟨rfl, rfl⟩ := Pruned.mk.inj hdone
    rw [convergeFrom_succ hrun]
    by_cases hneed : R.needed now (held s) ≤ k
    · -- Nothing is left to prune: this is the observing tick.
      have hlen := needed_le_iff.1 hneed
      rw [if_pos (List.map_eq_nil_iff.2 (batch_eq_nil_iff.2 hneed)),
        List.drop_eq_nil_of_le hlen, List.map_nil, List.append_nil]
      refine ⟨iff_of_true rfl (by omega), fun _ ↦ ⟨rfl, ?_⟩⟩
      rw [hheld, List.take_of_length_le (by omega)]
    · rw [if_neg fun h ↦ hneed (batch_eq_nil_iff.1 (List.map_eq_nil_iff.1 h))]
      obtain ⟨hiff, hres⟩ := ih (k := k + 1) (by omega) (all ++ _)
        (hheld.trans (by rw [Nat.succ_mul]))
      refine ⟨hiff.trans (by omega), fun h ↦ ?_⟩
      obtain ⟨hdone', hheld'⟩ := hres h
      refine ⟨?_, hheld'⟩
      rw [hdone', List.append_assoc, ← List.map_append, Nat.succ_mul, ← List.drop_drop,
        List.take_append_drop]

end Retainer

/-- **Retention is bounded, safe and convergent.** Let `(keep, prune)` be the plan for the versions
a store holds. After `k` ticks the first `k` batches of `prune` are gone and nothing else; no tick
prunes a version of `keep`, nor more than `MaxPrunePerTick` where that is positive; and `Converge`
returns nil exactly when it may tick more often than there are batches, in which case it returns
`prune` in order and leaves exactly `keep`. -/
theorem retention_converges {σ : Type} {R : Retainer σ} {held : σ → List VersionMeta}
    (hR : R.Lawful held) (s : σ) (hs : Distinct (held s)) (now : ℤ) :
    let keep := (R.policy.plan now (held s)).1
    let prune := (R.policy.plan now (held s)).2
    let m := R.maxPrunePerTick
    (∀ k : ℕ, held (R.ticked now k s) = without (held s) (prune.take
      (if m > 0 then min (k * m.toNat) prune.length else if k ≥ 1 then prune.length else 0))) ∧
    (∀ k : ℕ, (R.tick now (R.ticked now k s)).1.err = none ∧
      (∀ v ∈ keep, v.version ∉ (R.tick now (R.ticked now k s)).1.done) ∧
      (m > 0 → ((R.tick now (R.ticked now k s)).1.done.length : ℤ) ≤ m)) ∧
    ∀ maxTicks : ℤ,
      ((R.converge now maxTicks s).1.err = none ↔
        ((if m > 0 then (prune.length + m.toNat - 1) / m.toNat
          else if prune = [] then 0 else 1 : ℕ) : ℤ) < maxTicks) ∧
      ((R.converge now maxTicks s).1.err = none →
        (R.converge now maxTicks s).1.done = prune.map VersionMeta.version ∧
        held (R.converge now maxTicks s).2 = without (held s) prune ∧
        (held (R.converge now maxTicks s).2).Perm keep) := by
  intro keep prune m
  have hperm : (keep ++ prune).Perm (held s) := RetentionPolicy.perm_plan _
  have hdistinct : Distinct (keep ++ prune ++ []) := by
    rw [List.append_nil]
    exact ((hperm.map _).nodup_iff).2 hs
  refine ⟨fun k ↦ ?_, fun k ↦ ?_, fun maxTicks ↦ ?_⟩
  · rw [Retainer.held_ticked hR hs, Retainer.batch]
    congr 1
    by_cases hm : m > 0
    · rw [if_pos hm, if_pos hm, ← List.take_take, List.take_length]
    · rw [if_neg hm, if_neg hm]
      rcases k with _ | k
      · simp
      · rw [if_pos (by omega), List.take_length,
          List.take_of_length_le (Nat.le_mul_of_pos_left _ k.succ_pos)]
  · obtain ⟨hdone, -⟩ := Retainer.tick_of_held hR hs (@Retainer.held_ticked σ R now held hR s hs k)
    rw [hdone]
    refine ⟨rfl, fun v hv hmem ↦ ?_, fun hm ↦ ?_⟩
    · obtain ⟨w, hw, hwv⟩ := List.mem_map.1 hmem
      have hwp : w ∈ prune := List.mem_of_mem_drop (List.mem_of_mem_take hw)
      rw [List.append_nil, Distinct, List.map_append, List.nodup_append] at hdistinct
      exact hdistinct.2.2 v.version (List.mem_map_of_mem hv) w.version (List.mem_map_of_mem hwp)
        hwv.symm
    · rw [List.length_map, List.length_take, Retainer.batch, if_pos hm]
      omega
  · have hstart : held s = without (held s) (prune.take (0 * R.batch now (held s))) := by
      rw [Nat.zero_mul, List.take_zero, without_nil]
    obtain ⟨hiff, hres⟩ := Retainer.convergeFrom_of_held hR hs maxTicks maxTicks.toNat
      (Nat.zero_le _) [] hstart
    rw [Nat.zero_add] at hiff
    have hneeded : R.needed now (held s) < maxTicks.toNat ↔
        ((R.needed now (held s) : ℕ) : ℤ) < maxTicks := by omega
    refine ⟨hiff.trans hneeded, fun h ↦ ?_⟩
    obtain ⟨hdone, hheld⟩ := hres h
    refine ⟨hdone.trans (by rw [Nat.zero_mul, List.drop_zero, List.nil_append]), hheld, ?_⟩
    show (held (R.convergeFrom now maxTicks maxTicks.toNat [] s).2).Perm keep
    rw [hheld]
    have hfilter : (without (keep ++ prune ++ []) prune).Perm (without (held s) prune) := by
      rw [List.append_nil]
      exact hperm.filter _
    rw [without_of_append hdistinct, List.append_nil] at hfilter
    exact hfilter.symm

/-- A store that is the list of what it holds, with its pruner. -/
def listRetainer (p : RetentionPolicy) (m : ℤ) : Retainer (List VersionMeta) where
  list := fun vs ↦ (.ok vs, vs)
  policy := p
  prune v := fun vs ↦ (.ok (), vs.filter fun w ↦ w.version ≠ v)
  maxPrunePerTick := m

theorem lawful_listRetainer (p : RetentionPolicy) (m : ℤ) : (listRetainer p m).Lawful id :=
  ⟨fun _ ↦ rfl, fun _ ↦ rfl, fun _ _ _ ↦ rfl, fun _ _ _ ↦ rfl⟩

/-- A version of a given name and age. -/
def versionAt (name : Str) (created : ℤ) : VersionMeta :=
  ⟨⟨ascii name, ascii name, ascii "dev".toList⟩, created⟩

/-- Five versions, two to keep, one pruned a tick: three ticks do not suffice to converge, four
do. -/
theorem retention_converges_five :
    let vs := [versionAt "c".toList 3, versionAt "a".toList 1, versionAt "e".toList 5,
      versionAt "b".toList 2, versionAt "d".toList 4]
    let R := listRetainer ⟨2, 0⟩ 1
    (R.converge 9 3 vs).1.err ≠ none ∧ (R.converge 9 4 vs).1.err = none := by
  intro vs R
  have hvs : Distinct vs := by decide
  obtain ⟨-, -, hconverge⟩ := retention_converges (lawful_listRetainer ⟨2, 0⟩ 1) vs hvs 9
  have hprune : (RetentionPolicy.plan ⟨2, 0⟩ 9 vs).2 =
      [versionAt "c".toList 3, versionAt "b".toList 2, versionAt "a".toList 1] := by decide
  refine ⟨fun h ↦ ?_, ?_⟩
  · have := (hconverge 3).1.1 h
    rw [show (listRetainer ⟨2, 0⟩ 1).policy = ⟨2, 0⟩ from rfl, id, hprune] at this
    exact absurd this (by decide)
  · refine (hconverge 4).1.2 ?_
    rw [show (listRetainer ⟨2, 0⟩ 1).policy = ⟨2, 0⟩ from rfl, id, hprune]
    decide

end SourceOS.Mount
