import Mathlib.Data.Char
import Mathlib.Data.List.Dedup
import Mathlib.Data.List.Lex
import Mathlib.Data.List.Sort
import Mathlib.Data.Set.List
import SourceOS.Foundation.Python

/-!
# Sets of JSON values

`set` and `sorted` of Python, on values that came out of `json.loads`. An array or an object cannot
be hashed. A number is equal to every number of the same value, whatever its type, and a set keeps
the one that was put in first. Only numbers, or only strings, can be sorted; one element alone need
not be compared. Where a call raises, the result is `none`.

An element is kept with its `Rank`, by which it is found and sorted. NaN has none of its own: it is
equal to nothing, and what is sorted with it depends on the order in which a set is walked.

On strings all of this is what one expects: `sorted?_setOf?_strings`.
-/

namespace SourceOS

namespace Json

/-! ### Ranks -/

/-- What a value that can be hashed is found by. -/
inductive Rank
  | null
  | number (v : FloatValue)
  | text (s : Str)
deriving DecidableEq

/-- The rank of a value that can be hashed. -/
def rank? (rt : Runtime) : Json → Option Rank
  | .null => some .null
  | .bool b => some (.number (.ofInt (if b then 1 else 0)))
  | .int n => some (.number (.ofInt n))
  | .float x => some (.number (rt.floatValue x))
  | .str s => some (.text s)
  | .arr _ | .obj _ => none

/-- Numbers. -/
def Rank.IsNumber : Rank → Prop
  | .number _ => True
  | _ => False

instance : DecidablePred Rank.IsNumber
  | .number _ => .isTrue trivial
  | .null | .text _ => .isFalse id

/-- Strings. -/
def Rank.IsText : Rank → Prop
  | .text _ => True
  | _ => False

instance : DecidablePred Rank.IsText
  | .text _ => .isTrue trivial
  | .null | .number _ => .isFalse id

/-- The order among numbers and among strings. -/
def Rank.le : Rank → Rank → Bool
  | .number v, .number w => v.le w
  | .text s, .text t => decide (s ≤ t)
  | _, _ => false

/-! ### Sets -/

/-- Of the elements of one key, the first. -/
def distinct {κ α : Type*} [DecidableEq κ] : List (κ × α) → List (κ × α)
  | [] => []
  | x :: xs => x :: (distinct xs).filter fun y ↦ y.1 ≠ x.1

section Distinct

variable {κ α : Type*} [DecidableEq κ]

theorem mem_of_mem_distinct {xs : List (κ × α)} {x : κ × α} (h : x ∈ distinct xs) : x ∈ xs := by
  induction xs with
  | nil => exact h
  | cons y xs ih =>
    rcases List.mem_cons.1 h with rfl | h
    · exact List.mem_cons_self
    · exact List.mem_cons_of_mem _ (ih (List.mem_filter.1 h).1)

/-- Every key is still there. -/
theorem mem_map_fst_distinct {xs : List (κ × α)} {k : κ} :
    k ∈ (distinct xs).map Prod.fst ↔ k ∈ xs.map Prod.fst := by
  induction xs with
  | nil => rfl
  | cons x xs ih =>
    rw [distinct, List.map_cons, List.map_cons, List.mem_cons, List.mem_cons, ← ih]
    refine or_congr_right' fun hne ↦ ?_
    simp only [List.mem_map, List.mem_filter, decide_eq_true_eq]
    constructor
    · rintro ⟨y, ⟨hy, -⟩, rfl⟩
      exact ⟨y, hy, rfl⟩
    · rintro ⟨y, hy, rfl⟩
      exact ⟨y, ⟨hy, hne⟩, rfl⟩

/-- No key is there twice. -/
theorem nodup_map_fst_distinct (xs : List (κ × α)) : ((distinct xs).map Prod.fst).Nodup := by
  induction xs with
  | nil => exact List.nodup_nil
  | cons x xs ih =>
    rw [distinct, List.map_cons, List.nodup_cons]
    refine ⟨?_, ih.sublist (List.filter_sublist.map _)⟩
    rintro h
    obtain ⟨y, hy, hyx⟩ := List.mem_map.1 h
    exact of_decide_eq_true (List.mem_filter.1 hy).2 hyx

end Distinct

/-- `set(xs)`. -/
def setOf? (rt : Runtime) (xs : List Json) : Option (List (Rank × Json)) :=
  (xs.mapM fun x ↦ (rank? rt x).map fun r ↦ (r, x)).map distinct

/-- The elements of the one that are not in the other. -/
def difference (s t : List (Rank × Json)) : List (Rank × Json) :=
  s.filter fun x ↦ x.1 ∉ t.map Prod.fst

/-- The elements can be compared, where there are two to compare. -/
def Sortable (s : List (Rank × Json)) : Prop :=
  s.length ≤ 1 ∨ (∀ x ∈ s, x.1.IsNumber) ∨ ∀ x ∈ s, x.1.IsText

instance (s : List (Rank × Json)) : Decidable (Sortable s) :=
  inferInstanceAs (Decidable (_ ∨ _))

/-- `sorted` of a set. -/
def sorted? (s : List (Rank × Json)) : Option (List Json) :=
  if Sortable s then some ((s.insertionSort fun x y ↦ x.1.le y.1 = true).map Prod.snd) else none

/-- What is sorted is what is in the set. -/
theorem mem_of_sorted? {s : List (Rank × Json)} {js : List Json} (h : sorted? s = some js) :
    ∀ j ∈ js, ∃ x ∈ s, x.2 = j := by
  rw [sorted?] at h
  split at h
  · rw [← Option.some.inj h]
    intro j hj
    obtain ⟨x, hx, rfl⟩ := List.mem_map.1 hj
    exact ⟨x, (List.perm_insertionSort _ _).mem_iff.1 hx, rfl⟩
  · cases h

/-- What is in a set can be hashed, and was put in. -/
theorem mem_of_setOf? {rt : Runtime} {xs : List Json} {s : List (Rank × Json)}
    (h : setOf? rt xs = some s) : ∀ x ∈ s, x.2 ∈ xs ∧ rank? rt x.2 = some x.1 := by
  obtain ⟨ys, hys, rfl⟩ := Option.map_eq_some_iff.1 h
  intro x hx
  replace hx := mem_of_mem_distinct hx
  clear h
  induction xs generalizing ys with
  | nil =>
    obtain rfl := Option.some.inj hys
    exact absurd hx List.not_mem_nil
  | cons y xs ih =>
    rw [List.mapM_cons] at hys
    obtain ⟨p, hp, hys⟩ := Option.bind_eq_some_iff.1 hys
    obtain ⟨ps, hps, hys⟩ := Option.bind_eq_some_iff.1 hys
    obtain rfl := Option.some.inj hys
    obtain ⟨r, hr, rfl⟩ := Option.map_eq_some_iff.1 hp
    rcases List.mem_cons.1 hx with rfl | hx
    · exact ⟨List.mem_cons_self, hr⟩
    · obtain ⟨hmem, hrank⟩ := ih ps hps hx
      exact ⟨List.mem_cons_of_mem _ hmem, hrank⟩

/-! ### Strings -/

/-- A string as an element. -/
def textElement (s : Str) : Rank × Json :=
  (.text s, .str s)

theorem setOf?_strings (rt : Runtime) (ss : List Str) :
    setOf? rt (ss.map .str) = some (distinct (ss.map textElement)) := by
  have hmap : (ss.map Json.str).mapM (fun x ↦ (rank? rt x).map fun r ↦ (r, x)) =
      some (ss.map textElement) := by
    induction ss with
    | nil => rfl
    | cons s ss ih =>
      rw [List.map_cons, List.mapM_cons, ih]
      rfl
  rw [setOf?, hmap, Option.map_some]

/-- A set of strings has each of them once. -/
theorem exists_distinct_textElement (ss : List Str) : ∃ us : List Str,
    distinct (ss.map textElement) = us.map textElement ∧ us.Perm ss.dedup := by
  have helement : distinct (ss.map textElement) ∈ Set.range (List.map textElement) := by
    rw [Set.range_list_map]
    intro x hx
    obtain ⟨s, -, rfl⟩ := List.mem_map.1 (mem_of_mem_distinct hx)
    exact ⟨s, rfl⟩
  obtain ⟨us, hus⟩ := helement
  have hrank : ∀ vs : List Str, (vs.map textElement).map Prod.fst = vs.map Rank.text := by
    intro vs
    rw [List.map_map]
    rfl
  have hnodup : us.Nodup := by
    have h := nodup_map_fst_distinct (ss.map textElement)
    rw [← hus, hrank] at h
    exact h.of_map _
  refine ⟨us, hus.symm, (List.perm_ext_iff_of_nodup hnodup ss.nodup_dedup).2 fun s ↦ ?_⟩
  have hmem := @mem_map_fst_distinct _ _ _ (ss.map textElement) (.text s)
  rwa [← hus, hrank, hrank, List.mem_map_of_injective fun _ _ ↦ Rank.text.inj,
    List.mem_map_of_injective fun _ _ ↦ Rank.text.inj, ← List.mem_dedup (l := ss)] at hmem

/-- Distinct strings are sorted as strings are. -/
theorem sorted?_textElements (us : List Str) :
    sorted? (us.map textElement) = some ((us.insertionSort (· ≤ ·)).map .str) := by
  have hsortable : Sortable (us.map textElement) := by
    refine Or.inr (Or.inr fun x hx ↦ ?_)
    obtain ⟨s, -, rfl⟩ := List.mem_map.1 hx
    exact trivial
  rw [sorted?, if_pos hsortable, ← List.map_insertionSort (· ≤ ·) _ textElement us
    fun s _ t _ ↦ decide_eq_true_iff.symm, List.map_map]
  rfl

/-- Strings in order, without repetitions, are determined by which they are. -/
theorem insertionSort_eq_of_perm {us vs : List Str} (h : us.Perm vs) :
    us.insertionSort (· ≤ ·) = vs.insertionSort (· ≤ ·) :=
  have hperm := ((List.perm_insertionSort _ us).trans h).trans (List.perm_insertionSort _ vs).symm
  hperm.eq_of_pairwise
    (fun _ _ _ _ ↦ le_antisymm) (List.pairwise_insertionSort _ us)
    (List.pairwise_insertionSort _ vs)

/-- **Strings as a set**, in order, and **what one set of strings has and the other has not**. -/
theorem sorted?_setOf?_strings (rt : Runtime) (ss ts : List Str) : ∃ s t,
    setOf? rt (ss.map .str) = some s ∧ setOf? rt (ts.map .str) = some t ∧
      sorted? s = some ((ss.dedup.insertionSort (· ≤ ·)).map .str) ∧
      sorted? (difference s t) =
        some (((ss.filter (· ∉ ts)).dedup.insertionSort (· ≤ ·)).map .str) := by
  obtain ⟨us, hus, hperm⟩ := exists_distinct_textElement ss
  obtain ⟨vs, hvs, hperm'⟩ := exists_distinct_textElement ts
  refine ⟨_, _, setOf?_strings rt ss, setOf?_strings rt ts, ?_, ?_⟩
  · rw [hus, sorted?_textElements, insertionSort_eq_of_perm hperm]
  · have hdiff : difference (us.map textElement) (vs.map textElement) =
        (us.filter (· ∉ ts)).map textElement := by
      rw [difference, List.filter_map]
      congr 1
      refine List.filter_congr fun s _ ↦ decide_eq_decide.2 (not_congr ?_)
      have hrank : (vs.map textElement).map Prod.fst = vs.map Rank.text := by
        rw [List.map_map]
        rfl
      show Rank.text s ∈ _ ↔ _
      rw [hrank, List.mem_map_of_injective fun _ _ ↦ Rank.text.inj, hperm'.mem_iff,
        List.mem_dedup]
    rw [hus, hvs, hdiff, sorted?_textElements]
    have hfilter : (us.filter (· ∉ ts)).Perm (ss.filter (· ∉ ts)).dedup := by
      have hnodup : (us.filter (· ∉ ts)).Nodup := (hperm.nodup_iff.2 ss.nodup_dedup).filter _
      refine (List.perm_ext_iff_of_nodup hnodup (List.nodup_dedup _)).2 fun s ↦ ?_
      rw [List.mem_dedup, List.mem_filter, List.mem_filter, hperm.mem_iff, List.mem_dedup]
    rw [insertionSort_eq_of_perm hfilter]

end Json

end SourceOS
