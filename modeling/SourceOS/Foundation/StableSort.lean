import Mathlib.Data.List.Sort

/-!
# Stable sorting

A stable sort by a total preorder has one result only, so `List.insertionSort` stands for any of
them. What a program that sorts, forgets some entries and sorts again needs to know is that the
order of the others is not disturbed: **sorting commutes with leaving entries out**
(`insertionSort_filter`). Entries of one rank stay as they were (`filter_insertionSort_of_ties`).
-/

namespace SourceOS

variable {α : Type*} {r : α → α → Prop} [DecidableRel r]

/-- Inserting an entry and leaving entries out, of a sorted list. -/
theorem filter_orderedInsert [IsTrans α r] (q : α → Bool) (a : α) {l : List α}
    (hl : l.Pairwise r) : (l.orderedInsert r a).filter q =
      if q a then (l.filter q).orderedInsert r a else l.filter q := by
  induction l with
  | nil =>
    rw [List.orderedInsert_nil, List.filter_nil, List.orderedInsert_nil]
    rcases h : q a with _ | _
    · simp [h]
    · simp [h]
  | cons b l ih =>
    obtain ⟨hb, hl⟩ := List.pairwise_cons.1 hl
    by_cases hab : r a b
    · rw [List.orderedInsert_cons_of_le r l hab]
      rcases ha : q a with _ | _
      · simp [ha]
      · -- Whatever is left of the list, its first entry is not before `a`.
        have hall : ∀ c ∈ (b :: l).filter q, r a c := by
          intro c hc
          rcases List.mem_cons.1 (List.mem_filter.1 hc).1 with rfl | hc
          · exact hab
          · exact IsTrans.trans a b c hab (hb c hc)
        rw [if_pos rfl, List.filter_cons_of_pos ha]
        rcases hfilter : (b :: l).filter q with _ | ⟨c, m⟩
        · rfl
        · rw [hfilter] at hall
          rw [List.orderedInsert_cons_of_le r m (hall c List.mem_cons_self)]
    · rw [List.orderedInsert_of_not_le r l hab]
      rcases hq : q b with _ | _
      · rw [List.filter_cons_of_neg (by simp [hq]), List.filter_cons_of_neg (by simp [hq]), ih hl]
      · rw [List.filter_cons_of_pos hq, List.filter_cons_of_pos hq, ih hl]
        rcases q a with _ | _
        · rfl
        · rw [if_pos rfl, if_pos rfl, List.orderedInsert_of_not_le r _ hab]

/-- **Sorting commutes with leaving entries out.** -/
theorem insertionSort_filter [IsTrans α r] [Std.Total r] (q : α → Bool) (l : List α) :
    (l.filter q).insertionSort r = (l.insertionSort r).filter q := by
  induction l with
  | nil => rfl
  | cons a l ih =>
    rw [List.insertionSort_cons, filter_orderedInsert q a (List.pairwise_insertionSort r l), ← ih]
    rcases h : q a with _ | _
    · rw [List.filter_cons_of_neg (by simp [h])]
      rfl
    · rw [List.filter_cons_of_pos h, List.insertionSort_cons, if_pos rfl]

/-- **Ties keep their order.** Entries none of which is before another are left as they were. -/
theorem filter_insertionSort_of_ties [IsTrans α r] [Std.Total r] {q : α → Bool}
    (hq : ∀ a b, q a = true → q b = true → r a b) (l : List α) :
    (l.insertionSort r).filter q = l.filter q := by
  rw [← insertionSort_filter]
  refine List.Pairwise.insertionSort_eq (List.pairwise_of_forall_mem_list fun a ha b hb ↦ ?_)
  exact hq a b (List.mem_filter.1 ha).2 (List.mem_filter.1 hb).2

end SourceOS
