import Mathlib.Data.List.Basic

/-!
# A ledger whose entries can be retired

The plain history a store with deletion stands for: entries are only ever added, and deletion is a
mark on the entry. What a store *holds* is then the list of unmarked entries (`live`), what it has
*ever accepted* is the list of all entries (`all`), and a statement about deletion compares the two.

* `live_record` and `live_retire` are the step rules: on the live entries, recording appends and
  retiring filters. A store that does these two things to its rows is simulated by the ledger.
* `filter_live` is the **irrelevance of deletion**: a question that no retired entry satisfies has
  the same answer over the live entries as over the whole history. The side condition `Spares` is an
  invariant, kept by every `record` and by every `retire` of entries the question excludes.
-/

namespace SourceOS

/-- A history of entries, each with a mark that says whether it has been retired. -/
structure Ledger (α : Type*) where
  /-- The entries in the order they were recorded. -/
  entries : List (α × Bool)

namespace Ledger

variable {α : Type*}

/-- No entries. -/
def empty : Ledger α := ⟨[]⟩

/-- A new entry. -/
def record (l : Ledger α) (a : α) : Ledger α :=
  ⟨l.entries ++ [(a, false)]⟩

/-- The entries that satisfy `p` are marked; marks are never removed. -/
def retire (l : Ledger α) (p : α → Bool) : Ledger α :=
  ⟨l.entries.map fun e ↦ (e.1, e.2 || p e.1)⟩

/-- Everything ever recorded. -/
def all (l : Ledger α) : List α :=
  l.entries.map Prod.fst

/-- The entries that are not retired. -/
def live (l : Ledger α) : List α :=
  (l.entries.filter fun e ↦ !e.2).map Prod.fst

/-- No retired entry satisfies `q`. -/
def Spares (q : α → Bool) (l : Ledger α) : Prop :=
  ∀ e ∈ l.entries, e.2 = true → q e.1 = false

@[simp] theorem all_empty : (empty : Ledger α).all = [] := rfl

@[simp] theorem live_empty : (empty : Ledger α).live = [] := rfl

@[simp] theorem all_record (l : Ledger α) (a : α) : (l.record a).all = l.all ++ [a] := by
  simp [all, record]

@[simp] theorem live_record (l : Ledger α) (a : α) : (l.record a).live = l.live ++ [a] := by
  simp [live, record]

@[simp] theorem all_retire (l : Ledger α) (p : α → Bool) : (l.retire p).all = l.all := by
  simp [all, retire]

theorem live_subset_all (l : Ledger α) : l.live ⊆ l.all := by
  intro a ha
  obtain ⟨e, he, rfl⟩ := List.mem_map.1 ha
  exact List.mem_map_of_mem (List.mem_filter.1 he).1

/-- **Retiring filters the live entries.** -/
theorem live_retire (l : Ledger α) (p : α → Bool) :
    (l.retire p).live = l.live.filter fun a ↦ !p a := by
  obtain ⟨entries⟩ := l
  induction entries with
  | nil => rfl
  | cons e es ih =>
    obtain ⟨a, retired⟩ := e
    simp only [live, retire, List.map_cons, List.filter_cons] at ih ⊢
    cases retired <;> cases hp : p a <;> simp [hp, ih]

theorem spares_empty (q : α → Bool) : Spares q (empty : Ledger α) :=
  fun _ he ↦ absurd he List.not_mem_nil

theorem Spares.record {q : α → Bool} {l : Ledger α} (h : Spares q l) (a : α) :
    Spares q (l.record a) := by
  intro e he hret
  rcases List.mem_append.1 he with he | he
  · exact h e he hret
  · rw [List.mem_singleton.1 he] at hret
    exact absurd hret Bool.false_ne_true

theorem Spares.retire {q p : α → Bool} {l : Ledger α} (h : Spares q l)
    (hp : ∀ a, p a = true → q a = false) : Spares q (l.retire p) := by
  intro e he hret
  obtain ⟨e', he', rfl⟩ := List.mem_map.1 he
  rcases Bool.or_eq_true_iff.1 hret with hret | hret
  · exact h e' he' hret
  · exact hp e'.1 hret

/-- **Deletion is irrelevant** to a question that no retired entry satisfies. -/
theorem filter_live {q : α → Bool} {l : Ledger α} (h : Spares q l) :
    l.live.filter q = l.all.filter q := by
  obtain ⟨entries⟩ := l
  induction entries with
  | nil => rfl
  | cons e es ih =>
    obtain ⟨a, retired⟩ := e
    have ih := ih fun e he ↦ h e (List.mem_cons_of_mem _ he)
    simp only [live, all] at ih ⊢
    cases retired with
    | false => simp [List.filter_cons, ih]
    | true =>
      have hq : q a = false := h (a, true) List.mem_cons_self rfl
      simp [hq, ih]

end Ledger

end SourceOS
