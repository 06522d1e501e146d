import Mathlib.Algebra.GroupWithZero.Nat
import Mathlib.Data.List.Induction
import Mathlib.Order.Basic

/-!
# Runs of a deterministic machine

The run substrate shared by every stateful component: a machine answers each input with an output
and a next state, and a **run** is a finite list of inputs taken in order. Nothing here knows what
the inputs are — a call with its clock readings and its faults, a request, a file operation — so
"any order of steps" is simply "any list".

Two objects are read off a run: the state reached (`after`), and the trace of inputs paired with
their answers (`trace`). The trace is what lets a statement talk about *which calls succeeded*
without adding a history variable to the state.

## The rules

* `inv_after` — an invariant of every step is an invariant of every run. The guarded form
  `inv_after_of_mem` asks for preservation only by the inputs that occur, so a condition on the
  calls of one run needs no global law.
* `inv_trace_of_mem` — the same for a property that ties the state to the history so far; this is
  how a log read off the trace is related to what the machine stores. `inv_trace_of_prefix` is the
  form for conditions on the state in which an input arrives.
* `sum_trace_eq_total` — **books**: if every answer states how much its step changes, the answers of
  a run add up to what the run changes. `Along` is a condition on each step of a run, in the state
  in which it is taken.
* `exists_place_of_after` — what a run has brought in came in at one of its steps.
* `rel_after` — a reflexive and transitive relation respected by every step relates the ends of
  every run; this is how "only grows" and "is a prefix of" pass from steps to runs.
* `countP_trace_le_one` — **at most once**: if an answer of some kind can only be given while a
  mark is unset, and giving it sets the mark for good, it is given at most once in any run.
-/

namespace SourceOS

/-- A deterministic machine: a step consumes an input and returns the next state with an answer. -/
structure Machine (σ α ω : Type*) where
  /-- One step. -/
  step : σ → α → σ × ω

namespace Machine

variable {σ α ω : Type*} (M : Machine σ α ω)

/-- The state reached from `s` by a run. -/
def after (M : Machine σ α ω) : σ → List α → σ
  | s, [] => s
  | s, a :: as => M.after (M.step s a).1 as

/-- The inputs of a run, each with the answer it got. -/
def trace (M : Machine σ α ω) : σ → List α → List (α × ω)
  | _, [] => []
  | s, a :: as => (a, (M.step s a).2) :: M.trace (M.step s a).1 as

@[simp] theorem after_nil (s : σ) : M.after s [] = s := rfl

@[simp] theorem after_cons (s : σ) (a : α) (as : List α) :
    M.after s (a :: as) = M.after (M.step s a).1 as := rfl

@[simp] theorem trace_nil (s : σ) : M.trace s [] = [] := rfl

@[simp] theorem trace_cons (s : σ) (a : α) (as : List α) :
    M.trace s (a :: as) = (a, (M.step s a).2) :: M.trace (M.step s a).1 as := rfl

/-- A run taken in two pieces. -/
theorem after_append (s : σ) (as bs : List α) :
    M.after s (as ++ bs) = M.after (M.after s as) bs := by
  induction as generalizing s with
  | nil => rfl
  | cons a as ih => exact ih _

theorem trace_append (s : σ) (as bs : List α) :
    M.trace s (as ++ bs) = M.trace s as ++ M.trace (M.after s as) bs := by
  induction as generalizing s with
  | nil => rfl
  | cons a as ih => rw [List.cons_append, trace_cons, ih, trace_cons, after_cons, List.cons_append]

variable {M}

/-- **Guarded invariance.** A property preserved by the inputs that occur holds after the run. -/
theorem inv_after_of_mem {I : σ → Prop} {s : σ} {as : List α} (hs : I s)
    (hstep : ∀ s, ∀ a ∈ as, I s → I (M.step s a).1) : I (M.after s as) := by
  induction as generalizing s with
  | nil => exact hs
  | cons a as ih =>
    exact ih (hstep s a List.mem_cons_self hs) fun s b hb ↦ hstep s b (List.mem_cons_of_mem _ hb)

/-- **Invariance.** -/
theorem inv_after {I : σ → Prop} {s : σ} (hs : I s) (hstep : ∀ s a, I s → I (M.step s a).1)
    (as : List α) : I (M.after s as) :=
  inv_after_of_mem hs fun s a _ ↦ hstep s a

/-- **Where it came in.** What holds after a run and did not hold before it came in at one of its
steps. -/
theorem exists_place_of_after {P : σ → Prop} {s : σ} {as : List α} (hs : ¬ P s)
    (h : P (M.after s as)) : ∃ pre a post, as = pre ++ a :: post ∧ ¬ P (M.after s pre) ∧
      P (M.step (M.after s pre) a).1 := by
  induction as generalizing s with
  | nil => exact absurd h hs
  | cons a as ih =>
    by_cases ha : P (M.step s a).1
    · exact ⟨[], a, as, rfl, hs, ha⟩
    · obtain ⟨pre, b, post, rfl, hpre, hb⟩ := ih ha h
      exact ⟨a :: pre, b, post, rfl, hpre, hb⟩

/-- **A reflexive, transitive relation passes from steps to runs.** -/
theorem rel_after {R : σ → σ → Prop} (hrefl : ∀ s, R s s)
    (htrans : ∀ {s t u}, R s t → R t u → R s u) (hstep : ∀ s a, R s (M.step s a).1) (s : σ)
    (as : List α) : R s (M.after s as) := by
  induction as generalizing s with
  | nil => exact hrefl s
  | cons a as ih => exact htrans (hstep s a) (ih _)

/-- **Invariance along the trace.** A property of the state and of the history so far that every
input of the run preserves holds at the end, of the state reached and of the whole trace. -/
theorem inv_trace_of_mem {I : σ → List (α × ω) → Prop} {s : σ} {as : List α} (hs : I s [])
    (hstep : ∀ s tr, ∀ a ∈ as, I s tr → I (M.step s a).1 (tr ++ [(a, (M.step s a).2)])) :
    I (M.after s as) (M.trace s as) := by
  induction as using List.reverseRecOn with
  | nil => exact hs
  | append_singleton as a ih =>
    rw [after_append, trace_append]
    exact hstep _ _ a (by simp)
      (ih fun s tr b hb ↦ hstep s tr b (List.mem_append_left _ hb))

/-- **Invariance along the prefixes.** The same, where a step may use how the run goes on to it. -/
theorem inv_trace_of_prefix {I : List α → σ → List (α × ω) → Prop} {s : σ} {as : List α}
    (hs : I [] s []) (hstep : ∀ pre a, pre ++ [a] <+: as → I pre (M.after s pre) (M.trace s pre) →
      I (pre ++ [a]) (M.step (M.after s pre) a).1
        (M.trace s pre ++ [(a, (M.step (M.after s pre) a).2)])) :
    I as (M.after s as) (M.trace s as) := by
  induction as using List.reverseRecOn with
  | nil => exact hs
  | append_singleton as a ih =>
    rw [after_append, trace_append]
    exact hstep as a List.prefix_rfl
      (ih fun pre b hb ↦ hstep pre b (hb.trans (List.prefix_append _ _)))

/-- Every step of a run meets a condition, in the state in which it is taken. -/
def Along (M : Machine σ α ω) (C : σ → α → Prop) : σ → List α → Prop
  | _, [] => True
  | s, a :: as => C s a ∧ M.Along C (M.step s a).1 as

/-- A quantity between consecutive states, summed over a run. -/
def total (M : Machine σ α ω) (d : σ → σ → ℕ) : σ → List α → ℕ
  | _, [] => 0
  | s, a :: as => d s (M.step s a).1 + M.total d (M.step s a).1 as

instance decidableAlong (C : σ → α → Prop) [∀ s a, Decidable (C s a)] :
    ∀ (s : σ) (as : List α), Decidable (M.Along C s as)
  | _, [] => inferInstanceAs (Decidable True)
  | s, a :: as =>
    have := decidableAlong C (M.step s a).1 as
    inferInstanceAs (Decidable (C s a ∧ M.Along C (M.step s a).1 as))

/-- A step of a run meets the condition, in the state that the steps before it lead to. -/
theorem Along.of_prefix {C : σ → α → Prop} {s : σ} {as pre : List α} {a : α} (h : M.Along C s as)
    (hpre : pre ++ [a] <+: as) : C (M.after s pre) a := by
  induction pre generalizing s as with
  | nil =>
    obtain ⟨as, rfl⟩ := hpre
    exact h.1
  | cons b pre ih =>
    obtain ⟨as, rfl⟩ := hpre
    exact ih h.2 ⟨as, rfl⟩

/-- **Books.** Where an invariant holds and a step meets the condition, its answer states how much
it changes: then the answers of a run add up to what the run changes. -/
theorem sum_trace_eq_total {I : σ → Prop} {C : σ → α → Prop} {f : ω → ℕ} {d : σ → σ → ℕ}
    (hstep : ∀ s a, I s → C s a → I (M.step s a).1 ∧ f (M.step s a).2 = d s (M.step s a).1)
    {s : σ} (hs : I s) {as : List α} (h : M.Along C s as) :
    ((M.trace s as).map fun x ↦ f x.2).sum = M.total d s as := by
  induction as generalizing s with
  | nil => rfl
  | cons a as ih =>
    obtain ⟨hinv, hbook⟩ := hstep s a hs h.1
    rw [trace_cons, List.map_cons, List.sum_cons, hbook, ih hinv h.2, total]

/-- **Two places of one run**: of two different inputs of a run, one comes before the other. -/
theorem place_cases {as bs cs ds : List α} {a c : α} (h : as ++ a :: bs = cs ++ c :: ds)
    (hne : a ≠ c) :
    (∃ mid, cs = as ++ a :: mid) ∨ ∃ mid, as = cs ++ c :: mid ∧ ds = mid ++ a :: bs := by
  rcases List.append_eq_append_iff.1 h with ⟨mid, hcs, htail⟩ | ⟨mid, has, htail⟩
  · rcases mid with _ | ⟨b, mid⟩
    · exact absurd (List.cons.inj htail).1 hne
    · obtain ⟨rfl, -⟩ := List.cons.inj htail
      exact Or.inl ⟨mid, hcs⟩
  · rcases mid with _ | ⟨b, mid⟩
    · exact absurd (List.cons.inj htail).1.symm hne
    · obtain ⟨rfl, hds⟩ := List.cons.inj htail
      exact Or.inr ⟨mid, has, hds⟩

section AtMostOnce

variable (Marked : σ → Prop) {fires : α × ω → Bool}

/-- Once the mark is set, the answer is never given again. -/
private theorem countP_trace_of_marked (hmono : ∀ s a, Marked s → Marked (M.step s a).1)
    (hfresh : ∀ s a, fires (a, (M.step s a).2) = true → ¬ Marked s) {s : σ} (hs : Marked s)
    (as : List α) : (M.trace s as).countP fires = 0 := by
  induction as generalizing s with
  | nil => rfl
  | cons a as ih =>
    rw [trace_cons, List.countP_cons_of_neg (fun h ↦ hfresh s a h hs)]
    exact ih (hmono s a hs)

/-- **At most once.** The answer is given only while the mark is unset and setting it is permanent,
so no run gives it twice. Nothing is asked of the other steps beyond keeping the mark. -/
theorem countP_trace_le_one (hmono : ∀ s a, Marked s → Marked (M.step s a).1)
    (hfresh : ∀ s a, fires (a, (M.step s a).2) = true → ¬ Marked s)
    (hset : ∀ s a, fires (a, (M.step s a).2) = true → Marked (M.step s a).1) (s : σ)
    (as : List α) : (M.trace s as).countP fires ≤ 1 := by
  induction as generalizing s with
  | nil => exact Nat.zero_le _
  | cons a as ih =>
    rw [trace_cons]
    by_cases h : fires (a, (M.step s a).2) = true
    · refine Nat.le_of_eq ?_
      rw [List.countP_cons_of_pos h, countP_trace_of_marked Marked hmono hfresh (hset s a h)]
    · rw [List.countP_cons_of_neg h]
      exact ih _

end AtMostOnce

end Machine

end SourceOS
