import SourceOS.Foundation.Run

/-!
# One machine seen as another

A machine that takes small steps, or more steps than matter, seen as one that takes large ones: a
state stands for a state (`abs`), and a step for the steps of the other machine that it completes
(`emit`) — none, one or several. A run then stands for the run of what its steps emit
(`Refinement.abs_after`), so a fact about every run of the abstract machine is a fact about every
run of the concrete one.

Answers are compared after a projection on either side, as the two machines need not answer alike:
if what a step answers is what the steps it emits are answered, then so it is along a whole run
(`Refinement.filterMap_trace`).
-/

namespace SourceOS

namespace Machine

variable {σ τ α β ω υ ξ : Type*}

/-- `M`, seen as `N`. -/
structure Refinement (M : Machine σ α ω) (N : Machine τ β υ) where
  /-- What is known of the states of `M` that are reached. -/
  Inv : σ → Prop
  /-- The state of `N` that a state of `M` stands for. -/
  abs : σ → τ
  /-- The steps of `N` that a step of `M` completes. -/
  emit : σ → α → List β
  /-- A step keeps what is known. -/
  inv_step : ∀ s a, Inv s → Inv (M.step s a).1
  /-- A step is the steps it completes. -/
  abs_step : ∀ s a, Inv s → abs (M.step s a).1 = N.after (abs s) (emit s a)

namespace Refinement

variable {M : Machine σ α ω} {N : Machine τ β υ} (R : M.Refinement N)

/-- The steps of `N` that a run of `M` completes. -/
def emitted : σ → List α → List β
  | _, [] => []
  | s, a :: as => R.emit s a ++ emitted (M.step s a).1 as

@[simp] theorem emitted_nil (s : σ) : R.emitted s [] = [] := rfl

@[simp] theorem emitted_cons (s : σ) (a : α) (as : List α) :
    R.emitted s (a :: as) = R.emit s a ++ R.emitted (M.step s a).1 as := rfl

theorem inv_after {s : σ} (hs : R.Inv s) (as : List α) : R.Inv (M.after s as) :=
  Machine.inv_after hs R.inv_step as

/-- **A run is the run of what it completes.** -/
theorem abs_after {s : σ} (hs : R.Inv s) (as : List α) :
    R.abs (M.after s as) = N.after (R.abs s) (R.emitted s as) := by
  induction as generalizing s with
  | nil => rfl
  | cons a as ih =>
    rw [after_cons, ih (R.inv_step s a hs), R.abs_step s a hs, emitted_cons, after_append]

/-- **The answers of a run** are those of the run it stands for, if this is so of every step. -/
theorem filterMap_trace {f : α × ω → Option ξ} {g : β × υ → Option ξ}
    (hstep : ∀ s a, R.Inv s → (f (a, (M.step s a).2)).toList =
      (N.trace (R.abs s) (R.emit s a)).filterMap g) {s : σ} (hs : R.Inv s) (as : List α) :
    (M.trace s as).filterMap f = (N.trace (R.abs s) (R.emitted s as)).filterMap g := by
  induction as generalizing s with
  | nil => rfl
  | cons a as ih =>
    have hhead : (M.trace s (a :: as)).filterMap f =
        (f (a, (M.step s a).2)).toList ++ (M.trace (M.step s a).1 as).filterMap f := by
      rw [trace_cons, List.filterMap_cons]
      rcases f (a, (M.step s a).2) with _ | x <;> rfl
    rw [hhead, hstep s a hs, ih (R.inv_step s a hs), R.abs_step s a hs, emitted_cons,
      trace_append, List.filterMap_append]

end Refinement

end Machine

end SourceOS
