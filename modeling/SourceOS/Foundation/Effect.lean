import Mathlib.Logic.Basic

/-!
# Computations that may raise, and do not undo

A computation on a state that returns a value or raises an exception. Raising ends the computation
**and keeps the state as it is**: nothing is rolled back, so what was done before the exception has
been done. (`ExceptT` over `StateM` is the same type; it has a name of its own here for the rules.)

* `bind_cases` takes a sequence apart: the first half raised and that was all, or it returned and
  the second half did the rest.
* `Frames get x` says that `x` leaves the part `get` of the state alone, whether it raises or not;
  frames compose (`Frames.bind`), and this is how "everything else is unchanged" is proved for a
  whole operation.
* `Steps R x` says that `x` takes every state to one it is related to; for a preorder `R` this
  composes as well (`Steps.bind`).
-/

namespace SourceOS

/-- A result of a computation without a state went through both of its halves. -/
theorem exists_of_bind_eq_ok {ε α β : Type} {x : Except ε α} {f : α → Except ε β} {b : β}
    (h : x >>= f = .ok b) : ∃ a, x = .ok a ∧ f a = .ok b := by
  cases x with
  | error e => exact absurd h (by simp [bind, Except.bind])
  | ok a => exact ⟨a, rfl, h⟩

theorem ok_bind {ε α β : Type} (a : α) (f : α → Except ε β) : Except.ok a >>= f = f a :=
  rfl

/-- A computation on states `σ` that returns an `α` or raises an `ε`. -/
def Effect (ε σ α : Type) := σ → Except ε α × σ

namespace Effect

variable {ε σ α β γ : Type}

/-- Run a computation from a state. -/
def run (x : Effect ε σ α) (s : σ) : Except ε α × σ := x s

instance : Monad (Effect ε σ) where
  pure a := fun s ↦ (.ok a, s)
  bind x f := fun s ↦
    match x s with
    | (.ok a, s') => f a s'
    | (.error e, s') => (.error e, s')

/-- Raise. -/
def raise (e : ε) : Effect ε σ α := fun s ↦ (.error e, s)

/-- A result that is already there. -/
def ofExcept (r : Except ε α) : Effect ε σ α := fun s ↦ (r, s)

/-- A computation on a part of the state. -/
def zoom {τ : Type} (get : σ → τ) (put : σ → τ → σ) (x : τ → Except ε α × τ) : Effect ε σ α :=
  fun s ↦ ((x (get s)).1, put s (x (get s)).2)

@[simp] theorem run_pure (a : α) (s : σ) : (pure a : Effect ε σ α).run s = (.ok a, s) := rfl

@[simp] theorem run_raise (e : ε) (s : σ) : (raise e : Effect ε σ α).run s = (.error e, s) := rfl

@[simp] theorem run_ofExcept (r : Except ε α) (s : σ) : (ofExcept r).run s = (r, s) := rfl

/-- A run, by its result. -/
theorem run_eq_of_result {x : Effect ε σ α} {s : σ} {r : Except ε α} (h : (x.run s).1 = r) :
    x.run s = (r, (x.run s).2) :=
  Prod.ext h rfl

theorem run_bind_of_ok {x : Effect ε σ α} {f : α → Effect ε σ β} {s s' : σ} {a : α}
    (h : x.run s = (.ok a, s')) : (x >>= f).run s = (f a).run s' := by
  show (match x s with | (.ok a, s') => f a s' | (.error e, s') => (.error e, s')) = _
  rw [show x s = (.ok a, s') from h]
  rfl

theorem run_bind_of_error {x : Effect ε σ α} {f : α → Effect ε σ β} {s s' : σ} {e : ε}
    (h : x.run s = (.error e, s')) : (x >>= f).run s = (.error e, s') := by
  show (match x s with | (.ok a, s') => f a s' | (.error e, s') => (.error e, s')) = _
  rw [show x s = (.error e, s') from h]

/-- **A sequence, taken apart.** -/
theorem bind_cases (x : Effect ε σ α) (f : α → Effect ε σ β) (s : σ) :
    (∃ e s', x.run s = (.error e, s') ∧ (x >>= f).run s = (.error e, s')) ∨
      ∃ a s', x.run s = (.ok a, s') ∧ (x >>= f).run s = (f a).run s' := by
  rcases h : x.run s with ⟨e | a, s'⟩
  · exact Or.inl ⟨e, s', rfl, run_bind_of_error h⟩
  · exact Or.inr ⟨a, s', rfl, run_bind_of_ok h⟩

/-- A sequence whose first half only has a result to give. -/
theorem read_bind_cases {x : Effect ε σ α} {r : Except ε α} {s : σ} (h : x.run s = (r, s))
    (f : α → Effect ε σ β) :
    (∃ e, r = .error e ∧ (x >>= f).run s = (.error e, s)) ∨
      ∃ a, r = .ok a ∧ (x >>= f).run s = (f a).run s := by
  rcases r with e | a
  · exact Or.inl ⟨e, rfl, run_bind_of_error h⟩
  · exact Or.inr ⟨a, rfl, run_bind_of_ok h⟩

/-- A sequence that returned went through both of its halves. -/
theorem exists_of_bind_ok {x : Effect ε σ α} {f : α → Effect ε σ β} {s : σ} {b : β}
    (h : ((x >>= f).run s).1 = .ok b) :
    ∃ a s', x.run s = (.ok a, s') ∧ ((f a).run s').1 = .ok b := by
  rcases bind_cases x f s with ⟨e, s', -, hbind⟩ | ⟨a, s', hx, hbind⟩
  · rw [hbind] at h
    exact absurd h (by simp)
  · rw [hbind] at h
    exact ⟨a, s', hx, h⟩

/-- A sequence that returned, with the states it went through. -/
theorem exists_of_run_bind_ok {x : Effect ε σ α} {f : α → Effect ε σ β} {s s' : σ} {b : β}
    (h : (x >>= f).run s = (.ok b, s')) :
    ∃ a s₁, x.run s = (.ok a, s₁) ∧ (f a).run s₁ = (.ok b, s') := by
  rcases bind_cases x f s with ⟨e, s₁, -, hbind⟩ | ⟨a, s₁, hx, hbind⟩
  · rw [hbind] at h
    exact absurd (Prod.mk.inj h).1 (by simp)
  · exact ⟨a, s₁, hx, hbind.symm.trans h⟩

/-- What raises in a sequence that only dresses up a result is the first half. -/
theorem error_of_bind_pure {x : Effect ε σ α} {f : α → β} {s : σ} {e : ε}
    (h : ((x >>= fun a ↦ pure (f a)).run s).1 = .error e) :
    (x.run s).1 = .error e ∧ ((x >>= fun a ↦ pure (f a)).run s).2 = (x.run s).2 := by
  rcases bind_cases x (fun a ↦ pure (f a)) s with ⟨e', s', hx, hbind⟩ | ⟨a, s', hx, hbind⟩
  · rw [hbind] at h ⊢
    rw [hx]
    exact ⟨congrArg _ (Except.error.inj h), rfl⟩
  · rw [hbind] at h
    exact absurd h (by simp)

/-- What a sequence that only dresses up a result returns is the dressed result of its first
half. -/
theorem exists_of_bind_pure_ok {x : Effect ε σ α} {f : α → β} {s : σ} {b : β}
    (h : ((x >>= fun a ↦ pure (f a)).run s).1 = .ok b) : ∃ a, (x.run s).1 = .ok a ∧ f a = b := by
  obtain ⟨a, s', hx, hpure⟩ := exists_of_bind_ok h
  exact ⟨a, by rw [hx], Except.ok.inj hpure⟩

/-- Dressing up a result leaves an exception as it is. -/
theorem bind_pure_error {x : Effect ε σ α} (f : α → β) {s : σ} {e : ε}
    (h : (x.run s).1 = .error e) : ((x >>= fun a ↦ pure (f a)).run s).1 = .error e := by
  rcases bind_cases x (fun a ↦ pure (f a)) s with ⟨e', s', hx, hbind⟩ | ⟨a, s', hx, -⟩
  · rw [hx] at h
    rw [hbind]
    exact congrArg _ (Except.error.inj h)
  · rw [hx] at h
    exact absurd h (by simp)

/-- The computation with another name for its errors. -/
def mapError {ε' : Type} (f : ε → ε') (x : Effect ε σ α) : Effect ε' σ α := fun s ↦
  ((x.run s).1.mapError f, (x.run s).2)

theorem run_mapError {ε' : Type} (f : ε → ε') (x : Effect ε σ α) (s : σ) :
    (x.mapError f).run s = ((x.run s).1.mapError f, (x.run s).2) := rfl

/-- The computation takes every state to one it is related to, whether it raises or not. -/
def Steps (R : σ → σ → Prop) (x : Effect ε σ α) : Prop :=
  ∀ s, R s (x.run s).2

theorem Steps.pure {R : σ → σ → Prop} (hrefl : ∀ s, R s s) (a : α) :
    Steps R (Pure.pure a : Effect ε σ α) :=
  fun s ↦ hrefl s

/-- **Steps of a transitive relation compose.** -/
theorem Steps.bind {R : σ → σ → Prop} (htrans : ∀ {s t u}, R s t → R t u → R s u)
    {x : Effect ε σ α} {f : α → Effect ε σ β} (hx : Steps R x) (hf : ∀ a, Steps R (f a)) :
    Steps R (x >>= f) := by
  intro s
  rcases bind_cases x f s with ⟨e, s', h, hbind⟩ | ⟨a, s', h, hbind⟩
  · rw [hbind]
    have := hx s
    rwa [h] at this
  · rw [hbind]
    have := hx s
    rw [h] at this
    exact htrans this (hf a s')

/-- The computation leaves a part of the state alone. -/
def Frames (get : σ → γ) (x : Effect ε σ α) : Prop :=
  ∀ s, get (x.run s).2 = get s

theorem Frames.pure {get : σ → γ} (a : α) : Frames get (Pure.pure a : Effect ε σ α) :=
  fun _ ↦ rfl

theorem Frames.raise {get : σ → γ} (e : ε) : Frames get (Effect.raise e : Effect ε σ α) :=
  fun _ ↦ rfl

theorem Frames.ofExcept {get : σ → γ} (r : Except ε α) :
    Frames get (Effect.ofExcept r : Effect ε σ α) :=
  fun _ ↦ rfl

/-- **Frames compose.** -/
theorem Frames.bind {get : σ → γ} {x : Effect ε σ α} {f : α → Effect ε σ β} (hx : Frames get x)
    (hf : ∀ a, Frames get (f a)) : Frames get (x >>= f) :=
  Steps.bind (R := fun s s' ↦ get s' = get s) (fun h h' ↦ h'.trans h) hx hf

/-- What a sequence does to a part of the state is what its first half does, if the second leaves
that part alone. -/
theorem run_bind_snd {get : σ → γ} {x : Effect ε σ α} {f : α → Effect ε σ β}
    (hf : ∀ a, Frames get (f a)) (s : σ) : get ((x >>= f).run s).2 = get (x.run s).2 := by
  rcases bind_cases x f s with ⟨e, s', hx, hbind⟩ | ⟨a, s', hx, hbind⟩
  · rw [hbind, hx]
  · rw [hbind, hx]
    exact hf a s'

/-- Dressing up a result leaves the state as it is. -/
theorem run_bind_pure_snd (x : Effect ε σ α) (f : α → β) (s : σ) :
    ((x >>= fun a ↦ pure (f a)).run s).2 = (x.run s).2 :=
  @run_bind_snd _ _ _ _ _ (fun s ↦ s) _ _ (fun a ↦ Frames.pure (f a)) s

end Effect

end SourceOS
