import SourceOS.Foundation.Effect

/-!
# Computations that check

A computation that goes through a number of checks and raises at the first one that fails. What it
establishes by returning is a proposition, and the checks are complete if the computation raises
exactly where that does not hold: `Decides E P x`, with `E` for what may be raised.

Checks one after the other decide a conjunction (`Decides.seq`), a loop of checks decides a
statement about all items (`Decides.each`), and an exception that is caught and raised again under
another name leaves what is decided as it is (`Decides.catching`). A value that is computed on the
way (`Yields`) is one that exists (`Yields.decides_bind`).
-/

namespace SourceOS

namespace Effect

variable {ε σ α β γ : Type}

/-- The computation returns if `P` holds, and raises one of the exceptions `E` if not. -/
def Decides (E : ε → Prop) (P : Prop) (x : Effect ε σ α) : Prop :=
  ∀ s, (P ∧ ∃ a s', x.run s = (.ok a, s')) ∨ ¬ P ∧ ∃ e s', E e ∧ x.run s = (.error e, s')

/-- One check after the other. -/
def each (f : α → Effect ε σ Unit) : List α → Effect ε σ Unit
  | [] => pure ()
  | a :: as => do
    f a
    each f as

/-- `try: … except …`, for the exceptions that `caught` picks out. -/
def catching (caught : ε → Option γ) (x : Effect ε σ α) (handler : γ → Effect ε σ α) :
    Effect ε σ α := fun s ↦
  match x.run s with
  | (.ok a, s') => (.ok a, s')
  | (.error e, s') =>
    match caught e with
    | some c => (handler c).run s'
    | none => (.error e, s')

section

variable {caught : ε → Option γ} {x : Effect ε σ α} {handler : γ → Effect ε σ α} {s s' : σ}

theorem run_catching_of_ok {a : α} (h : x.run s = (.ok a, s')) :
    (catching caught x handler).run s = (.ok a, s') := by
  show (match x.run s with | (.ok a, s') => _ | (.error e, s') => _) = _
  rw [h]

theorem run_catching_of_none {e : ε} (h : x.run s = (.error e, s')) (he : caught e = none) :
    (catching caught x handler).run s = (.error e, s') := by
  show (match x.run s with | (.ok a, s') => _ | (.error e, s') => _) = _
  rw [h]
  show (match caught e with | some c => _ | none => _) = _
  rw [he]

theorem run_catching_of_some {e : ε} {c : γ} (h : x.run s = (.error e, s'))
    (he : caught e = some c) : (catching caught x handler).run s = (handler c).run s' := by
  show (match x.run s with | (.ok a, s') => _ | (.error e, s') => _) = _
  rw [h]
  show (match caught e with | some c => _ | none => _) = _
  rw [he]

end

section

variable {E F : ε → Prop} {P Q : Prop} {x : Effect ε σ α}

/-- What is decided may be said in other words, and more may be raised. -/
theorem Decides.imp (h : Decides E P x) (hPQ : P ↔ Q) (hEF : ∀ e, E e → F e) : Decides F Q x := by
  intro s
  rw [← hPQ]
  exact (h s).imp_right (And.imp_right fun ⟨e, s', he, hrun⟩ ↦ ⟨e, s', hEF e he, hrun⟩)

theorem Decides.congr (h : Decides E P x) (hPQ : P ↔ Q) : Decides E Q x :=
  h.imp hPQ fun _ ↦ id

theorem decides_pure (a : α) : Decides E True (Pure.pure a : Effect ε σ α) :=
  fun s ↦ Or.inl ⟨trivial, a, s, rfl⟩

theorem decides_raise {e : ε} (he : E e) : Decides E False (raise e : Effect ε σ α) :=
  fun s ↦ Or.inr ⟨not_false, e, s, he, rfl⟩

/-- **Checks one after the other** decide both: the second is made if the first has passed. -/
theorem Decides.seq (hx : Decides E P x) {f : α → Effect ε σ β}
    (hf : P → ∀ a, Decides E Q (f a)) : Decides E (P ∧ Q) (x >>= f) := by
  intro s
  rcases hx s with ⟨hP, a, s', hrun⟩ | ⟨hP, e, s', he, hrun⟩
  · rw [run_bind_of_ok hrun]
    rcases hf hP a s' with ⟨hQ, h⟩ | ⟨hQ, h⟩
    · exact Or.inl ⟨⟨hP, hQ⟩, h⟩
    · exact Or.inr ⟨fun h' ↦ hQ h'.2, h⟩
  · rw [run_bind_of_error hrun]
    exact Or.inr ⟨fun h' ↦ hP h'.1, e, s', he, rfl⟩

/-- A computation that only has a value to give, if there is one. -/
def Yields {δ : Type} (E : ε → Prop) (r : Except δ α) (x : Effect ε σ α) : Prop :=
  ∀ s, (∃ a, r = .ok a ∧ x.run s = (.ok a, s)) ∨
    ∃ d e s', r = .error d ∧ E e ∧ x.run s = (.error e, s')

theorem yields_ofExcept {δ : Type} {g : δ → ε} (hg : ∀ d, E (g d)) (r : Except δ α) :
    Yields E r (ofExcept (r.mapError g) : Effect ε σ α) := by
  intro s
  cases r with
  | error d => exact Or.inr ⟨d, g d, s, rfl, hg d, rfl⟩
  | ok a => exact Or.inl ⟨a, rfl, rfl⟩

theorem Yields.mono {δ : Type} {r : Except δ α} (h : Yields E r x) (hEF : ∀ e, E e → F e) :
    Yields F r x := fun s ↦
  (h s).imp_right fun ⟨d, e, s', hr, he, hrun⟩ ↦ ⟨d, e, s', hr, hEF e he, hrun⟩

/-- A value that is computed from a value. -/
theorem Yields.bind {δ : Type} {r : Except δ α} {k : α → Except δ β} {f : α → Effect ε σ β}
    (hx : Yields E r x) (hf : ∀ a, r = .ok a → Yields E (k a) (f a)) :
    Yields E (r >>= k) (x >>= f) := by
  intro s
  rcases hx s with ⟨a, rfl, hrun⟩ | ⟨d, e, s', rfl, he, hrun⟩
  · rw [run_bind_of_ok hrun]
    exact hf a rfl s
  · rw [run_bind_of_error hrun]
    exact Or.inr ⟨d, e, s', rfl, he, rfl⟩

/-- **A value that is computed on the way** is one that exists. -/
theorem Yields.decides_bind {δ : Type} {r : Except δ α} {f : α → Effect ε σ β} {Q : α → Prop}
    (hx : Yields E r x) (hf : ∀ a, r = .ok a → Decides E (Q a) (f a)) :
    Decides E (∃ a, r = .ok a ∧ Q a) (x >>= f) := by
  intro s
  rcases hx s with ⟨a, rfl, hrun⟩ | ⟨d, e, s', rfl, he, hrun⟩
  · rw [run_bind_of_ok hrun]
    refine (hf a rfl s).imp (And.imp_left fun hQ ↦ ⟨a, rfl, hQ⟩)
      (And.imp_left fun hQ ⟨b, hb, h⟩ ↦ hQ ?_)
    rwa [Except.ok.inj hb]
  · rw [run_bind_of_error hrun]
    exact Or.inr ⟨by simp, e, s', he, rfl⟩

/-- A value whose exception is caught and raised again. -/
theorem Yields.catching {δ : Type} {r : Except δ α} {caught : ε → Option γ}
    {handler : γ → Effect ε σ α} (hx : Yields E r x)
    (hkeep : ∀ e, E e → caught e = none → F e) (hhandler : ∀ c, Decides F False (handler c)) :
    Yields F r (catching caught x handler) := by
  intro s
  rcases hx s with ⟨a, rfl, hrun⟩ | ⟨d, e, s', rfl, he, hrun⟩
  · exact Or.inl ⟨a, rfl, run_catching_of_ok hrun⟩
  · rcases hc : caught e with _ | c
    · exact Or.inr ⟨d, e, s', rfl, hkeep e he hc, run_catching_of_none hrun hc⟩
    · rw [run_catching_of_some hrun hc]
      rcases hhandler c s' with ⟨hfalse, -⟩ | ⟨-, e', s'', h⟩
      · exact hfalse.elim
      · exact Or.inr ⟨d, e', s'', rfl, h⟩

/-- **A loop of checks** decides whether all items pass. -/
theorem Decides.each {f : α → Effect ε σ Unit} {P : α → Prop} {as : List α}
    (h : ∀ a ∈ as, Decides E (P a) (f a)) : Decides E (∀ a ∈ as, P a) (each f as) := by
  induction as with
  | nil => exact (decides_pure ()).congr (by simp)
  | cons a as ih =>
    obtain ⟨ha, has⟩ := List.forall_mem_cons.1 h
    exact (ha.seq fun _ _ ↦ ih has).congr List.forall_mem_cons.symm

/-- **An exception that is caught** ends the computation all the same, if its handler raises. -/
theorem Decides.catching {caught : ε → Option γ} {handler : γ → Effect ε σ α}
    (hx : Decides E P x) (hkeep : ∀ e, E e → caught e = none → F e)
    (hhandler : ∀ c, Decides F False (handler c)) : Decides F P (catching caught x handler) := by
  intro s
  rcases hx s with ⟨hP, a, s', hrun⟩ | ⟨hP, e, s', he, hrun⟩
  · exact Or.inl ⟨hP, a, s', run_catching_of_ok hrun⟩
  · rcases hc : caught e with _ | c
    · exact Or.inr ⟨hP, e, s', hkeep e he hc, run_catching_of_none hrun hc⟩
    · rw [run_catching_of_some hrun hc]
      rcases hhandler c s' with ⟨hfalse, -⟩ | ⟨-, h⟩
      · exact hfalse.elim
      · exact Or.inr ⟨hP, h⟩

end

end Effect

end SourceOS
