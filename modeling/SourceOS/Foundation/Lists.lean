import Mathlib.Data.List.Forall2

/-!
# Members of lists

What is said about single members of lists that a log or a table is compared with.

* `exists_of_forall₂`, `exists_forall₂` — members of lists related one by one have partners, both
  ways, and lists of partners are related one by one.
* `lookup_eq_some_iff_mem` — in a table of distinct keys, what is looked up is what is in it.
* `ExactlyOne P l` — one place of the list has the property and no other has. Where the property
  implies a filter it may be proved on the filtered list (`ExactlyOne.of_filter`), and where it is
  a relation to the members of another list that tells these apart, on a list related to that one
  (`exactlyOne_of_forall₂`).
* `append_cons_inj_of_notMem` — what stands before the first separator of a list can be read off.
* `mapM_eq_ok_iff` — a conversion that may fail succeeds on a list when it does on every member.
* `mapM_map_eq_some` — a list whose members are read back is read back.
-/

namespace SourceOS

/-- Related lists have related members, both ways. -/
theorem exists_of_forall₂ {α β : Type*} {R : α → β → Prop} {as : List α} {bs : List β}
    (h : List.Forall₂ R as bs) :
    (∀ b ∈ bs, ∃ a ∈ as, R a b) ∧ ∀ a ∈ as, ∃ b ∈ bs, R a b := by
  induction h with
  | nil => simp
  | @cons a b as bs hab _ ih =>
    constructor
    · intro b' hb'
      rcases List.mem_cons.1 hb' with rfl | hb'
      · exact ⟨a, List.mem_cons_self, hab⟩
      · obtain ⟨a', ha', hab'⟩ := ih.1 b' hb'
        exact ⟨a', List.mem_cons_of_mem _ ha', hab'⟩
    · intro a' ha'
      rcases List.mem_cons.1 ha' with rfl | ha'
      · exact ⟨b, List.mem_cons_self, hab⟩
      · obtain ⟨b', hb', hab'⟩ := ih.2 a' ha'
        exact ⟨b', List.mem_cons_of_mem _ hb', hab'⟩

/-- Members that all have partners are related to the list of these. -/
theorem exists_forall₂ {α β : Type*} {R : α → β → Prop} {as : List α}
    (h : ∀ a ∈ as, ∃ b, R a b) : ∃ bs, List.Forall₂ R as bs := by
  induction as with
  | nil => exact ⟨[], .nil⟩
  | cons a as ih =>
    obtain ⟨b, hb⟩ := h a List.mem_cons_self
    obtain ⟨bs, hbs⟩ := ih fun a' ha' ↦ h a' (List.mem_cons_of_mem _ ha')
    exact ⟨b :: bs, .cons hb hbs⟩

/-- A table of distinct keys is looked up by membership. -/
theorem lookup_eq_some_iff_mem {κ β : Type*} [BEq κ] [LawfulBEq κ] {l : List (κ × β)}
    (h : (l.map Prod.fst).Nodup) {k : κ} {v : β} : l.lookup k = some v ↔ (k, v) ∈ l := by
  induction l with
  | nil => simp
  | cons m l ih =>
    obtain ⟨hm, hl⟩ := List.nodup_cons.1 h
    rw [List.lookup_cons, List.mem_cons]
    rcases hkm : k == m.1 with _ | _
    · rw [ih hl]
      have hne : (k, v) ≠ m := fun hkv ↦ by simp [← hkv] at hkm
      simp [hne]
    · obtain rfl := eq_of_beq hkm
      constructor
      · rintro ⟨⟩
        exact Or.inl rfl
      · rintro (hkv | hmem)
        · exact congrArg (fun m ↦ some m.2) hkv.symm
        · exact absurd (List.mem_map_of_mem hmem) hm

/-- One member of a list has the property, and it stands there once. -/
def ExactlyOne {α : Type*} (P : α → Prop) (l : List α) : Prop :=
  ∃ pre x post, l = pre ++ x :: post ∧ P x ∧ (∀ y ∈ pre, ¬ P y) ∧ ∀ y ∈ post, ¬ P y

/-- What is left out of a list without the property does not matter. -/
theorem ExactlyOne.of_filter {α : Type*} {P : α → Prop} {l : List α} {p : α → Bool}
    (h : ExactlyOne P (l.filter p)) (hp : ∀ x, P x → p x = true) : ExactlyOne P l := by
  induction l with
  | nil => exact h
  | cons a l ih =>
    by_cases ha : p a = true
    · rw [List.filter_cons_of_pos ha] at h
      obtain ⟨pre, x, post, heq, hx, hpre, hpost⟩ := h
      rcases pre with _ | ⟨b, pre⟩
      · obtain ⟨rfl, rfl⟩ := List.cons.inj heq
        exact ⟨[], a, l, rfl, hx, by simp,
          fun y hy hPy ↦ hpost y (List.mem_filter.2 ⟨hy, hp y hPy⟩) hPy⟩
      · obtain ⟨rfl, htail⟩ := List.cons.inj heq
        obtain ⟨pre', x', post', rfl, hx', hpre', hpost'⟩ :=
          ih ⟨pre, x, post, htail, hx, fun y hy ↦ hpre y (List.mem_cons_of_mem _ hy), hpost⟩
        refine ⟨a :: pre', x', post', rfl, hx', fun y hy ↦ ?_, hpost'⟩
        rcases List.mem_cons.1 hy with rfl | hy
        · exact hpre y List.mem_cons_self
        · exact hpre' y hy
    · rw [List.filter_cons_of_neg ha] at h
      obtain ⟨pre, x, post, rfl, hx, hpre, hpost⟩ := ih h
      refine ⟨a :: pre, x, post, rfl, hx, fun y hy ↦ ?_, hpost⟩
      rcases List.mem_cons.1 hy with rfl | hy
      · exact fun hPy ↦ ha (hp y hPy)
      · exact hpre y hy

/-- Of lists related one by one, where what is related to one thing has the same key: a member has
one partner, if the keys are different. -/
theorem exactlyOne_of_forall₂ {α β κ : Type*} {R : α → β → Prop} {key : α → κ} {as : List α}
    {bs : List β} (h : List.Forall₂ R as bs) (hkeys : (as.map key).Nodup)
    (hR : ∀ {a a' b}, R a b → R a' b → key a = key a') {a : α} (ha : a ∈ as) :
    ExactlyOne (R a) bs := by
  induction h with
  | nil => exact absurd ha List.not_mem_nil
  | @cons a' b as bs hab hbs ih =>
    obtain ⟨hfresh, hkeys⟩ := List.nodup_cons.1 hkeys
    rcases List.mem_cons.1 ha with rfl | ha
    · refine ⟨[], b, bs, rfl, hab, by simp, fun b' hb' hab' ↦ hfresh ?_⟩
      obtain ⟨a', ha', hab''⟩ := (exists_of_forall₂ hbs).1 b' hb'
      rw [hR hab' hab'']
      exact List.mem_map_of_mem ha'
    · obtain ⟨pre, x, post, rfl, hx, hpre, hpost⟩ := ih hkeys ha
      refine ⟨b :: pre, x, post, rfl, hx, fun y hy hRy ↦ ?_, hpost⟩
      rcases List.mem_cons.1 hy with rfl | hy
      · exact hfresh (hR hab hRy ▸ List.mem_map_of_mem ha)
      · exact hpre y hy hRy

/-- **What stands before the first separator** is determined, and so is what follows it. -/
theorem append_cons_inj_of_notMem {α : Type*} {a : α} {x y s t : List α} (hx : a ∉ x) (hy : a ∉ y)
    (h : x ++ a :: s = y ++ a :: t) : x = y ∧ s = t := by
  induction x generalizing y with
  | nil =>
    rcases y with _ | ⟨b, y⟩
    · exact ⟨rfl, (List.cons.inj h).2⟩
    · exact absurd (List.cons.inj h).1 (List.ne_of_not_mem_cons hy)
  | cons b x ih =>
    rcases y with _ | ⟨c, y⟩
    · exact absurd (List.cons.inj h).1.symm (List.ne_of_not_mem_cons hx)
    · obtain ⟨hbc, hrest⟩ := List.cons.inj h
      obtain ⟨hxy, hst⟩ :=
        ih (List.not_mem_of_not_mem_cons hx) (List.not_mem_of_not_mem_cons hy) hrest
      exact ⟨by rw [hbc, hxy], hst⟩

/-- **A conversion of a list succeeds** exactly with the results of its members. -/
theorem mapM_eq_ok_iff {ε α β : Type} {f : α → Except ε β} {xs : List α} {ys : List β} :
    xs.mapM f = .ok ys ↔ List.Forall₂ (fun x y ↦ f x = .ok y) xs ys := by
  induction xs generalizing ys with
  | nil =>
    rw [List.mapM_nil, List.forall₂_nil_left_iff]
    exact ⟨fun h ↦ (Except.ok.inj h).symm, fun h ↦ by rw [h]; rfl⟩
  | cons x xs ih =>
    rw [List.mapM_cons, List.forall₂_cons_left_iff]
    cases hx : f x with
    | error e =>
      constructor
      · intro h
        exact absurd h (by simp [bind, Except.bind])
      · rintro ⟨y, _, hy, -⟩
        exact absurd hy (by simp)
    | ok y =>
      cases hxs : xs.mapM f with
      | error e =>
        constructor
        · intro h
          exact absurd h (by simp [bind, Except.bind])
        · rintro ⟨_, zs, -, hzs, -⟩
          rw [ih.2 hzs] at hxs
          exact absurd hxs (by simp)
      | ok zs =>
        constructor
        · intro h
          obtain rfl := Except.ok.inj h
          exact ⟨y, zs, rfl, ih.1 hxs, rfl⟩
        · rintro ⟨y', zs', hy, hzs, rfl⟩
          rw [ih.2 hzs] at hxs
          rw [Except.ok.inj hy, Except.ok.inj hxs]
          rfl

/-- Where every value is read back from what it is written as, so is a list of them. -/
theorem mapM_map_eq_some {α β : Type} {f : β → Option α} {g : α → β} (h : ∀ a, f (g a) = some a)
    (as : List α) : (as.map g).mapM f = some as := by
  induction as with
  | nil => rfl
  | cons a as ih =>
    rw [List.map_cons, List.mapM_cons, h, ih]
    rfl

end SourceOS
