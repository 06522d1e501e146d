import SourceOS.Truth.Delta

/-!
# Dropping nulls

`drop_nulls` is nested in `build_surface` and once more in `build_delta`. Both copies filter the
members of an object on the result of the recursion as well, and the items of a list on the item
only; `buildSurface.dropNulls` and `buildDelta.dropNulls` are the two as they are written.

A value that is not null does not become null, so the second test of a member never decides. Both
copies are therefore `dropNulls`, which looks at the member alone, and **exactly the nulls are
removed** (`drop_nulls_exactly`): everything else stays under its key or in its place, and nothing
happens to a value without nulls.
-/

namespace SourceOS.Truth

open Json

/-- `x is None`. -/
def isNull : Json → Bool
  | .null => true
  | _ => false

/-! ### The two copies -/

mutual

/-- `drop_nulls` of `build_surface`. -/
def buildSurface.dropNulls : Json → Json
  | .obj ms => .obj (buildSurface.dropMembers ms)
  | .arr xs => .arr (buildSurface.dropItems xs)
  | j => j

/-- The members that are kept. -/
def buildSurface.dropMembers : Dict → Dict
  | [] => []
  | (k, v) :: ms =>
    if !isNull v && !isNull (buildSurface.dropNulls v) then
      (k, buildSurface.dropNulls v) :: buildSurface.dropMembers ms
    else buildSurface.dropMembers ms

/-- The items that are kept. -/
def buildSurface.dropItems : List Json → List Json
  | [] => []
  | v :: xs =>
    if !isNull v then buildSurface.dropNulls v :: buildSurface.dropItems xs
    else buildSurface.dropItems xs

end

mutual

/-- `drop_nulls` of `build_delta`. -/
def buildDelta.dropNulls : Json → Json
  | .obj ms => .obj (buildDelta.dropMembers ms)
  | .arr xs => .arr (buildDelta.dropItems xs)
  | j => j

/-- The members that are kept. -/
def buildDelta.dropMembers : Dict → Dict
  | [] => []
  | (k, v) :: ms =>
    if !isNull v && !isNull (buildDelta.dropNulls v) then
      (k, buildDelta.dropNulls v) :: buildDelta.dropMembers ms
    else buildDelta.dropMembers ms

/-- The items that are kept. -/
def buildDelta.dropItems : List Json → List Json
  | [] => []
  | v :: xs =>
    if !isNull v then buildDelta.dropNulls v :: buildDelta.dropItems xs
    else buildDelta.dropItems xs

end

/-! ### Both are `dropNulls` -/

/-- **Null comes from null only.** -/
theorem dropNulls_eq_null {j : Json} : dropNulls j = .null ↔ j = .null := by
  cases j <;> simp [dropNulls]

theorem isNull_dropNulls (j : Json) : isNull (dropNulls j) = isNull j := by
  cases j <;> rfl

/-- A member is kept if it is not null; what becomes of it does not matter. -/
theorem dropNullMembers_eq (k : Str) (v : Json) (ms : Dict) :
    dropNullMembers ((k, v) :: ms) =
      if !isNull v && !isNull (dropNulls v) then (k, dropNulls v) :: dropNullMembers ms
      else dropNullMembers ms := by
  -- the test of the result repeats the test of the value
  rw [isNull_dropNulls, Bool.and_self]
  cases v <;> rfl

theorem dropNullItems_eq (v : Json) (xs : List Json) :
    dropNullItems (v :: xs) =
      if !isNull v then dropNulls v :: dropNullItems xs else dropNullItems xs := by
  cases v <;> rfl

mutual

theorem buildSurface_dropNulls : ∀ j : Json, buildSurface.dropNulls j = dropNulls j
  | .null | .bool _ | .int _ | .float _ | .str _ => rfl
  | .arr xs => by rw [buildSurface.dropNulls, buildSurface_dropItems xs, dropNulls]
  | .obj ms => by rw [buildSurface.dropNulls, buildSurface_dropMembers ms, dropNulls]

theorem buildSurface_dropItems : ∀ xs : List Json, buildSurface.dropItems xs = dropNullItems xs
  | [] => rfl
  | v :: xs => by
    rw [buildSurface.dropItems, buildSurface_dropNulls v, buildSurface_dropItems xs,
      dropNullItems_eq]

theorem buildSurface_dropMembers : ∀ ms : Dict, buildSurface.dropMembers ms = dropNullMembers ms
  | [] => rfl
  | (k, v) :: ms => by
    rw [buildSurface.dropMembers, buildSurface_dropNulls v, buildSurface_dropMembers ms,
      dropNullMembers_eq]

end

mutual

theorem buildDelta_dropNulls : ∀ j : Json, buildDelta.dropNulls j = dropNulls j
  | .null | .bool _ | .int _ | .float _ | .str _ => rfl
  | .arr xs => by rw [buildDelta.dropNulls, buildDelta_dropItems xs, dropNulls]
  | .obj ms => by rw [buildDelta.dropNulls, buildDelta_dropMembers ms, dropNulls]

theorem buildDelta_dropItems : ∀ xs : List Json, buildDelta.dropItems xs = dropNullItems xs
  | [] => rfl
  | v :: xs => by
    rw [buildDelta.dropItems, buildDelta_dropNulls v, buildDelta_dropItems xs, dropNullItems_eq]

theorem buildDelta_dropMembers : ∀ ms : Dict, buildDelta.dropMembers ms = dropNullMembers ms
  | [] => rfl
  | (k, v) :: ms => by
    rw [buildDelta.dropMembers, buildDelta_dropNulls v, buildDelta_dropMembers ms,
      dropNullMembers_eq]

end

/-! ### What is kept -/

/-- **The items** are those that are not null, in their order. -/
theorem dropNullItems_eq_map (xs : List Json) :
    dropNullItems xs = (xs.filter fun x ↦ !isNull x).map dropNulls := by
  induction xs with
  | nil => rfl
  | cons x xs ih =>
    rw [dropNullItems_eq, ih, List.filter_cons]
    split <;> rfl

/-- **The members** are those that are not null, each under its key, in their order. -/
theorem dropNullMembers_eq_map (ms : Dict) :
    dropNullMembers ms =
      (ms.filter fun m ↦ !isNull m.2).map fun m ↦ (m.1, dropNulls m.2) := by
  induction ms with
  | nil => rfl
  | cons m ms ih =>
    rw [dropNullMembers_eq, isNull_dropNulls, Bool.and_self, ih, List.filter_cons]
    split <;> rfl

/-! ### Values without nulls -/

mutual

/-- No member of an object and no item of a list is null, at any depth. -/
def NullFree : Json → Prop
  | .arr xs => NullFreeItems xs
  | .obj ms => NullFreeMembers ms
  | _ => True

@[inherit_doc NullFree]
def NullFreeItems : List Json → Prop
  | [] => True
  | x :: xs => x ≠ .null ∧ NullFree x ∧ NullFreeItems xs

@[inherit_doc NullFree]
def NullFreeMembers : Dict → Prop
  | [] => True
  | (_, v) :: ms => v ≠ .null ∧ NullFree v ∧ NullFreeMembers ms

end

mutual

/-- **No nulls are left**, at any depth. -/
theorem nullFree_dropNulls : ∀ j : Json, NullFree (dropNulls j)
  | .null | .bool _ | .int _ | .float _ | .str _ => trivial
  | .arr xs => nullFreeItems_dropNullItems xs
  | .obj ms => nullFreeMembers_dropNullMembers ms

theorem nullFreeItems_dropNullItems : ∀ xs : List Json, NullFreeItems (dropNullItems xs)
  | [] => trivial
  | x :: xs => by
    by_cases hx : x = .null
    · subst hx
      exact nullFreeItems_dropNullItems xs
    · rw [dropNullItems_cons hx]
      exact ⟨mt dropNulls_eq_null.1 hx, nullFree_dropNulls x, nullFreeItems_dropNullItems xs⟩

theorem nullFreeMembers_dropNullMembers : ∀ ms : Dict, NullFreeMembers (dropNullMembers ms)
  | [] => trivial
  | (k, v) :: ms => by
    by_cases hv : v = .null
    · subst hv
      exact nullFreeMembers_dropNullMembers ms
    · rw [dropNullMembers_cons hv]
      exact ⟨mt dropNulls_eq_null.1 hv, nullFree_dropNulls v, nullFreeMembers_dropNullMembers ms⟩

end

mutual

/-- **Nothing happens to a value without nulls.** -/
theorem NullFree.dropNulls_eq : ∀ {j : Json}, NullFree j → dropNulls j = j
  | .null, _ | .bool _, _ | .int _, _ | .float _, _ | .str _, _ => rfl
  | .arr _, h => congrArg Json.arr (NullFreeItems.dropNullItems_eq h)
  | .obj _, h => congrArg Json.obj (NullFreeMembers.dropNullMembers_eq h)

theorem NullFreeItems.dropNullItems_eq : ∀ {xs : List Json}, NullFreeItems xs →
    dropNullItems xs = xs
  | [], _ => rfl
  | _ :: _, ⟨hx, hfree, hxs⟩ => by
    rw [dropNullItems_cons hx, hfree.dropNulls_eq, hxs.dropNullItems_eq]

theorem NullFreeMembers.dropNullMembers_eq : ∀ {ms : Dict}, NullFreeMembers ms →
    dropNullMembers ms = ms
  | [], _ => rfl
  | (_, _) :: _, ⟨hv, hfree, hms⟩ => by
    rw [dropNullMembers_cons hv, hfree.dropNulls_eq, hms.dropNullMembers_eq]

end

/-- A value is left as it is if and only if it has no nulls. -/
theorem dropNulls_eq_self_iff {j : Json} : dropNulls j = j ↔ NullFree j :=
  ⟨fun h ↦ h ▸ nullFree_dropNulls j, NullFree.dropNulls_eq⟩

/-- **Exactly the nulls are removed**, by either copy: none is left at any depth, a value without
any is left as it is, doing it twice is doing it once, and at every level the items and the members
that are not null are kept, in their order and under their keys. -/
theorem drop_nulls_exactly :
    buildSurface.dropNulls = buildDelta.dropNulls ∧
      ∀ x : Json,
        NullFree (buildSurface.dropNulls x) ∧
        (buildSurface.dropNulls x = x ↔ NullFree x) ∧
        buildSurface.dropNulls (buildSurface.dropNulls x) = buildSurface.dropNulls x ∧
        match x with
        | .arr xs => buildSurface.dropNulls x =
            .arr ((xs.filter fun v ↦ !isNull v).map buildSurface.dropNulls)
        | .obj ms => buildSurface.dropNulls x =
            .obj ((ms.filter fun m ↦ !isNull m.2).map fun m ↦ (m.1, buildSurface.dropNulls m.2))
        | _ => buildSurface.dropNulls x = x := by
  have hsurface : buildSurface.dropNulls = dropNulls := funext buildSurface_dropNulls
  have hdelta : buildDelta.dropNulls = dropNulls := funext buildDelta_dropNulls
  rw [hsurface, hdelta]
  refine ⟨rfl, fun x ↦ ⟨nullFree_dropNulls x, dropNulls_eq_self_iff,
    (nullFree_dropNulls x).dropNulls_eq, ?_⟩⟩
  cases x with
  | arr xs => exact congrArg Json.arr (dropNullItems_eq_map xs)
  | obj ms => exact congrArg Json.obj (dropNullMembers_eq_map ms)
  | _ => rfl

example : buildSurface.dropNulls (.obj [(['a'], .null), (['b'], .arr [.null, .bool false, .arr []]),
      (['c'], .obj [(['d'], .null)])]) =
    .obj [(['b'], .arr [.bool false, .arr []]), (['c'], .obj [])] :=
  rfl

end SourceOS.Truth
