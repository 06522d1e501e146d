import SourceOS.Foundation.Document

/-!
# JSON Schema

The keywords of JSON Schema (2020-12) that constrain the type of a value, its value, and the members
and items it has: `type`, `const`, `enum`, `pattern`, `required`, `minItems`, `uniqueItems`,
`properties`, `additionalProperties` and `items`. Each keyword applies to the values it is about and
says nothing of others: `pattern` of a number, `required` of a list. What a pattern matches is left
to whoever states it.

`accepts` computes whether a document is valid. The results take acceptance apart by type:
`accepts_object`, `accepts_array` and `accepts_string` say what is known of a document that a schema
of that type accepts.
-/

namespace SourceOS

namespace Document

/-- The equality of JSON values without parts: numbers by their value, but no boolean is a
number. -/
def sameScalar : Scalar → Scalar → Bool
  | .bool b, .bool c => b == c
  | .bool _, _ | _, .bool _ => false
  | x, y => decide (x.key = y.key)

mutual

/-- The equality of JSON values; the order of the members does not matter. -/
def same : Document → Document → Bool
  | .scalar x, .scalar y => sameScalar x y
  | .seq xs, .seq ys => sameItems xs ys
  | .map ms, .map ns => ms.length == ns.length && sameMembers ms ns
  | _, _ => false

/-- Items are compared in their order. -/
def sameItems : List Document → List Document → Bool
  | [], [] => true
  | x :: xs, y :: ys => same x y && sameItems xs ys
  | _, _ => false

/-- Members are compared by key. -/
def sameMembers : List (Scalar × Document) → List (Scalar × Document) → Bool
  | [], _ => true
  | (k, v) :: ms, ns => (match ns.lookup k with
    | some w => same v w
    | none => false) && sameMembers ms ns

end

/-- No two of the items are the same. -/
def distinct : List Document → Bool
  | [] => true
  | x :: xs => xs.all (fun y ↦ !same x y) && distinct xs

/-- A string is the same as nothing but itself. -/
theorem eq_of_same_str {d : Document} {s : PyStr} (h : d.same (.str s) = true) : d = .str s := by
  cases d with
  | scalar x =>
    have hkey : x.key = .str s := by
      cases x with
      | bool b => exact absurd h (by simp [same, sameScalar, str])
      | _ => exact of_decide_eq_true h
    rw [Scalar.eq_str_of_key hkey, str]
  | seq xs => exact absurd h (by simp [same, str])
  | map ms => exact absurd h (by simp [same, str])

end Document

namespace Schema

/-- The types of JSON values. -/
inductive JsonType
  | null
  | boolean
  | integer
  | number
  | string
  | array
  | object
deriving DecidableEq

/-- A value is of a type. A number without a fraction is an integer. -/
def isOfType (type : JsonType) : Document → Bool
  | .scalar .null => type = .null
  | .scalar (.bool _) => type = .boolean
  | .scalar (.int _) => type = .integer ∨ type = .number
  | .scalar (.float x) =>
    type = .number ∨ type = .integer ∧ (Scalar.float x).key ≠ .float x
  | .scalar (.str _) => type = .string
  | .scalar (.date _) => false
  | .seq _ => type = .array
  | .map _ => type = .object

/-- The keywords that look at a value without looking into its parts. -/
structure Assertions where
  type : Option JsonType := none
  const : Option Document := none
  enum : Option (List Document) := none
  pattern : Option (PyStr → Bool) := none
  required : List String := []
  minItems : ℕ := 0
  uniqueItems : Bool := false

/-- What these keywords say. -/
def Assertions.hold (a : Assertions) (d : Document) : Bool :=
  (a.type.all fun t ↦ isOfType t d) &&
  (a.const.all fun c ↦ d.same c) &&
  (a.enum.all fun cs ↦ cs.any fun c ↦ d.same c) &&
  match d with
  | .scalar (.str s) => a.pattern.all fun p ↦ p s
  | .seq xs => decide (a.minItems ≤ xs.length) && (!a.uniqueItems || Document.distinct xs)
  | .map ms => a.required.all fun k ↦ (ms.lookup (.lit k)).isSome
  | _ => true

end Schema

/-- A schema. What is not said about members or items is said by the schema `true`. -/
inductive Schema
  | all (b : Bool)
  | keywords (assertions : Schema.Assertions) (properties : List (String × Schema))
      (additionalProperties items : Schema)

namespace Schema

mutual

/-- **The documents that a schema accepts.** -/
def accepts : Schema → Document → Bool
  | .all b, _ => b
  | .keywords a properties additional items, d => a.hold d &&
    match d with
    | .map ms => ms.all fun m ↦ acceptsMember properties (accepts additional) m.1 m.2
    | .seq xs => xs.all (accepts items)
    | .scalar _ => true

/-- A member is checked by the schema of its name, or else by the one for all others. -/
def acceptsMember : List (String × Schema) → (Document → Bool) → Scalar → Document → Bool
  | [], others, _, v => others v
  | (name, s) :: properties, others, k, v =>
    if k = .lit name then accepts s v else acceptsMember properties others k v

end

/-- A string, and what else is said about it. -/
def text (a : Assertions) : Schema :=
  .keywords { a with type := some .string } [] (.all true) (.all true)

/-- An object with these members and no others. -/
def closed (required : List String) (properties : List (String × Schema)) : Schema :=
  .keywords { type := some .object, required := required } properties (.all false) (.all true)

/-! ### Acceptance, by type -/

variable {a : Assertions} {properties : List (String × Schema)} {additional items : Schema}
  {d : Document}

/-- Acceptance looks at a value first, and then at its parts. -/
theorem hold_of_accepts (h : (keywords a properties additional items).accepts d = true) :
    a.hold d = true ∧ match d with
      | .map ms =>
        (ms.all fun m ↦ acceptsMember properties (accepts additional) m.1 m.2) = true
      | .seq xs => xs.all (accepts items) = true
      | .scalar _ => True := by
  cases d with
  | map ms => exact Bool.and_eq_true_iff.1 h
  | seq xs => exact Bool.and_eq_true_iff.1 h
  | scalar x => exact ⟨(Bool.and_eq_true_iff.1 h).1, trivial⟩

/-- A member with a schema of its own is accepted by that. -/
theorem accepts_of_acceptsMember {others : Document → Bool} {name : String} {s : Schema}
    {v : Document} (hs : properties.lookup name = some s)
    (h : acceptsMember properties others (.lit name) v = true) : s.accepts v = true := by
  induction properties with
  | nil => exact absurd hs (by simp)
  | cons p properties ih =>
    obtain ⟨name', s'⟩ := p
    rw [acceptsMember] at h
    rw [List.lookup_cons] at hs
    -- the first schema of a name is the one that counts, here as in the lookup
    by_cases hname : name = name'
    · subst hname
      rw [beq_self_eq_true] at hs
      rw [if_pos rfl] at h
      rwa [← Option.some.inj hs]
    · rw [beq_eq_false_iff_ne.2 hname] at hs
      have hne : Scalar.lit name ≠ Scalar.lit name' := fun heq ↦ hname
        (String.toList_injective (PyStr.ofStr_injective (Scalar.str.inj heq)))
      rw [if_neg hne] at h
      exact ih hs h

/-- **An accepted object** has the members that are required, and every member is accepted by the
schema of its name. -/
theorem accepts_object (h : (keywords a properties additional items).accepts d = true)
    (ha : a.type = some .object) :
    (∀ name ∈ a.required, ∃ v, d.getItem name = .ok v) ∧
      ∀ name s v, properties.lookup name = some s → d.getItem name = .ok v →
        s.accepts v = true := by
  obtain ⟨hold, hmembers⟩ := hold_of_accepts h
  simp only [Assertions.hold, ha, Option.all_some, Bool.and_eq_true] at hold
  obtain ⟨⟨⟨htype, -⟩, -⟩, hrequired⟩ := hold
  cases d with
  | map ms =>
    refine ⟨fun name hname ↦ ?_, fun name s v hs hv ↦ ?_⟩
    · obtain ⟨v, hv⟩ := Option.isSome_iff_exists.1 (List.all_eq_true.1 hrequired name hname)
      exact ⟨v, by rw [Document.getItem, hv]⟩
    · obtain ⟨_, ⟨⟩, hmem⟩ := Document.exists_mem_of_getItem hv
      exact accepts_of_acceptsMember hs (List.all_eq_true.1 hmembers _ hmem)
  | seq xs => exact absurd htype (by simp [isOfType])
  | scalar x => cases x <;> exact absurd htype (by simp [isOfType])

/-- **An accepted array** has as many items as are required, and every item is accepted. -/
theorem accepts_array (h : (keywords a properties additional items).accepts d = true)
    (ha : a.type = some .array) :
    ∃ xs, d = .seq xs ∧ a.minItems ≤ xs.length ∧ ∀ x ∈ xs, items.accepts x = true := by
  obtain ⟨hold, hitems⟩ := hold_of_accepts h
  simp only [Assertions.hold, ha, Option.all_some, Bool.and_eq_true] at hold
  obtain ⟨⟨⟨htype, -⟩, -⟩, hrest⟩ := hold
  cases d with
  | seq xs =>
    rw [Bool.and_eq_true, decide_eq_true_eq] at hrest
    exact ⟨xs, rfl, hrest.1, List.all_eq_true.1 hitems⟩
  | map ms => exact absurd htype (by simp [isOfType])
  | scalar x => cases x <;> exact absurd htype (by simp [isOfType])

/-- **An accepted string** matches the pattern, and is what it may be. -/
theorem accepts_string (h : (text a).accepts d = true) :
    ∃ s, d = .str s ∧ (∀ p, a.pattern = some p → p s = true) ∧
      (∀ c, a.const = some c → d.same c = true) ∧
      ∀ cs, a.enum = some cs → ∃ c ∈ cs, d.same c = true := by
  obtain ⟨hold, -⟩ := hold_of_accepts h
  simp only [Assertions.hold, Option.all_some, Bool.and_eq_true] at hold
  obtain ⟨⟨⟨htype, hconst⟩, henum⟩, hpattern⟩ := hold
  cases d with
  | scalar x =>
    cases x with
    | str s =>
      refine ⟨s, rfl, fun p hp ↦ ?_, fun c hc ↦ ?_, fun cs hcs ↦ ?_⟩
      · simpa [hp] using hpattern
      · simpa [hc] using hconst
      · simpa [hcs] using henum
    | _ => exact absurd htype (by simp [isOfType])
  | seq xs => exact absurd htype (by simp [isOfType])
  | map ms => exact absurd htype (by simp [isOfType])

end Schema

end SourceOS
