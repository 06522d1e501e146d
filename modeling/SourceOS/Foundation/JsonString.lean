import SourceOS.Foundation.PyChar

/-!
# String literals of JSON

How Python's `json` module writes a string and reads it back. Everything outside printable ASCII is
written as an escape, beyond the basic plane as a surrogate pair; a literal is read in two passes —
`scanString` gives the code units, `JsonChar.join` puts surrogate pairs together — because a pair is
joined only when both halves were written as escapes.

The strings are texts proper, or Python strings, which may have halves of surrogate pairs in them
(`JsonChar`). Texts proper are read back as they were written. Of a Python string that is not so if
the first half of a pair stands before the second one in it, for these are then read as one
character. `JsonChar.normal` is what is read; it is the string itself where the string came from a
literal (`normal_of_join`).
-/

namespace SourceOS

namespace Json

/-! ### Writing -/

/-- The lower-case hexadecimal digit of a number below 16. -/
def hexDigit (n : ℕ) : Char :=
  if n < 10 then Char.ofNat (48 + n) else Char.ofNat (87 + n)

/-- Four hexadecimal digits, as in a `\u` escape. -/
def hex4 (n : ℕ) : Str :=
  [hexDigit (n / 4096 % 16), hexDigit (n / 256 % 16), hexDigit (n / 16 % 16), hexDigit (n % 16)]

/-- A code unit written as an escape. -/
def escapeUnit (n : ℕ) : Str :=
  '\\' :: 'u' :: hex4 n

/-- One character of a string literal. Everything outside printable ASCII is escaped, beyond the
basic plane as a surrogate pair. -/
def escapeChar (c : Char) : Str :=
  if c = '"' then ['\\', '"']
  else if c = '\\' then ['\\', '\\']
  else if c = '\n' then ['\\', 'n']
  else if c = '\r' then ['\\', 'r']
  else if c = '\t' then ['\\', 't']
  else if c = '\x0c' then ['\\', 'f']
  else if c = '\x08' then ['\\', 'b']
  else if 0x20 ≤ c.toNat ∧ c.toNat ≤ 0x7e then [c]
  else if c.toNat < 0x10000 then escapeUnit c.toNat
  else escapeUnit (0xd800 + (c.toNat - 0x10000) / 0x400) ++
    escapeUnit (0xdc00 + (c.toNat - 0x10000) % 0x400)

/-- One character of a string literal; half of a surrogate pair is escaped by itself. -/
def escapePy : PyChar → Str
  | .char c => escapeChar c
  | .surrogate i => escapeUnit (0xd800 + i)

/-- The code units a character is written with. -/
def units (c : Char) : List ℕ :=
  if c.toNat < 0x10000 then [c.toNat]
  else [0xd800 + (c.toNat - 0x10000) / 0x400, 0xdc00 + (c.toNat - 0x10000) % 0x400]

@[inherit_doc units]
def unitsPy : PyChar → List ℕ
  | .char c => units c
  | .surrogate i => [0xd800 + i]

end Json

/-- The characters that the strings of JSON values are made of. -/
class JsonChar (α : Type) where
  /-- As a character of a Python string. -/
  toPy : α → PyChar
  /-- A character proper. -/
  ofChar : Char → α
  /-- The string that the code units of a literal name, if there is one. -/
  join : List ℕ → Option (List α)
  /-- What is read where a string was written. -/
  normal : List α → List α
  /-- A string that is written with its code units is read as its normal form. -/
  join_units : ∀ s, join (s.flatMap fun c ↦ Json.unitsPy (toPy c)) = some (normal s)
  /-- What is read is in normal form. -/
  normal_of_join : ∀ {us s}, join us = some s → normal s = s

namespace Json

section Writing

variable {α : Type} [JsonChar α]

/-- One character of a string literal. -/
def escape (c : α) : Str :=
  escapePy (JsonChar.toPy c)

/-- A string literal. -/
def dumpsStr (s : List α) : Str :=
  '"' :: (s.flatMap escape ++ ['"'])

end Writing

/-! ### Joining surrogate pairs -/

/-- The character that two halves of a surrogate pair make. -/
def pairChar (h l : ℕ) : Char :=
  Char.ofNat (0x10000 + (h - 0xd800) * 0x400 + (l - 0xdc00))

/-- A first half of a pair. -/
def IsHigh (u : ℕ) : Prop :=
  0xd800 ≤ u ∧ u < 0xdc00

/-- A second half of a pair. -/
def IsLow (u : ℕ) : Prop :=
  0xdc00 ≤ u ∧ u < 0xe000

instance : DecidablePred IsHigh := fun _ ↦ inferInstanceAs (Decidable (_ ∧ _))

instance : DecidablePred IsLow := fun _ ↦ inferInstanceAs (Decidable (_ ∧ _))

/-- Surrogate pairs joined, with the first half of a pair pending. A half that is left alone is no
character of a text proper. -/
def joinUnits : Option ℕ → List ℕ → Option Str
  | none, [] => some []
  | some _, [] => none
  | none, u :: us =>
    if IsHigh u then joinUnits (some u) us
    else if IsLow u then none
    else (joinUnits none us).map (Char.ofNat u :: ·)
  | some h, u :: us =>
    if IsLow u then (joinUnits none us).map (pairChar h u :: ·) else none

/-- A code unit that stands alone. -/
def unitChar (u : ℕ) : PyChar :=
  if h : 0xd800 ≤ u ∧ u < 0xe000 then .surrogate ⟨u - 0xd800, by omega⟩ else .char (Char.ofNat u)

/-- Surrogate pairs joined, with the first half of a pair pending. A half that is left alone is a
character of its own. -/
def joinPy : Option ℕ → List ℕ → PyStr
  | none, [] => []
  | some h, [] => [unitChar h]
  | none, u :: us => if IsHigh u then joinPy (some u) us else unitChar u :: joinPy none us
  | some h, u :: us =>
    if IsLow u then .char (pairChar h u) :: joinPy none us
    else if IsHigh u then unitChar h :: joinPy (some u) us
    else unitChar h :: unitChar u :: joinPy none us

theorem toNat_lt (c : Char) : c.toNat < 0x110000 := by
  rcases c.valid with h | h
  · exact Nat.lt_trans h (by decide)
  · exact h.2

/-- A character is written as one unit that is no half, or as a pair. -/
theorem units_cases (c : Char) :
    (units c = [c.toNat] ∧ ¬ IsHigh c.toNat ∧ ¬ IsLow c.toNat) ∨
      ∃ h l, units c = [h, l] ∧ IsHigh h ∧ IsLow l ∧ pairChar h l = c := by
  have hlt := toNat_lt c
  have hnot := PyChar.not_surrogate c
  rw [units]
  split
  case isTrue h =>
    refine Or.inl ⟨rfl, fun hc ↦ hnot ⟨hc.1, ?_⟩, fun hc ↦ hnot ⟨?_, hc.2⟩⟩
    · exact Nat.lt_trans hc.2 (by decide)
    · exact Nat.le_trans (by decide) hc.1
  case isFalse h =>
    have hpair : 0x10000 + (0xd800 + (c.toNat - 0x10000) / 0x400 - 0xd800) * 0x400 +
        (0xdc00 + (c.toNat - 0x10000) % 0x400 - 0xdc00) = c.toNat := by omega
    refine Or.inr ⟨_, _, rfl, ⟨by omega, by omega⟩, ⟨by omega, by omega⟩, ?_⟩
    rw [pairChar, hpair, Char.ofNat_toNat]

theorem joinUnits_units (c : Char) (us : List ℕ) :
    joinUnits none (units c ++ us) = (joinUnits none us).map (c :: ·) := by
  rcases units_cases c with ⟨hunits, hhigh, hlow⟩ | ⟨h, l, hunits, hhigh, hlow, hpair⟩
  · rw [hunits, List.singleton_append, joinUnits, if_neg hhigh, if_neg hlow, Char.ofNat_toNat]
  · rw [hunits, List.cons_append, List.singleton_append, joinUnits, if_pos hhigh, joinUnits,
      if_pos hlow, hpair]

theorem joinPy_units (c : Char) (us : List ℕ) :
    joinPy none (units c ++ us) = .char c :: joinPy none us := by
  rcases units_cases c with ⟨hunits, hhigh, hlow⟩ | ⟨h, l, hunits, hhigh, hlow, hpair⟩
  · have hnot := PyChar.not_surrogate c
    rw [hunits, List.singleton_append, joinPy, if_neg hhigh, unitChar, dif_neg hnot,
      Char.ofNat_toNat]
  · rw [hunits, List.cons_append, List.singleton_append, joinPy, if_pos hhigh, joinPy, if_pos hlow,
      hpair]

/-- A first half that no second half follows stands alone. -/
theorem joinPy_some_of_not_low {h : ℕ} {us : List ℕ} (hus : ∀ u ∈ us.head?, ¬ IsLow u) :
    joinPy (some h) us = unitChar h :: joinPy none us := by
  rcases us with _ | ⟨u, us⟩
  · rfl
  · simp only [joinPy, if_neg (hus u rfl)]
    split
    · rfl
    · rfl

/-- The code units of a string. -/
def pyUnits (s : PyStr) : List ℕ :=
  s.flatMap unitsPy

theorem pyUnits_cons (c : PyChar) (s : PyStr) : pyUnits (c :: s) = unitsPy c ++ pyUnits s :=
  List.flatMap_cons

/-- The units of a unit that stands alone. -/
theorem unitsPy_unitChar_of_half {u : ℕ} (h : IsHigh u ∨ IsLow u) : unitsPy (unitChar u) = [u] := by
  have hhalf : 0xd800 ≤ u ∧ u < 0xe000 := by
    rcases h with h | h
    · exact ⟨h.1, Nat.lt_trans h.2 (by decide)⟩
    · exact ⟨Nat.le_trans (by decide) h.1, h.2⟩
  rw [unitChar, dif_pos hhalf]
  show [0xd800 + (u - 0xd800)] = [u]
  rw [Nat.add_sub_cancel' hhalf.1]

theorem unitChar_of_not_half {u : ℕ} (hhigh : ¬ IsHigh u) (hlow : ¬ IsLow u) :
    unitChar u = .char (Char.ofNat u) := by
  have hnot : ¬ (0xd800 ≤ u ∧ u < 0xe000) := by
    intro h
    rcases Nat.lt_or_ge u 0xdc00 with hu | hu
    · exact hhigh ⟨h.1, hu⟩
    · exact hlow ⟨hu, h.2⟩
  rw [unitChar, dif_neg hnot]

/-- A character proper does not begin with a second half. -/
theorem head_units_not_low (c : Char) : ∀ u ∈ (units c).head?, ¬ IsLow u := by
  rcases units_cases c with ⟨hunits, -, hlow⟩ | ⟨h, l, hunits, hhigh, -, -⟩
  · rw [hunits]
    rintro _ ⟨⟩
    exact hlow
  · rw [hunits]
    rintro _ ⟨⟩ hlow
    exact absurd (Nat.lt_of_lt_of_le hhigh.2 hlow.1) (Nat.lt_irrefl _)

/-- What is joined from a first half on does not begin with a second half. -/
theorem head_pyUnits_joinPy_not_low {h : ℕ} (hh : IsHigh h) (us : List ℕ) :
    ∀ u ∈ (pyUnits (joinPy (some h) us)).head?, ¬ IsLow u := by
  have hfirst : ∀ s : PyStr, ∀ u ∈ (pyUnits (unitChar h :: s)).head?, ¬ IsLow u := by
    intro s u hu hlow
    rw [pyUnits_cons, unitsPy_unitChar_of_half (Or.inl hh)] at hu
    obtain rfl : h = u := Option.some.inj hu
    exact absurd (Nat.lt_of_lt_of_le hh.2 hlow.1) (Nat.lt_irrefl _)
  rcases us with _ | ⟨v, us⟩
  · exact hfirst []
  · rw [joinPy]
    split
    · intro u hu
      have hne : units (pairChar h v) ≠ [] := by
        rcases units_cases (pairChar h v) with ⟨hunits, -⟩ | ⟨_, _, hunits, -⟩ <;> simp [hunits]
      rw [pyUnits_cons, show unitsPy (.char (pairChar h v)) = units (pairChar h v) from rfl,
        List.head?_append_of_ne_nil _ hne] at hu
      exact head_units_not_low _ u hu
    · split
      · exact hfirst _
      · exact hfirst _

/-- **What was joined is joined from its own units.** -/
theorem joinPy_pyUnits_joinPy : ∀ (o : Option ℕ) (us : List ℕ), (∀ h ∈ o, IsHigh h) →
    joinPy none (pyUnits (joinPy o us)) = joinPy o us
  | none, [], _ => rfl
  | some h, [], ho => by
    show joinPy none (pyUnits [unitChar h]) = [unitChar h]
    rw [pyUnits_cons, unitsPy_unitChar_of_half (Or.inl (ho h rfl))]
    show joinPy none [h] = _
    rw [joinPy, if_pos (ho h rfl)]
    rfl
  | none, u :: us, _ => by
    rw [joinPy]
    split
    case isTrue hhigh =>
      exact joinPy_pyUnits_joinPy (some u) us (by rintro _ ⟨⟩; exact hhigh)
    case isFalse hhigh =>
      have ih := joinPy_pyUnits_joinPy none us (by simp)
      by_cases hlow : IsLow u
      · rw [pyUnits_cons, unitsPy_unitChar_of_half (Or.inr hlow), List.singleton_append, joinPy,
          if_neg hhigh, ih]
      · rw [unitChar_of_not_half hhigh hlow, pyUnits_cons]
        show joinPy none (units _ ++ _) = _
        rw [joinPy_units, ih]
  | some h, u :: us, ho => by
    have hhalf := @unitsPy_unitChar_of_half h (Or.inl (ho h rfl))
    rw [joinPy]
    split
    case isTrue hlow =>
      rw [pyUnits_cons]
      show joinPy none (units _ ++ _) = _
      rw [joinPy_units, joinPy_pyUnits_joinPy none us (by simp)]
    case isFalse hlow =>
      split
      case isTrue hhigh =>
        have ih := joinPy_pyUnits_joinPy (some u) us (by rintro _ ⟨⟩; exact hhigh)
        rw [pyUnits_cons, hhalf, List.singleton_append, joinPy, if_pos (ho h rfl),
          joinPy_some_of_not_low (head_pyUnits_joinPy_not_low hhigh us), ih]
      case isFalse hhigh =>
        have ih := joinPy_pyUnits_joinPy none us (by simp)
        rw [pyUnits_cons, hhalf, List.singleton_append, joinPy, if_pos (ho h rfl),
          unitChar_of_not_half hhigh hlow, pyUnits_cons]
        show joinPy (some h) (units _ ++ _) = _
        rw [joinPy_some_of_not_low, joinPy_units, ih]
        intro v hv
        have hne : units (Char.ofNat u) ≠ [] := by
          rcases units_cases (Char.ofNat u) with ⟨hunits, -⟩ | ⟨_, _, hunits, -⟩ <;> simp [hunits]
        exact head_units_not_low _ v (by rwa [List.head?_append_of_ne_nil _ hne] at hv)

/-- A text proper is read as it is written. -/
theorem joinUnits_flatMap (s : Str) : joinUnits none (s.flatMap units) = some s := by
  induction s with
  | nil => rfl
  | cons c s ih => rw [List.flatMap_cons, joinUnits_units, ih, Option.map_some]

instance : JsonChar Char where
  toPy := .char
  ofChar c := c
  join := joinUnits none
  normal s := s
  join_units := joinUnits_flatMap
  normal_of_join _ := rfl

instance : JsonChar PyChar where
  toPy c := c
  ofChar := .char
  join us := some (joinPy none us)
  normal s := joinPy none (pyUnits s)
  join_units _ := rfl
  normal_of_join {us} _ h := by
    rw [← Option.some.inj h]
    exact joinPy_pyUnits_joinPy none us (by simp)

end Json

namespace PyStr

/-- **A text proper is in normal form.** -/
theorem normal_ofStr (s : Str) : JsonChar.normal (ofStr s) = ofStr s := by
  show Json.joinPy none (Json.pyUnits (ofStr s)) = ofStr s
  induction s with
  | nil => rfl
  | cons c s ih =>
    show Json.joinPy none (Json.pyUnits (.char c :: ofStr s)) = .char c :: ofStr s
    rw [Json.pyUnits_cons]
    show Json.joinPy none (Json.units c ++ _) = _
    rw [Json.joinPy_units, ih]

/-- A character by itself has nothing to be joined with. -/
theorem normal_singleton (c : PyChar) : JsonChar.normal [c] = [c] := by
  cases c with
  | char c => exact normal_ofStr [c]
  | surrogate i =>
    have hunit : Json.unitChar (0xd800 + i) = .surrogate i := by
      rw [Json.unitChar, dif_pos ⟨by omega, by omega⟩]
      exact congrArg PyChar.surrogate (Fin.ext (Nat.add_sub_cancel_left ..))
    show Json.joinPy none [0xd800 + (i : ℕ)] = _
    rw [Json.joinPy]
    split
    · exact congrArg (fun c ↦ [c]) hunit
    · exact congrArg (fun c ↦ [c]) hunit

/-- The normal form is in normal form. -/
theorem normal_normal (s : PyStr) : JsonChar.normal (JsonChar.normal s) = JsonChar.normal s :=
  JsonChar.normal_of_join (JsonChar.join_units s)

end PyStr

/-- A Python string in normal form, as it comes out of a literal. -/
structure JsonStr where
  /-- The string. -/
  val : PyStr
  /-- It is read where it was written. -/
  normal : JsonChar.normal val = val
deriving DecidableEq

namespace JsonStr

/-- A text as it comes out of a literal. -/
def ofStr (s : Str) : JsonStr :=
  ⟨PyStr.ofStr s, PyStr.normal_ofStr s⟩

instance : Coe Str JsonStr := ⟨ofStr⟩

instance : CoeOut JsonStr PyStr := ⟨val⟩

/-- What is read where a string was written. -/
def ofPy (s : PyStr) : JsonStr :=
  ⟨JsonChar.normal s, PyStr.normal_normal s⟩

theorem ofPy_of_normal {s : PyStr} (h : JsonChar.normal s = s) : (ofPy s).val = s :=
  h

theorem ofPy_val (s : JsonStr) : ofPy s.val = s := by
  cases s with
  | mk s h => exact (mk.injEq ..).mpr h

end JsonStr

namespace Json

/-! ### Reading -/

/-- The value of a hexadecimal digit. -/
def hexVal (c : Char) : Option ℕ :=
  if '0' ≤ c ∧ c ≤ '9' then some (c.toNat - 48)
  else if 'a' ≤ c ∧ c ≤ 'f' then some (c.toNat - 87)
  else if 'A' ≤ c ∧ c ≤ 'F' then some (c.toNat - 55)
  else none

/-- The character a one-letter escape names. -/
def shortEscape (c : Char) : Option Char :=
  if c = '"' then some '"'
  else if c = '\\' then some '\\'
  else if c = '/' then some '/'
  else if c = 'b' then some '\x08'
  else if c = 'f' then some '\x0c'
  else if c = 'n' then some '\n'
  else if c = 'r' then some '\r'
  else if c = 't' then some '\t'
  else none

/-- Where a reader stands inside a string literal: between characters, after a backslash, or with
some digits of a `\u` escape still to come and the value of those read. -/
inductive StringState
  | plain
  | escape
  | hex (left value : ℕ)

/-- The code units of a string literal up to its closing quote, and the rest of the text. -/
def scanString : StringState → Str → Option (List ℕ × Str)
  | _, [] => none
  | .plain, c :: s =>
    if c = '"' then some ([], s)
    else if c = '\\' then scanString .escape s
    else if c.toNat < 0x20 then none
    else (scanString .plain s).map fun p ↦ (c.toNat :: p.1, p.2)
  | .escape, c :: s =>
    if c = 'u' then scanString (.hex 3 0) s
    else (shortEscape c).bind fun d ↦ (scanString .plain s).map fun p ↦ (d.toNat :: p.1, p.2)
  | .hex 0 value, c :: s =>
    (hexVal c).bind fun v ↦ (scanString .plain s).map fun p ↦ ((value * 16 + v) :: p.1, p.2)
  | .hex (left + 1) value, c :: s =>
    (hexVal c).bind fun v ↦ scanString (.hex left (value * 16 + v)) s

/-- A string literal after its opening quote. -/
def readString {α : Type} [JsonChar α] (s : Str) : Option (List α × Str) :=
  (scanString .plain s).bind fun p ↦ (JsonChar.join p.1).map fun t ↦ (t, p.2)

/-! ### The round trip -/

theorem hexVal_hexDigit : ∀ d < 16, hexVal (hexDigit d) = some d := by decide

theorem scanString_escapeUnit {n : ℕ} (h : n < 0x10000) (s : Str) :
    scanString .plain (escapeUnit n ++ s) =
      (scanString .plain s).map fun p ↦ (n :: p.1, p.2) := by
  show scanString (.hex 3 0) (hex4 n ++ s) = _
  have hdigit : ∀ k, hexVal (hexDigit (k % 16)) = some (k % 16) := fun k ↦
    hexVal_hexDigit _ (Nat.mod_lt _ (by decide))
  have hvalue : (((0 * 16 + n / 4096 % 16) * 16 + n / 256 % 16) * 16 + n / 16 % 16) * 16 + n % 16 =
      n := by omega
  simp only [hex4, List.cons_append, List.nil_append, scanString, hdigit, Option.bind_some, hvalue]

theorem scanString_escapeChar (c : Char) (s : Str) :
    scanString .plain (escapeChar c ++ s) =
      (scanString .plain s).map fun p ↦ (units c ++ p.1, p.2) := by
  -- the short escapes, one by one, and then by the range of the code point
  by_cases h₁ : c = '"'; · subst h₁; rfl
  by_cases h₂ : c = '\\'; · subst h₂; rfl
  by_cases h₃ : c = '\n'; · subst h₃; rfl
  by_cases h₄ : c = '\r'; · subst h₄; rfl
  by_cases h₅ : c = '\t'; · subst h₅; rfl
  by_cases h₆ : c = '\x0c'; · subst h₆; rfl
  by_cases h₇ : c = '\x08'; · subst h₇; rfl
  rw [escapeChar, if_neg h₁, if_neg h₂, if_neg h₃, if_neg h₄, if_neg h₅, if_neg h₆, if_neg h₇]
  have hlt := toNat_lt c
  split
  case isTrue h =>
    show scanString .plain (c :: s) = _
    rw [scanString, if_neg h₁, if_neg h₂, if_neg (by omega), units, if_pos (by omega)]
    rfl
  case isFalse =>
    split
    case isTrue h =>
      rw [scanString_escapeUnit h, units, if_pos h]
      rfl
    case isFalse h =>
      rw [List.append_assoc, scanString_escapeUnit (by omega), scanString_escapeUnit (by omega),
        units, if_neg h, Option.map_map]
      rfl

theorem scanString_escapePy (c : PyChar) (s : Str) :
    scanString .plain (escapePy c ++ s) =
      (scanString .plain s).map fun p ↦ (unitsPy c ++ p.1, p.2) := by
  cases c with
  | char c => exact scanString_escapeChar c s
  | surrogate i => exact scanString_escapeUnit (by omega) s

section Legible

variable {α : Type} [JsonChar α]

/-- Strings are written so that their normal forms are read back. -/
def Legible (esc : α → Str) : Prop :=
  ∀ (s : List α) (r : Str), readString (s.flatMap esc ++ '"' :: r) = some (JsonChar.normal s, r)

/-- **Strings are legible** where their characters are written so that their units are read back,
and the units are joined to the normal form. -/
theorem legible_of_units {esc : α → Str} (us : α → List ℕ)
    (hscan : ∀ c s, scanString .plain (esc c ++ s) =
      (scanString .plain s).map fun p ↦ (us c ++ p.1, p.2))
    (hjoin : ∀ s : List α, JsonChar.join (s.flatMap us) = some (JsonChar.normal s)) :
    Legible esc := by
  intro s r
  have hread : scanString .plain (s.flatMap esc ++ '"' :: r) = some (s.flatMap us, r) := by
    clear hjoin
    induction s with
    | nil => rfl
    | cons c s ih =>
      rw [List.flatMap_cons, List.append_assoc, hscan, ih]
      rfl
  rw [readString, hread, Option.bind_some, hjoin]
  rfl

/-- **Strings round-trip**, whatever they contain, up to their normal form. -/
theorem legible_escape : Legible (escape : α → Str) :=
  legible_of_units (fun c ↦ unitsPy (JsonChar.toPy c))
    (fun c s ↦ scanString_escapePy (JsonChar.toPy c) s) JsonChar.join_units

/-- What is read is in normal form. -/
theorem normal_of_readString {s r : Str} {t : List α} (h : readString s = some (t, r)) :
    JsonChar.normal t = t := by
  obtain ⟨p, -, hp⟩ := Option.bind_eq_some_iff.1 h
  obtain ⟨u, hu, heq⟩ := Option.map_eq_some_iff.1 hp
  obtain ⟨rfl, -⟩ := Prod.mk.inj heq
  exact JsonChar.normal_of_join hu

end Legible

end Json

end SourceOS
