import Mathlib.Data.List.Lex
import Mathlib.Order.Basic
import SourceOS.Foundation.Text

/-!
# Strings with halves of surrogate pairs

A Python string is a sequence of code points, and a reader that resolves `\u` escapes may leave half
of a surrogate pair in it. Such a string is compared, sorted and printed like any other; it is only
when it is encoded that it turns out to have no bytes.

`PyStr` is the type of these strings. A text proper (`Str`) is one of them (`PyStr.ofStr`), and so
are all strings without halves (`ofStr_chars`).
-/

namespace SourceOS

/-- A character of a Python string: a Unicode scalar value, or half of a surrogate pair, by its
distance from U+D800. -/
inductive PyChar
  | char (c : Char)
  | surrogate (i : Fin 2048)
deriving DecidableEq

namespace PyChar

/-- `ord`. -/
def codePoint : PyChar → ℕ
  | .char c => c.toNat
  | .surrogate i => 0xd800 + i

/-- A character is no half of a pair. -/
theorem not_surrogate (c : Char) : ¬ (0xd800 ≤ c.toNat ∧ c.toNat < 0xe000) := by
  rcases c.valid with hc | hc
  · have hlow : c.toNat < 0xd800 := hc
    omega
  · have hhigh : 0xdfff < c.toNat := hc.1
    omega

theorem codePoint_injective : Function.Injective codePoint := by
  rintro (c | i) (d | j) h
  · exact congrArg char (Char.toNat_inj.1 h)
  · have hc := not_surrogate c
    simp only [codePoint] at h
    omega
  · have hd := not_surrogate d
    simp only [codePoint] at h
    omega
  · simp only [codePoint, Nat.add_left_cancel_iff] at h
    exact congrArg surrogate (Fin.ext h)

/-- Characters are compared by their code points. -/
instance : LinearOrder PyChar :=
  LinearOrder.lift' codePoint codePoint_injective

/-- The character has an encoding. -/
def IsChar : PyChar → Prop
  | .char _ => True
  | .surrogate _ => False

instance : DecidablePred IsChar
  | .char _ => .isTrue trivial
  | .surrogate _ => .isFalse id

/-- `str.isspace`, for one character. -/
def isSpace : PyChar → Bool
  | .char c => Text.isSpace c
  | .surrogate _ => false

end PyChar

/-- A Python string. -/
abbrev PyStr := List PyChar

namespace PyStr

/-- A text as a Python string. -/
def ofStr (s : Str) : PyStr :=
  s.map .char

instance : Coe Str PyStr := ⟨ofStr⟩

instance : LawfulBEq PyStr := inferInstance

/-- A string literal. -/
def lit (s : String) : PyStr :=
  ofStr s.toList

/-- No half of a surrogate pair is in the string. -/
def Clean (s : PyStr) : Prop :=
  ∀ c ∈ s, c.IsChar

instance : DecidablePred Clean := fun s ↦ List.decidableBAll PyChar.IsChar s

theorem clean_ofStr (s : Str) : Clean (ofStr s) := by
  intro c hc
  obtain ⟨c, -, rfl⟩ := List.mem_map.1 hc
  trivial

theorem clean_lit (s : String) : Clean (lit s) :=
  clean_ofStr _

theorem clean_append {s t : PyStr} : Clean (s ++ t) ↔ Clean s ∧ Clean t :=
  List.forall_mem_append

theorem clean_cons {c : PyChar} {s : PyStr} : Clean (c :: s) ↔ c.IsChar ∧ Clean s :=
  List.forall_mem_cons

theorem ofStr_append (s t : Str) : ofStr (s ++ t) = ofStr s ++ ofStr t :=
  List.map_append

theorem ofStr_cons (c : Char) (s : Str) : ofStr (c :: s) = .char c :: ofStr s :=
  List.map_cons

theorem ofStr_injective : Function.Injective ofStr :=
  List.map_injective_iff.2 fun _ _ ↦ PyChar.char.inj

theorem ofStr_intercalate (c : Char) (ss : List Str) :
    ofStr ([c].intercalate ss) = [.char c].intercalate (ss.map ofStr) := by
  rcases ss with _ | ⟨s, ss⟩
  · rfl
  · induction ss generalizing s with
    | nil => simp [List.intercalate]
    | cons t ts ih =>
      rw [List.intercalate_cons_cons, List.map_cons, List.map_cons, List.intercalate_cons_cons,
        ofStr_append, ofStr_append, ih, List.map_cons]
      rfl

/-- Pieces with a separator between them are clean if and only if each of them is. -/
theorem clean_intercalate {sep : Char} {ss : List PyStr} :
    Clean ([.char sep].intercalate ss) ↔ ∀ s ∈ ss, Clean s := by
  rcases ss with _ | ⟨s, ss⟩
  · simp [Clean, List.intercalate]
  · induction ss generalizing s with
    | nil => simp [List.intercalate]
    | cons t ts ih =>
      rw [List.intercalate_cons_cons, clean_append, clean_append, ih, List.forall_mem_cons]
      have hsep : Clean [.char sep] := by simp [Clean, PyChar.IsChar]
      rw [iff_true_intro hsep, and_true, List.forall_mem_cons, List.forall_mem_cons]

/-- The characters of a string that have an encoding. -/
def chars (s : PyStr) : Str :=
  s.filterMap fun
    | .char c => some c
    | .surrogate _ => none

@[simp]
theorem chars_ofStr (s : Str) : chars (ofStr s) = s := by
  rw [chars, ofStr, List.filterMap_map]
  exact List.filterMap_some

/-- **A clean string is a text.** -/
theorem ofStr_chars {s : PyStr} (h : s.Clean) : ofStr (chars s) = s := by
  induction s with
  | nil => rfl
  | cons c s ih =>
    obtain ⟨hc, hs⟩ := clean_cons.1 h
    cases c with
    | char c => exact congrArg (PyChar.char c :: ·) (ih hs)
    | surrogate i => exact absurd hc id

/-- The text that a string is, if it is one. -/
def toStr? (s : PyStr) : Option Str :=
  if Clean s then some (chars s) else none

theorem toStr?_eq_some_iff {s : PyStr} {t : Str} : toStr? s = some t ↔ s = ofStr t := by
  rw [toStr?]
  constructor
  · intro h
    split at h
    case isTrue hclean => rw [← Option.some.inj h, ofStr_chars hclean]
    case isFalse => exact absurd h (by simp)
  · rintro rfl
    rw [if_pos (clean_ofStr t), chars_ofStr]

theorem mem_ofStr {c : Char} {s : Str} : .char c ∈ ofStr s ↔ c ∈ s :=
  List.mem_map_of_injective fun _ _ ↦ PyChar.char.inj

/-- `str` of an integer. -/
def ofInt (n : ℤ) : PyStr :=
  ofStr (Text.decimal n)

theorem ofInt_injective : Function.Injective ofInt :=
  ofStr_injective.comp Text.decimal_injective

/-! ### White space -/

/-- White space removed at both ends. -/
def strip (s : PyStr) : PyStr :=
  (s.dropWhile PyChar.isSpace).rdropWhile PyChar.isSpace

/-- Nothing but white space. -/
def isBlank (s : PyStr) : Bool :=
  s.all PyChar.isSpace

theorem strip_ofStr (s : Str) : strip (ofStr s) = ofStr (Text.strip s) := by
  have hdrop : ∀ t : Str, (ofStr t).dropWhile PyChar.isSpace = ofStr (t.dropWhile Text.isSpace) :=
    fun t ↦ List.dropWhile_map ..
  have hreverse : ∀ t : Str, (ofStr t).reverse = ofStr t.reverse := fun t ↦ List.map_reverse.symm
  rw [strip, hdrop, Text.strip, List.rdropWhile, List.rdropWhile, hreverse, hdrop, hreverse]

theorem isBlank_ofStr (s : Str) : isBlank (ofStr s) = Text.isBlank s := by
  rw [isBlank, ofStr, List.all_map]
  rfl

/-- A string that starts with a visible character keeps it. -/
theorem strip_cons {c : PyChar} (hc : c.isSpace = false) (s : PyStr) :
    ∃ t, strip (c :: s) = c :: t :=
  Text.trim_cons hc s

theorem isBlank_ofInt (n : ℤ) : isBlank (ofInt n) = false :=
  (isBlank_ofStr _).trans (Text.isBlank_decimal n)

end PyStr

end SourceOS
