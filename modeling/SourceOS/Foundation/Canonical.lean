import Mathlib.Data.Char
import Mathlib.Data.List.Lex
import Mathlib.Data.List.Sort
import SourceOS.Foundation.Json

/-!
# Canonical JSON

`json.dumps` with `sort_keys=True`, `separators=(",", ":")` and `ensure_ascii=False`: the members of
every object in the order of their keys, no white space, and every character as it is except quotes,
backslashes and the control characters. The bytes that are hashed are the UTF-8 encoding of the
text.

The keys of an object are sorted after its members have been written: sorting needs the keys only.
-/

namespace SourceOS

/-- A Python dictionary with string keys, in the order of insertion. -/
abbrev Dict := List (Str × Json)

namespace Json

/-- One character of a string literal, not escaped beyond ASCII. -/
def c14nChar (c : Char) : Str :=
  if c = '"' then ['\\', '"']
  else if c = '\\' then ['\\', '\\']
  else if c = '\n' then ['\\', 'n']
  else if c = '\r' then ['\\', 'r']
  else if c = '\t' then ['\\', 't']
  else if c = '\x0c' then ['\\', 'f']
  else if c = '\x08' then ['\\', 'b']
  else if c.toNat < 0x20 then escapeUnit c.toNat
  else [c]

/-- A string literal, not escaped beyond ASCII. -/
def c14nStr (s : Str) : Str :=
  '"' :: (s.flatMap c14nChar ++ ['"'])

/-- The order of members, by key. -/
def ByKey (m n : Str × Str) : Prop :=
  m.1 ≤ n.1

instance : DecidableRel ByKey := fun m n ↦ inferInstanceAs (Decidable (m.1 ≤ n.1))

mutual

/-- The canonical text of a value. -/
def c14n : Json → Str
  | .null => ['n', 'u', 'l', 'l']
  | .bool true => ['t', 'r', 'u', 'e']
  | .bool false => ['f', 'a', 'l', 's', 'e']
  | .int n => Text.decimal n
  | .float x => dumpsFloat x
  | .str s => c14nStr s
  | .arr xs => '[' :: ([','].intercalate (c14nItems xs) ++ [']'])
  | .obj ms =>
    '{' :: ([','].intercalate (((c14nMembers ms).insertionSort ByKey).map fun m ↦
      c14nStr m.1 ++ ':' :: m.2) ++ ['}'])

/-- The texts of the items. -/
def c14nItems : List Json → List Str
  | [] => []
  | x :: xs => c14n x :: c14nItems xs

/-- The members with the texts of their values. -/
def c14nMembers : List (Str × Json) → List (Str × Str)
  | [] => []
  | (k, v) :: ms => (k, c14n v) :: c14nMembers ms

end

/-- The bytes of a text in UTF-8. -/
def utf8 (s : Str) : List UInt8 :=
  s.flatMap String.utf8EncodeChar

/-- `hexdigest`. -/
def hexdigest (bs : List UInt8) : Str :=
  bs.flatMap fun b ↦ [hexDigit (b.toNat / 16), hexDigit (b.toNat % 16)]

end Json

end SourceOS
