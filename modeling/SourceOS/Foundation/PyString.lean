import SourceOS.Foundation.Canonical
import SourceOS.Foundation.Python

/-!
# Encoding a Python string

A Python string with half of a surrogate pair in it has no bytes in UTF-8, and encoding it raises.
**Exactly the strings without halves can be encoded** (`encode_ok_iff`).
-/

namespace SourceOS

namespace PyStr

/-- What `encode` raises: it names the first halves that stand together. -/
def encodeError (s : PyStr) : BuiltinError :=
  let start := (s.takeWhile fun c ↦ c.IsChar).length
  let halves := (s.dropWhile fun c ↦ c.IsChar).takeWhile fun c ↦ ¬ c.IsChar
  let what : Str := match halves with
    | [c] => " character '\\u".toList ++ Python.hexPad 4 c.codePoint ++ "' in position ".toList ++
        Text.decimal start
    | _ => " characters in position ".toList ++ Text.decimal start ++ ['-'] ++
        Text.decimal (start + halves.length - 1 : ℕ)
  ⟨"UnicodeEncodeError".toList,
    "'utf-8' codec can't encode".toList ++ what ++ ": surrogates not allowed".toList⟩

/-- `s.encode("utf-8")`. -/
def encode (s : PyStr) : Except BuiltinError (List UInt8) :=
  if Clean s then .ok (Json.utf8 (chars s)) else .error (encodeError s)

/-- **A string can be encoded** if and only if it is clean. -/
theorem encode_ok_iff {s : PyStr} : (∃ bs, encode s = .ok bs) ↔ Clean s := by
  rw [encode]
  split
  case isTrue h => exact ⟨fun _ ↦ h, fun _ ↦ ⟨_, rfl⟩⟩
  case isFalse h => exact ⟨fun ⟨_, h'⟩ ↦ absurd h' (by simp), fun h' ↦ absurd h' h⟩

end PyStr

end SourceOS
