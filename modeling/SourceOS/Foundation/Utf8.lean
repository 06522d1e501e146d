import SourceOS.Foundation.Canonical

/-!
# UTF-8

`bytes.decode("utf-8", errors="replace")`, as a machine that reads one byte at a time. It knows how
many bytes of the current character are still to come and in which range the next of them must lie;
the ranges are those of the Unicode standard, which leave out overlong forms, surrogates and
everything beyond U+10FFFF. A sequence that breaks off is replaced by one U+FFFD, and the byte at
which it broke off is read anew.

What `encode("utf-8")` writes is read back, whatever follows it (`decodeReplace_utf8_append`).
Without `errors`, anything else raises (`decodeStrict`).
-/

namespace SourceOS

namespace Json

/-- U+FFFD. -/
def replacement : Char := '\ufffd'

/-- Where the decoder stands: between characters, or inside one, with `left + 1` bytes to come, the
range of the next one, and the value of the bits read. -/
inductive Expect
  | start
  | tail (left lo hi value : ℕ)

/-- A byte at the start of a character. -/
def leadByte (b : ℕ) : Str × Expect :=
  if b < 0x80 then ([Char.ofNat b], .start)
  else if b < 0xc2 then ([replacement], .start)
  else if b < 0xe0 then ([], .tail 0 0x80 0xbf (b - 0xc0))
  else if b < 0xf0 then
    ([], .tail 1 (if b = 0xe0 then 0xa0 else 0x80) (if b = 0xed then 0x9f else 0xbf) (b - 0xe0))
  else if b < 0xf5 then
    ([], .tail 2 (if b = 0xf0 then 0x90 else 0x80) (if b = 0xf4 then 0x8f else 0xbf) (b - 0xf0))
  else ([replacement], .start)

/-- One byte: the characters it completes, and where the decoder stands after it. -/
def decodeByte : Expect → ℕ → Str × Expect
  | .start, b => leadByte b
  | .tail left lo hi value, b =>
    if lo ≤ b ∧ b ≤ hi then
      match left with
      | 0 => ([Char.ofNat (value * 64 + (b - 0x80))], .start)
      | left + 1 => ([], .tail left 0x80 0xbf (value * 64 + (b - 0x80)))
    else (replacement :: (leadByte b).1, (leadByte b).2)

/-- The rest of the bytes, from where the decoder stands. -/
def decodeFrom : Expect → List UInt8 → Str
  | .start, [] => []
  | .tail .., [] => [replacement]
  | e, b :: bs => (decodeByte e b.toNat).1 ++ decodeFrom (decodeByte e b.toNat).2 bs

/-- `bytes.decode("utf-8", errors="replace")`. -/
def decodeReplace (bs : List UInt8) : Str :=
  decodeFrom .start bs

theorem decodeFrom_cons (e : Expect) (b : UInt8) (bs : List UInt8) : decodeFrom e (b :: bs) =
    (decodeByte e b.toNat).1 ++ decodeFrom (decodeByte e b.toNat).2 bs := by
  cases e <;> rfl

/-- The last byte of a character. -/
theorem decodeFrom_last {lo hi value : ℕ} {b : UInt8} (h : lo ≤ b.toNat ∧ b.toNat ≤ hi)
    (bs : List UInt8) : decodeFrom (.tail 0 lo hi value) (b :: bs) =
      Char.ofNat (value * 64 + (b.toNat - 0x80)) :: decodeFrom .start bs := by
  simp only [decodeFrom, decodeByte, if_pos h, List.singleton_append]

/-- A byte inside a character. -/
theorem decodeFrom_more {left lo hi value : ℕ} {b : UInt8} (h : lo ≤ b.toNat ∧ b.toNat ≤ hi)
    (bs : List UInt8) : decodeFrom (.tail (left + 1) lo hi value) (b :: bs) =
      decodeFrom (.tail left 0x80 0xbf (value * 64 + (b.toNat - 0x80))) bs := by
  simp only [decodeFrom, decodeByte, if_pos h, List.nil_append]

/-- **A character that was encoded is read back**, whatever follows it. -/
theorem decodeFrom_encodeChar (c : Char) (bs : List UInt8) :
    decodeFrom .start (String.utf8EncodeChar c ++ bs) = c :: decodeFrom .start bs := by
  have hvalid : c.toNat < 0xd800 ∨ 0xdfff < c.toNat ∧ c.toNat < 0x110000 := c.valid
  have hbyte : ∀ n < 256, (UInt8.ofNat n).toNat = n := fun n hn ↦ by
    rw [UInt8.toNat_ofNat', Nat.mod_eq_of_lt hn]
  rw [String.utf8EncodeChar, show c.val.toNat = c.toNat from rfl]
  split_ifs with h₁ h₂ h₃
  · -- one byte
    rw [List.singleton_append, decodeFrom_cons, hbyte _ (by omega), decodeByte, leadByte,
      if_pos (by omega), Char.ofNat_toNat]
    rfl
  · -- two bytes
    have hvalue : (c.toNat / 64 % 32 + 0xc0 - 0xc0) * 64 + (c.toNat % 64 + 0x80 - 0x80) =
        c.toNat := by omega
    rw [List.cons_append, decodeFrom_cons, hbyte _ (by omega), decodeByte, leadByte,
      if_neg (by omega), if_neg (by omega), if_pos (by omega), List.nil_append,
      List.singleton_append, decodeFrom_last (by rw [hbyte _ (by omega)]; omega),
      hbyte _ (by omega), hvalue, Char.ofNat_toNat]
  · -- three bytes
    have hvalue : ((c.toNat / 4096 % 16 + 0xe0 - 0xe0) * 64 + (c.toNat / 64 % 64 + 0x80 - 0x80)) *
        64 + (c.toNat % 64 + 0x80 - 0x80) = c.toNat := by omega
    rw [List.cons_append, decodeFrom_cons, hbyte _ (by omega), decodeByte, leadByte,
      if_neg (by omega), if_neg (by omega), if_neg (by omega), if_pos (by omega), List.nil_append,
      List.cons_append, decodeFrom_more (by rw [hbyte _ (by omega)]; split_ifs <;> omega),
      List.singleton_append, decodeFrom_last (by rw [hbyte _ (by omega)]; omega),
      hbyte _ (by omega), hbyte _ (by omega), hvalue, Char.ofNat_toNat]
  · -- four bytes
    have hvalue : (((c.toNat / 262144 % 8 + 0xf0 - 0xf0) * 64 +
        (c.toNat / 4096 % 64 + 0x80 - 0x80)) * 64 + (c.toNat / 64 % 64 + 0x80 - 0x80)) * 64 +
        (c.toNat % 64 + 0x80 - 0x80) = c.toNat := by omega
    rw [List.cons_append, decodeFrom_cons, hbyte _ (by omega), decodeByte, leadByte,
      if_neg (by omega), if_neg (by omega), if_neg (by omega), if_neg (by omega),
      if_pos (by omega), List.nil_append, List.cons_append,
      decodeFrom_more (by rw [hbyte _ (by omega)]; split_ifs <;> omega), List.cons_append,
      decodeFrom_more (by rw [hbyte _ (by omega)]; omega), List.singleton_append,
      decodeFrom_last (by rw [hbyte _ (by omega)]; omega), hbyte _ (by omega),
      hbyte _ (by omega), hbyte _ (by omega), hvalue, Char.ofNat_toNat]

/-- **A text that was encoded is read back**, whatever follows it. -/
theorem decodeReplace_utf8_append (s : Str) (bs : List UInt8) :
    decodeReplace (utf8 s ++ bs) = s ++ decodeReplace bs := by
  unfold decodeReplace
  induction s with
  | nil => rfl
  | cons c s ih =>
    rw [utf8, List.flatMap_cons, List.append_assoc, decodeFrom_encodeChar, List.cons_append,
      show s.flatMap String.utf8EncodeChar = utf8 s from rfl, ih]

theorem decodeReplace_utf8 (s : Str) : decodeReplace (utf8 s) = s := by
  have h := decodeReplace_utf8_append s []
  rwa [List.append_nil, show decodeReplace [] = [] from rfl, List.append_nil] at h

/-- `bytes.decode("utf-8")`, if it does not raise: the bytes are what `encode` writes. -/
def decodeStrict (bs : List UInt8) : Option Str :=
  if utf8 (decodeReplace bs) = bs then some (decodeReplace bs) else none

theorem decodeStrict_utf8 (s : Str) : decodeStrict (utf8 s) = some s := by
  rw [decodeStrict, decodeReplace_utf8, if_pos rfl]

/-- A sequence that breaks off, a byte that starts nothing, and an overlong form. -/
example : (decodeReplace [0x61, 0xe2, 0x82, 0x62, 0xff, 0xc0, 0x80]).map Char.toNat =
    [0x61, 0xfffd, 0x62, 0xfffd, 0xfffd, 0xfffd] := by decide

end Json

end SourceOS
