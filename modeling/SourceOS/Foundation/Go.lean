import Mathlib.Algebra.Group.Int.Defs
import Mathlib.Algebra.GroupWithZero.Nat
import SourceOS.Foundation.Lists
import SourceOS.Foundation.Text

/-!
# Go values as text

The part of Go's standard library that turns values into strings: `fmt`'s `%d`, `%o`, `%s` and `%q`,
`hex.EncodeToString`, and `time.Time` with its two RFC 3339 layouts.

A Go string is a sequence of **bytes**, not of characters — nothing says that it is UTF-8 — so
`GoString` is a list of bytes and the texts of a program are written with `ascii`.

* `quote` is `%q`: it decodes the bytes as UTF-8 and escapes what is not printable. Beyond ASCII,
  what is printable is a question to the Unicode tables (`isPrint`), a parameter; nothing proved
  here depends on the answers.
* A `Time` is a wall clock reading in a zone, with the monotonic reading Go attaches to `time.Now`.
  `formatRFC3339` follows the standard library down to the wrap of its absolute seconds.
* What a record with the separator `|` between its fields needs from all this is that some fields
  cannot contain the separator: `bar_notMem_formatUint`, `bar_notMem_formatRFC3339` and
  `bar_notMem_hexEncode`, with the injectivity of the numerals and of the hexadecimal text.
-/

namespace SourceOS

/-- A Go string. -/
abbrev GoString := List UInt8

namespace Go

open Text

/-! ### Bytes -/

/-- The bytes of a text of ASCII characters. -/
def ascii (s : Str) : GoString :=
  s.map fun c ↦ UInt8.ofNat c.toNat

/-- The separator `|`. -/
def bar : UInt8 := 0x7c

/-- ASCII texts with the same bytes are the same text. -/
theorem ascii_inj {s t : Str} (hs : ∀ c ∈ s, c.toNat < 128) (ht : ∀ c ∈ t, c.toNat < 128)
    (h : ascii s = ascii t) : s = t := by
  induction s generalizing t with
  | nil => exact (List.map_eq_nil_iff.1 h.symm).symm
  | cons c s ih =>
    obtain ⟨d, u, rfl, hd, hu⟩ := List.map_eq_cons_iff.1 h.symm
    have hc : c.toNat < 128 := hs c List.mem_cons_self
    have hd' : d.toNat < 128 := ht d List.mem_cons_self
    have hnat := congrArg UInt8.toNat hd
    rw [UInt8.toNat_ofNat', UInt8.toNat_ofNat', Nat.mod_eq_of_lt (by omega),
      Nat.mod_eq_of_lt (by omega)] at hnat
    rw [Char.toNat_inj.1 hnat.symm, ih (fun e he ↦ hs e (List.mem_cons_of_mem _ he))
      (fun e he ↦ ht e (List.mem_cons_of_mem _ he)) hu.symm]

/-- **Fields before a separator.** What stands before the first separator is determined, and so is
what follows it. -/
theorem append_bar_inj {x y s t : GoString} (hx : bar ∉ x) (hy : bar ∉ y)
    (h : x ++ bar :: s = y ++ bar :: t) : x = y ∧ s = t :=
  append_cons_inj_of_notMem hx hy h

/-- **Fields after a separator.** What stands after the last separator is determined, and so is what
precedes it. -/
theorem append_bar_inj_right {x y s t : GoString} (hs : bar ∉ s) (ht : bar ∉ t)
    (h : x ++ bar :: s = y ++ bar :: t) : x = y ∧ s = t := by
  have hrev : s.reverse ++ bar :: x.reverse = t.reverse ++ bar :: y.reverse := by
    simpa using congrArg List.reverse h
  obtain ⟨hst, hxy⟩ := append_bar_inj (fun hb ↦ hs (List.mem_reverse.1 hb))
    (fun hb ↦ ht (List.mem_reverse.1 hb)) hrev
  exact ⟨List.reverse_injective hxy, List.reverse_injective hst⟩

/-- The newline. -/
def newline : UInt8 := 0x0a

/-- The bytes of decimal digits. -/
def IsDigitByte (b : UInt8) : Prop :=
  48 ≤ b.toNat ∧ b.toNat ≤ 57

theorem IsDigitByte.ne_bar {b : UInt8} (h : IsDigitByte b) : b ≠ bar := by
  rintro rfl
  exact absurd h.2 (by decide)

theorem IsDigitByte.ne_newline {b : UInt8} (h : IsDigitByte b) : b ≠ newline := by
  rintro rfl
  exact absurd h.1 (by decide)

/-! ### `%d` and `%o` -/

section Numerals

variable {base : ℕ} (hbase : 1 < base) (hten : base ≤ 10)

include hbase hten

private theorem toNat_of_mem_toDigits {n : ℕ} {c : Char} (h : c ∈ Nat.toDigits base n) :
    48 ≤ c.toNat ∧ c.toNat ≤ 57 := by
  have hc := Nat.isDigit_of_mem_toDigits (by omega) hten h
  rw [Char.isDigit, Bool.and_eq_true, decide_eq_true_eq, decide_eq_true_eq] at hc
  exact hc

private theorem isDigitByte_of_mem_toDigits {n : ℕ} {b : UInt8}
    (h : b ∈ ascii (Nat.toDigits base n)) : IsDigitByte b := by
  obtain ⟨c, hc, rfl⟩ := List.mem_map.1 h
  obtain ⟨h₁, h₂⟩ := toNat_of_mem_toDigits hbase hten hc
  rw [IsDigitByte, UInt8.toNat_ofNat', Nat.mod_eq_of_lt (by omega)]
  exact ⟨h₁, h₂⟩

private theorem ascii_toDigits_inj {m n : ℕ}
    (h : ascii (Nat.toDigits base m) = ascii (Nat.toDigits base n)) : m = n := by
  have hdigits : Nat.toDigits base m = Nat.toDigits base n := by
    refine ascii_inj (fun c hc ↦ ?_) (fun c hc ↦ ?_) h
    · have := toNat_of_mem_toDigits hbase hten hc
      omega
    · have := toNat_of_mem_toDigits hbase hten hc
      omega
  rw [← @Nat.ofDigitChars_toDigits base m hbase hten, hdigits,
    Nat.ofDigitChars_toDigits hbase hten]

end Numerals

/-- `%d` of an unsigned integer. -/
def formatUint (n : ℕ) : GoString :=
  ascii (Nat.toDigits 10 n)

/-- `%o` of an unsigned integer. -/
def formatOctal (n : ℕ) : GoString :=
  ascii (Nat.toDigits 8 n)

theorem isDigitByte_of_mem_formatUint {n : ℕ} {b : UInt8} (h : b ∈ formatUint n) :
    IsDigitByte b :=
  isDigitByte_of_mem_toDigits (by decide) (by decide) h

theorem isDigitByte_of_mem_formatOctal {n : ℕ} {b : UInt8} (h : b ∈ formatOctal n) :
    IsDigitByte b :=
  isDigitByte_of_mem_toDigits (by decide) (by decide) h

theorem bar_notMem_formatUint (n : ℕ) : bar ∉ formatUint n :=
  fun h ↦ (isDigitByte_of_mem_formatUint h).ne_bar rfl

theorem bar_notMem_formatOctal (n : ℕ) : bar ∉ formatOctal n :=
  fun h ↦ (isDigitByte_of_mem_formatOctal h).ne_bar rfl

theorem newline_notMem_formatOctal (n : ℕ) : newline ∉ formatOctal n :=
  fun h ↦ (isDigitByte_of_mem_formatOctal h).ne_newline rfl

/-- **Numerals determine their number.** -/
theorem formatUint_injective : Function.Injective formatUint :=
  fun _ _ h ↦ ascii_toDigits_inj (by decide) (by decide) h

theorem formatOctal_injective : Function.Injective formatOctal :=
  fun _ _ h ↦ ascii_toDigits_inj (by decide) (by decide) h

/-! ### `hex.EncodeToString` -/

/-- A digit of the lower-case hexadecimal alphabet. -/
def hexDigit (n : ℕ) : UInt8 :=
  UInt8.ofNat (if n < 10 then 48 + n else 87 + n)

/-- Two digits for each byte, the high one first. -/
def hexEncode (bs : List UInt8) : GoString :=
  bs.flatMap fun b ↦ [hexDigit (b.toNat / 16), hexDigit (b.toNat % 16)]

@[simp] theorem hexEncode_nil : hexEncode [] = [] := rfl

@[simp] theorem hexEncode_cons (b : UInt8) (bs : List UInt8) : hexEncode (b :: bs) =
    hexDigit (b.toNat / 16) :: hexDigit (b.toNat % 16) :: hexEncode bs := rfl

theorem length_hexEncode (bs : List UInt8) : (hexEncode bs).length = 2 * bs.length := by
  induction bs with
  | nil => rfl
  | cons b bs ih =>
    rw [hexEncode_cons, List.length_cons, List.length_cons, ih, List.length_cons]
    omega

private theorem toNat_hexDigit {n : ℕ} (h : n < 16) :
    (hexDigit n).toNat = if n < 10 then 48 + n else 87 + n := by
  rw [hexDigit, UInt8.toNat_ofNat', Nat.mod_eq_of_lt]
  split <;> omega

private theorem hexDigit_inj {m n : ℕ} (hm : m < 16) (hn : n < 16) (h : hexDigit m = hexDigit n) :
    m = n := by
  have hnat := congrArg UInt8.toNat h
  rw [toNat_hexDigit hm, toNat_hexDigit hn] at hnat
  split at hnat <;> split at hnat <;> omega

/-- A byte before the digits or behind the letters is not in a hexadecimal text. -/
private theorem notMem_hexEncode {c : UInt8} (hc : c.toNat < 48 ∨ 102 < c.toNat) (bs : List UInt8) :
    c ∉ hexEncode bs := by
  have hdigit : ∀ n < 16, hexDigit n ≠ c := by
    intro n hn h
    have hnat := congrArg UInt8.toNat h
    rw [toNat_hexDigit hn] at hnat
    split at hnat <;> omega
  induction bs with
  | nil => exact List.not_mem_nil
  | cons b bs ih =>
    have hb : b.toNat < 256 := b.toNat_lt
    rw [hexEncode_cons, List.mem_cons, List.mem_cons, not_or, not_or]
    exact ⟨(hdigit _ (by omega)).symm, (hdigit _ (by omega)).symm, ih⟩

theorem bar_notMem_hexEncode (bs : List UInt8) : bar ∉ hexEncode bs :=
  notMem_hexEncode (Or.inr (by decide)) bs

theorem zero_notMem_hexEncode (bs : List UInt8) : 0 ∉ hexEncode bs :=
  notMem_hexEncode (Or.inl (by decide)) bs

theorem slash_notMem_hexEncode (bs : List UInt8) : 0x2f ∉ hexEncode bs :=
  notMem_hexEncode (Or.inl (by decide)) bs

theorem newline_notMem_hexEncode (bs : List UInt8) : newline ∉ hexEncode bs :=
  notMem_hexEncode (Or.inl (by decide)) bs

/-- **The hexadecimal text determines the bytes.** -/
theorem hexEncode_injective : Function.Injective hexEncode := by
  intro bs cs h
  induction bs generalizing cs with
  | nil =>
    rcases cs with _ | ⟨c, cs⟩
    · rfl
    · exact absurd h (List.cons_ne_nil _ _).symm
  | cons b bs ih =>
    rcases cs with _ | ⟨c, cs⟩
    · exact absurd h (List.cons_ne_nil _ _)
    · have hb : b.toNat < 256 := b.toNat_lt
      have hc : c.toNat < 256 := c.toNat_lt
      rw [hexEncode_cons, hexEncode_cons] at h
      obtain ⟨hhigh, hrest⟩ := List.cons.inj h
      obtain ⟨hlow, hrest⟩ := List.cons.inj hrest
      have hdiv : b.toNat / 16 = c.toNat / 16 := hexDigit_inj (by omega) (by omega) hhigh
      have hmod : b.toNat % 16 = c.toNat % 16 := hexDigit_inj (by omega) (by omega) hlow
      have hbc : b = c := UInt8.toNat_inj.1 (by omega)
      rw [hbc, ih hrest]

/-! ### `%q` -/

/-- `utf8.DecodeRuneInString`: the first rune with its width, or `none` for a byte that starts no
well-formed sequence. -/
def decodeRune : GoString → Option (ℕ × ℕ)
  | [] => none
  | b :: rest =>
    let cont (i lo hi : ℕ) : Option ℕ :=
      (rest[i]?.map UInt8.toNat).filter fun c ↦ lo ≤ c ∧ c ≤ hi
    let n := b.toNat
    if n < 0x80 then some (n, 1)
    else if 0xc2 ≤ n ∧ n ≤ 0xdf then do
      let c ← cont 0 0x80 0xbf
      return (n % 32 * 64 + c % 64, 2)
    else if 0xe0 ≤ n ∧ n ≤ 0xef then do
      -- Overlong encodings and the surrogates are cut off by the range of the second byte.
      let c ← cont 0 (if n = 0xe0 then 0xa0 else 0x80) (if n = 0xed then 0x9f else 0xbf)
      let d ← cont 1 0x80 0xbf
      return ((n % 16 * 64 + c % 64) * 64 + d % 64, 3)
    else if 0xf0 ≤ n ∧ n ≤ 0xf4 then do
      let c ← cont 0 (if n = 0xf0 then 0x90 else 0x80) (if n = 0xf4 then 0x8f else 0xbf)
      let d ← cont 1 0x80 0xbf
      let e ← cont 2 0x80 0xbf
      return (((n % 8 * 64 + c % 64) * 64 + d % 64) * 64 + e % 64, 4)
    else none

/-- A number in `w` hexadecimal digits. -/
def hexPad : ℕ → ℕ → GoString
  | 0, _ => []
  | w + 1, n => hexPad w (n / 16) ++ [hexDigit (n % 16)]

section Quote

variable (isPrint : ℕ → Bool)

/-- `strconv.IsPrint`: the visible characters and the blank of ASCII; the tables decide the rest. -/
def isPrintRune (r : ℕ) : Bool :=
  if r < 0x80 then 0x20 ≤ r && r ≤ 0x7e else isPrint r

/-- `appendEscapedRune` with the double quote; `raw` is the encoding of the rune. -/
def escapedRune (r : ℕ) (raw : GoString) : GoString :=
  if r = 0x22 ∨ r = 0x5c then 0x5c :: raw
  else if isPrintRune isPrint r then raw
  else if r = 0x07 then ascii ['\\', 'a']
  else if r = 0x08 then ascii ['\\', 'b']
  else if r = 0x0c then ascii ['\\', 'f']
  else if r = 0x0a then ascii ['\\', 'n']
  else if r = 0x0d then ascii ['\\', 'r']
  else if r = 0x09 then ascii ['\\', 't']
  else if r = 0x0b then ascii ['\\', 'v']
  else if r < 0x20 ∨ r = 0x7f then ascii ['\\', 'x'] ++ hexPad 2 r
  else if r < 0x10000 then ascii ['\\', 'u'] ++ hexPad 4 r
  else ascii ['\\', 'U'] ++ hexPad 8 r

/-- The runes of a string escaped one after the other; every rune takes at least one byte, so the
length of the string is fuel enough. -/
def escapedRunes : ℕ → GoString → GoString
  | 0, _ => []
  | _ + 1, [] => []
  | n + 1, b :: rest =>
    match decodeRune (b :: rest) with
    | none => ascii ['\\', 'x'] ++ hexPad 2 b.toNat ++ escapedRunes n rest
    | some (r, width) =>
      escapedRune isPrint r ((b :: rest).take width) ++ escapedRunes n ((b :: rest).drop width)

/-- `%q` of a string. -/
def quote (s : GoString) : GoString :=
  0x22 :: (escapedRunes isPrint s.length s ++ [0x22])

end Quote

/-! ### `time.Time` -/

instance neZero_nanoseconds : NeZero 1000000000 :=
  ⟨by decide⟩

/-- A `time.Time`: the seconds since the Unix epoch and the nanoseconds within the second, the
offset of its zone at that instant in seconds east, and the monotonic reading if it carries one. -/
structure Time where
  /-- Seconds since 1970-01-01T00:00:00Z. -/
  unix : ℤ
  /-- Nanoseconds within the second. -/
  nsec : Fin 1000000000
  /-- Seconds east of UTC. -/
  offset : ℤ
  /-- The monotonic reading, which `time.Now` attaches. -/
  mono : Option ℤ
deriving DecidableEq

namespace Time

/-- The zero value: the first instant of the year one, in UTC. -/
def zero : Time := ⟨-62135596800, 0, 0, none⟩

/-- `IsZero`; the zone plays no part. -/
def isZero (t : Time) : Bool :=
  t.unix == -62135596800 && t.nsec == 0

/-- `After`: by the monotonic readings when both have one, by the wall clock otherwise. -/
def after (t u : Time) : Bool :=
  match t.mono, u.mono with
  | some a, some b => b < a
  | _, _ => u.unix < t.unix || (t.unix == u.unix && u.nsec < t.nsec)

/-- `UTC`. -/
def utc (t : Time) : Time :=
  { t with offset := 0 }

/-- The year, a multiple of four hundred, by which the absolute seconds precede the year zero. -/
def absoluteYears : ℤ := 292277022400

/-- The unsigned seconds since March 1 of the year `-absoluteYears`, on the zone's clock. -/
def abs (t : Time) : ℕ :=
  ((t.unix + t.offset + 9223372028741760000) % 2 ^ 64).toNat

/-- Year, month and day of a number of days counted from that March 1. The year starts in March, so
that a leap day is its last day. -/
def date (days : ℕ) : ℤ × ℕ × ℕ :=
  let d := 4 * days + 3
  let e := 4 * (d % 146097 / 4) + 3
  let m := 5 * (e % 1461 / 4) + 461
  let year : ℤ := (d / 146097 * 100 + e / 1461 : ℕ) - absoluteYears
  if 12 < m / 153 then (year + 1, m / 153 - 12, m % 153 / 5 + 1)
  else (year, m / 153, m % 153 / 5 + 1)

/-- `appendInt`: the numeral with zeros in front up to a width, which the sign does not count in. -/
def appendInt (x : ℤ) (width : ℕ) : GoString :=
  (if x < 0 then [0x2d] else []) ++ (formatUint x.natAbs).leftpad width 0x30

private theorem bar_notMem_leftpad (n width : ℕ) :
    bar ∉ (formatUint n).leftpad width 0x30 := by
  rw [List.leftpad, List.mem_append, not_or]
  refine ⟨fun h ↦ ?_, bar_notMem_formatUint n⟩
  exact absurd (List.eq_of_mem_replicate h) (by decide)

theorem bar_notMem_appendInt (x : ℤ) (width : ℕ) : bar ∉ appendInt x width := by
  rw [appendInt, List.mem_append, not_or]
  refine ⟨?_, bar_notMem_leftpad _ _⟩
  split <;> decide

/-- The fraction of a second: nine digits less the zeros at the end, and no point without digits. -/
def appendNano (nsec : ℕ) : GoString :=
  let digits := ((formatUint nsec).leftpad 9 0x30).rdropWhile (· == 0x30)
  if digits = [] then [] else 0x2e :: digits

theorem bar_notMem_appendNano (nsec : ℕ) : bar ∉ appendNano nsec := by
  have hdigits : bar ∉ ((formatUint nsec).leftpad 9 0x30).rdropWhile (· == 0x30) :=
    fun h ↦ bar_notMem_leftpad nsec 9 ((List.rdropWhile_prefix _ _).subset h)
  rw [appendNano]
  split
  · exact List.not_mem_nil
  · exact List.not_mem_cons_of_ne_of_not_mem (by decide) hdigits

/-- The zone: `Z` for UTC, else sign, hours and minutes. The offset's seconds are cut off. -/
def appendZone (offset : ℤ) : GoString :=
  if offset = 0 then [0x5a]
  else
    let zone := offset.tdiv 60
    (if zone < 0 then 0x2d else 0x2b) ::
      (appendInt (zone.natAbs / 60) 2 ++ 0x3a :: appendInt (zone.natAbs % 60) 2)

theorem bar_notMem_appendZone (offset : ℤ) : bar ∉ appendZone offset := by
  rw [appendZone]
  split
  · decide
  · refine List.not_mem_cons_of_ne_of_not_mem (by split <;> decide) ?_
    rw [List.mem_append, not_or]
    exact ⟨bar_notMem_appendInt _ _,
      List.not_mem_cons_of_ne_of_not_mem (by decide) (bar_notMem_appendInt _ _)⟩

/-- `Format` with the layout `time.RFC3339Nano`, or `time.RFC3339` without the fraction. -/
def formatRFC3339 (nanos : Bool) (t : Time) : GoString :=
  let (year, month, day) := date (t.abs / 86400)
  let clock := t.abs % 86400
  appendInt year 4 ++ 0x2d :: appendInt month 2 ++ 0x2d :: appendInt day 2 ++
    0x54 :: appendInt (clock / 3600 : ℕ) 2 ++ 0x3a :: appendInt (clock % 3600 / 60 : ℕ) 2 ++
    0x3a :: appendInt (clock % 60 : ℕ) 2 ++ (if nanos then appendNano t.nsec else []) ++
    appendZone t.offset

/-- **A formatted time has no separator in it.** -/
theorem bar_notMem_formatRFC3339 (nanos : Bool) (t : Time) : bar ∉ formatRFC3339 nanos t := by
  have hnano : bar ∉ (if nanos then appendNano t.nsec else []) := by
    split
    · exact bar_notMem_appendNano _
    · exact List.not_mem_nil
  have hdash : bar ≠ 0x2d := by decide
  have hT : bar ≠ 0x54 := by decide
  have hcolon : bar ≠ 0x3a := by decide
  simp only [formatRFC3339, List.mem_append, List.mem_cons, not_or]
  simp [bar_notMem_appendInt, bar_notMem_appendZone, hnano, hdash, hT, hcolon]

end Time

end Go

end SourceOS
