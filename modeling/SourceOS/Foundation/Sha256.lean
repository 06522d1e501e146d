import Mathlib.Data.List.Basic

/-!
# SHA-256

The digest itself, written so that it **computes in the kernel**: every loop is a structural
recursion over the round constants or over the blocks, on `UInt32` words. A statement that a
program's stored digest is the right one can then be checked on a concrete text, and a statement
that assumes the absence of collisions is about this function and not about a symbol.

* `compress` is one block: sixty-four rounds, one for each constant of `roundConstants`, over a
  sliding window of sixteen schedule words.
* `sum256` pads the message, feeds its blocks through `compress` and writes the eight words out. Its
  result is always thirty-two bytes (`length_sum256`), which is the only fact the proofs use.
-/

namespace SourceOS.Sha256

/-- Rotation to the right. -/
def rotr (x : UInt32) (n : UInt32) : UInt32 :=
  (x >>> n) ||| (x <<< (32 - n))

/-- The eight working words. -/
structure Words where
  /-- First word. -/
  a : UInt32
  /-- Second word. -/
  b : UInt32
  /-- Third word. -/
  c : UInt32
  /-- Fourth word. -/
  d : UInt32
  /-- Fifth word. -/
  e : UInt32
  /-- Sixth word. -/
  f : UInt32
  /-- Seventh word. -/
  g : UInt32
  /-- Eighth word. -/
  h : UInt32
  deriving DecidableEq, Repr

/-- The initial hash value. -/
def initial : Words :=
  ⟨0x6a09e667, 0xbb67ae85, 0x3c6ef372, 0xa54ff53a, 0x510e527f, 0x9b05688c, 0x1f83d9ab, 0x5be0cd19⟩

/-- The sixty-four round constants. -/
def roundConstants : List UInt32 :=
  [0x428a2f98, 0x71374491, 0xb5c0fbcf, 0xe9b5dba5, 0x3956c25b, 0x59f111f1, 0x923f82a4, 0xab1c5ed5,
   0xd807aa98, 0x12835b01, 0x243185be, 0x550c7dc3, 0x72be5d74, 0x80deb1fe, 0x9bdc06a7, 0xc19bf174,
   0xe49b69c1, 0xefbe4786, 0x0fc19dc6, 0x240ca1cc, 0x2de92c6f, 0x4a7484aa, 0x5cb0a9dc, 0x76f988da,
   0x983e5152, 0xa831c66d, 0xb00327c8, 0xbf597fc7, 0xc6e00bf3, 0xd5a79147, 0x06ca6351, 0x14292967,
   0x27b70a85, 0x2e1b2138, 0x4d2c6dfc, 0x53380d13, 0x650a7354, 0x766a0abb, 0x81c2c92e, 0x92722c85,
   0xa2bfe8a1, 0xa81a664b, 0xc24b8b70, 0xc76c51a3, 0xd192e819, 0xd6990624, 0xf40e3585, 0x106aa070,
   0x19a4c116, 0x1e376c08, 0x2748774c, 0x34b0bcb5, 0x391c0cb3, 0x4ed8aa4a, 0x5b9cca4f, 0x682e6ff3,
   0x748f82ee, 0x78a5636f, 0x84c87814, 0x8cc70208, 0x90befffa, 0xa4506ceb, 0xbef9a3f7, 0xc67178f2]

/-- One round with schedule word `w` and constant `k`. -/
def round (s : Words) (w k : UInt32) : Words :=
  let S₁ := rotr s.e 6 ^^^ rotr s.e 11 ^^^ rotr s.e 25
  let ch := (s.e &&& s.f) ^^^ (~~~s.e &&& s.g)
  let t₁ := s.h + S₁ + ch + k + w
  let S₀ := rotr s.a 2 ^^^ rotr s.a 13 ^^^ rotr s.a 22
  let maj := (s.a &&& s.b) ^^^ (s.a &&& s.c) ^^^ (s.b &&& s.c)
  ⟨t₁ + (S₀ + maj), s.a, s.b, s.c, s.d + t₁, s.e, s.f, s.g⟩

/-- The schedule word that follows a window of sixteen. -/
def extend (w : List UInt32) : UInt32 :=
  let w₁ := w.getD 1 0
  let w₁₄ := w.getD 14 0
  let σ₀ := rotr w₁ 7 ^^^ rotr w₁ 18 ^^^ (w₁ >>> 3)
  let σ₁ := rotr w₁₄ 17 ^^^ rotr w₁₄ 19 ^^^ (w₁₄ >>> 10)
  w.getD 0 0 + σ₀ + w.getD 9 0 + σ₁

/-- The rounds; the window slides by one word at each. -/
def rounds : List UInt32 → List UInt32 → Words → Words
  | [], _, s => s
  | k :: ks, w, s => rounds ks (w.tail ++ [extend w]) (round s (w.getD 0 0) k)

/-- One block of sixteen words. -/
def compress (s : Words) (block : List UInt32) : Words :=
  let t := rounds roundConstants block s
  ⟨s.a + t.a, s.b + t.b, s.c + t.c, s.d + t.d, s.e + t.e, s.f + t.f, s.g + t.g, s.h + t.h⟩

/-- Bytes read as big-endian words. -/
def wordsOfBytes : List UInt8 → List UInt32
  | b₀ :: b₁ :: b₂ :: b₃ :: rest =>
    (b₀.toUInt32 <<< 24 ||| b₁.toUInt32 <<< 16 ||| b₂.toUInt32 <<< 8 ||| b₃.toUInt32) ::
      wordsOfBytes rest
  | _ => []

/-- A word written big-endian. -/
def bytesOfWord (w : UInt32) : List UInt8 :=
  [(w >>> 24).toUInt8, (w >>> 16).toUInt8, (w >>> 8).toUInt8, w.toUInt8]

/-- The number `n` in `k` bytes, big-endian, modulo `256 ^ k`. -/
def bigEndian : ℕ → ℕ → List UInt8
  | 0, _ => []
  | k + 1, n => bigEndian k (n / 256) ++ [UInt8.ofNat n]

/-- The message, a one bit, zeros up to the last eight bytes of a block, the length in bits. -/
def pad (m : List UInt8) : List UInt8 :=
  m ++ 0x80 :: (List.replicate ((119 - m.length % 64) % 64) 0 ++ bigEndian 8 (8 * m.length))

/-- The blocks of a padded message, `n` of them. -/
def blocks : ℕ → List UInt32 → Words → Words
  | 0, _, s => s
  | n + 1, w, s => blocks n (w.drop 16) (compress s (w.take 16))

/-- The thirty-two bytes of a hash value. -/
def Words.bytes (s : Words) : List UInt8 :=
  [s.a, s.b, s.c, s.d, s.e, s.f, s.g, s.h].flatMap bytesOfWord

/-- `sha256.Sum256`. -/
def sum256 (m : List UInt8) : List UInt8 :=
  let padded := pad m
  (blocks (padded.length / 64) (wordsOfBytes padded) initial).bytes

/-- The digest is thirty-two bytes long, whatever the message. -/
theorem length_sum256 (m : List UInt8) : (sum256 m).length = 32 := rfl

-- The standard test vector for `abc`.
example : sum256 [0x61, 0x62, 0x63] =
    [0xba, 0x78, 0x16, 0xbf, 0x8f, 0x01, 0xcf, 0xea, 0x41, 0x41, 0x40, 0xde, 0x5d, 0xae, 0x22, 0x23,
     0xb0, 0x03, 0x61, 0xa3, 0x96, 0x17, 0x7a, 0x9c, 0xb4, 0x10, 0xff, 0x61, 0xf2, 0x00, 0x15,
     0xad] := by
  decide +kernel

end SourceOS.Sha256
