import Mathlib.Algebra.Group.Int.Defs
import Mathlib.Algebra.Group.Nat.Defs
import SourceOS.Foundation.Json

/-!
# Python's view of a JSON value

What `str`, `repr`, `int` and `bool` make of a value that came out of `json.loads`. A program that
converts its input with these functions accepts far more than the shapes it was written for — a
number where a string was meant, a nested object where an address was meant — so the conversions
are modelled on every value, with the errors they raise.

Beyond ASCII the answers depend on the Unicode database of the interpreter, which is a parameter
(`UnicodeDb`), bundled in `Runtime` with what the interpreter knows about floating-point numbers and
how deep it reads; no result below depends on them.

There is a limit to the digits of an integer that is converted from a text or to one (`HasNumeral`).
A decimal numeral within it converts back (`intOfStr_ofInt`).
-/

namespace SourceOS

/-- The answers of the Unicode database about characters beyond ASCII. -/
structure UnicodeDb where
  /-- `str.isprintable`, for one character. -/
  printable : Char → Bool
  /-- The value of a decimal digit. -/
  digit : Char → Option ℕ
  /-- `str.isdigit`, for one character. -/
  isDigit : Char → Bool

/-- The number that a floating-point number is, or one of the infinities. Numbers are counted in the
smallest positive one of them, of which there are `2 ^ 1074` in 1. -/
inductive FloatValue
  | negInf
  | finite (n : ℤ)
  | posInf
deriving DecidableEq

/-- The order of numbers. -/
def FloatValue.le : FloatValue → FloatValue → Bool
  | .negInf, _ => true
  | _, .posInf => true
  | .finite m, .finite n => decide (m ≤ n)
  | _, _ => false

/-- The number that an integer is. -/
def FloatValue.ofInt (n : ℤ) : FloatValue :=
  .finite (n * 2 ^ 1074)

/-- What a program reads from the interpreter it runs on: the Unicode database, the number a
floating-point literal denotes, and a limit to recursion. -/
structure Runtime where
  /-- The Unicode database. -/
  unicode : UnicodeDb
  /-- `float` of a literal. -/
  readFloat : Str → PyFloat
  /-- The containers one in another that `json.loads` reads before it raises `RecursionError`. -/
  maxDepth : ℕ
  /-- They are some. -/
  maxDepth_pos : 4 ≤ maxDepth
  /-- The number that a floating-point number other than NaN is. -/
  floatValue : PyFloat → FloatValue

/-- A runtime that knows about ASCII only. It agrees with every other one on texts without further
characters and without floating-point literals. -/
def Runtime.ascii : Runtime where
  unicode := ⟨fun _ ↦ false, fun _ ↦ none, fun _ ↦ false⟩
  readFloat s := ⟨s.filter fun c ↦ 0x20 ≤ c.toNat ∧ c.toNat ≤ 0x7e, by simp, none, false⟩
  maxDepth := 990
  maxDepth_pos := by decide
  floatValue _ := .finite 0

/-- A built-in exception: the name of its class and its message. -/
structure BuiltinError where
  /-- The class name. -/
  cls : Str
  /-- The text. -/
  msg : Str
deriving DecidableEq

namespace Python

/-- `sys.get_int_max_str_digits()`. -/
def maxStrDigits : ℕ := 4300

end Python

namespace Runtime

/-- The limits of `json.loads`. -/
def reader (rt : Runtime) : JsonReader where
  readFloat := rt.readFloat
  maxDigits := some Python.maxStrDigits
  maxDepth := some rt.maxDepth

/-- `json.loads`, which raises at too many digits or containers. -/
def loads (rt : Runtime) (s : Str) : Option (Json PyChar) :=
  Json.read rt.reader s

theorem takesDepth (rt : Runtime) {n : ℕ} (h : n ≤ 4) : rt.reader.takesDepth n = true :=
  decide_eq_true (h.trans rt.maxDepth_pos)

end Runtime

namespace Python

open Text Json

variable (db : UnicodeDb)

/-! ### `str` and `repr` -/

/-- A code point in hexadecimal, with leading zeros up to a width. -/
def hexPad : ℕ → ℕ → Str
  | 0, _ => []
  | w + 1, n => hexPad w (n / 16) ++ [hexDigit (n % 16)]

/-- One character of a string's `repr`, inside the given quotes. -/
def reprChar (quote c : Char) : Str :=
  if c = quote ∨ c = '\\' then ['\\', c]
  else if c = '\t' then ['\\', 't']
  else if c = '\n' then ['\\', 'n']
  else if c = '\r' then ['\\', 'r']
  else if c.toNat < 0x20 ∨ c.toNat = 0x7f then '\\' :: 'x' :: hexPad 2 c.toNat
  else if c.toNat < 0x7f then [c]
  else if db.printable c then [c]
  else if c.toNat ≤ 0xff then '\\' :: 'x' :: hexPad 2 c.toNat
  else if c.toNat ≤ 0xffff then '\\' :: 'u' :: hexPad 4 c.toNat
  else '\\' :: 'U' :: hexPad 8 c.toNat

end Python

namespace PyStr

/-- One character of a string's `repr`. -/
def reprChar (db : UnicodeDb) (quote : Char) : PyChar → Str
  | .char c => Python.reprChar db quote c
  | .surrogate i => '\\' :: 'u' :: Python.hexPad 4 (0xd800 + i)

/-- `repr` of a string. -/
def repr (db : UnicodeDb) (s : PyStr) : Str :=
  -- single quotes, unless they would have to be escaped and double quotes would not
  let quote := if .char '\'' ∈ s ∧ .char '"' ∉ s then '"' else '\''
  quote :: (s.flatMap (reprChar db quote) ++ [quote])

end PyStr

namespace Python

open Text Json

section Values

variable {α : Type} [JsonChar α] (db : UnicodeDb)

/-- `repr` of a string. -/
def reprStr (s : List α) : Str :=
  PyStr.repr db (s.map JsonChar.toPy)

mutual

/-- `repr`. -/
def repr (db : UnicodeDb) : Json α → Str
  | .null => "None".toList
  | .bool true => "True".toList
  | .bool false => "False".toList
  | .int n => decimal n
  | .float x => x.repr
  | .str s => reprStr db s
  | .arr xs => '[' :: reprItems db xs
  | .obj ms => '{' :: reprMembers db ms

/-- The items of a list and its closing bracket. -/
def reprItems (db : UnicodeDb) : List (Json α) → Str
  | [] => [']']
  | [x] => repr db x ++ [']']
  | x :: y :: xs => repr db x ++ ',' :: ' ' :: reprItems db (y :: xs)

/-- The entries of a dictionary and its closing brace. -/
def reprMembers (db : UnicodeDb) : List (List α × Json α) → Str
  | [] => ['}']
  | [(k, v)] => reprStr db k ++ ':' :: ' ' :: (repr db v ++ ['}'])
  | (k, v) :: m :: ms =>
    reprStr db k ++ ':' :: ' ' :: (repr db v ++ ',' :: ' ' :: reprMembers db (m :: ms))

end

/-- `str`: a string is its own text. -/
def str : Json α → List α
  | .str s => s
  | j => (repr db j).map JsonChar.ofChar

end Values

/-- What `str` makes of a value that was read is in normal form. -/
theorem normal_str (db : UnicodeDb) {j : Json PyChar} (h : Tidy j) :
    JsonChar.normal (str db j) = str db j := by
  cases j with
  | str s => exact h
  | null | bool | int | float | arr | obj => exact PyStr.normal_ofStr _

section Types

variable {α : Type}

/-- `type(j).__name__`. -/
def typeName : Json α → String
  | .null => "NoneType"
  | .bool _ => "bool"
  | .int _ => "int"
  | .float _ => "float"
  | .str _ => "str"
  | .arr _ => "list"
  | .obj _ => "dict"

/-! ### `bool` -/

/-- Truth value testing. -/
def truthy : Json α → Bool
  | .null => false
  | .bool b => b
  | .int n => n != 0
  | .float x => !x.isZero
  | .str s => !s.isEmpty
  | .arr xs => !xs.isEmpty
  | .obj ms => !ms.isEmpty

end Types

variable (db : UnicodeDb)

/-! ### `int` -/

/-- The integer has no more digits than are converted from a text and to one. -/
def HasNumeral (n : ℤ) : Prop :=
  (Nat.toDigits 10 n.natAbs).length ≤ maxStrDigits

instance : DecidablePred HasNumeral := fun _ ↦ Nat.decLe _ _

theorem hasNumeral_of_lt {n : ℤ} {k : ℕ} (hk : k ≤ maxStrDigits) (h : n.natAbs < 10 ^ k) :
    HasNumeral n :=
  (Nat.length_toDigits_le_iff (by decide) (by decide)).2
    (h.trans_le (Nat.pow_le_pow_right (by decide) hk))

/-- These are the integers that `json.loads` reads, too. -/
theorem takesDigits_iff (rt : Runtime) {n : ℤ} :
    rt.reader.takesDigits (Nat.toDigits 10 n.natAbs).length = true ↔ HasNumeral n :=
  decide_eq_true_iff

/-- The error on more digits, when a text is converted, -/
def limitError (digits : ℕ) : BuiltinError :=
  ⟨"ValueError".toList, "Exceeds the limit (".toList ++ decimal (maxStrDigits : ℤ) ++
    " digits) for integer string conversion: value has ".toList ++ decimal (digits : ℤ) ++
    " digits; use sys.set_int_max_str_digits() to increase the limit".toList⟩

/-- and when an integer is. -/
def numeralError : BuiltinError :=
  ⟨"ValueError".toList, "Exceeds the limit (".toList ++ decimal (maxStrDigits : ℤ) ++
    " digits) for integer string conversion; use sys.set_int_max_str_digits() to increase".toList ++
    " the limit".toList⟩

/-- The error on a text that is no numeral: at most 200 characters of its `repr` are shown. -/
def literalError (s : PyStr) : BuiltinError :=
  ⟨"ValueError".toList, "invalid literal for int() with base 10: ".toList ++
    (PyStr.repr db s).take 200⟩

/-- The white space `int` skips. Unlike `str.strip` it does not skip the separators from `\x1c` to
`\x1f`. -/
def isIntSpace : PyChar → Bool
  | .char c => if c.toNat < 0x80 then c == ' ' || (9 ≤ c.toNat && c.toNat ≤ 13) else isSpace c
  | .surrogate _ => false

/-- The value of a decimal digit. -/
def digitValue : PyChar → Option ℕ
  | .char c =>
    if c.isDigit then some (c.toNat - 48) else if c.toNat < 0x80 then none else db.digit c
  | .surrogate _ => none

/-- A character of a numeral after its sign. -/
def isNumeralChar (c : PyChar) : Bool :=
  c == .char '_' || (digitValue db c).isSome

/-- The number a text of digits with single underscores between them names. `under` says that an
underscore may come next; a text ends after a digit. -/
def digitsValue : Bool → ℕ → PyStr → Option ℕ
  | under, n, [] => if under then some n else none
  | under, n, c :: s =>
    if c = .char '_' then (if under then digitsValue false n s else none)
    else (digitValue db c).bind fun d ↦ digitsValue true (n * 10 + d) s

/-- `int` of a text after its sign. -/
def natOfStr (s : PyStr) : Except (PyStr → BuiltinError) ℕ :=
  let digits := s.takeWhile (isNumeralChar db)
  match digitsValue db false 0 digits with
  | none => .error (literalError db)
  | some n =>
    -- the limit is checked before what stands after the digits
    if maxStrDigits < digits.countP (· ≠ .char '_') then
      .error fun _ ↦ limitError (digits.countP (· ≠ .char '_'))
    else if (s.dropWhile (isNumeralChar db)).all isIntSpace then .ok n
    else .error (literalError db)

/-- `int` of a text: white space around, a sign, digits. -/
def intOfStr (rt : Runtime) (s : PyStr) : Except BuiltinError ℤ :=
  let t := s.dropWhile isIntSpace
  let signed := t.head? = some (.char '-') ∨ t.head? = some (.char '+')
  match natOfStr rt.unicode (if signed then t.tail else t) with
  | .ok n => .ok (if t.head? = some (.char '-') then -(n : ℤ) else n)
  | .error e => .error (e s)

/-- The error `int` raises on a value of a type it does not convert. -/
def intTypeError (type : String) : BuiltinError :=
  ⟨"TypeError".toList,
    "int() argument must be a string, a bytes-like object or a real number".toList ++
      ", not '".toList ++ type.toList ++ "'".toList⟩

/-- `int`. -/
def int {α : Type} [JsonChar α] (rt : Runtime) : Json α → Except BuiltinError ℤ
  | .null => .error (intTypeError "NoneType")
  | .bool b => .ok (if b then 1 else 0)
  | .int n => .ok n
  | .float x =>
    match x.trunc with
    | some n => .ok n
    | none =>
      if x.repr = "nan".toList then
        .error ⟨"ValueError".toList, "cannot convert float NaN to integer".toList⟩
      else .error ⟨"OverflowError".toList, "cannot convert float infinity to integer".toList⟩
  | .str s => intOfStr rt (s.map JsonChar.toPy)
  | .arr _ => .error (intTypeError "list")
  | .obj _ => .error (intTypeError "dict")

/-- `str.isdigit`. -/
def isDigitStr (s : PyStr) : Bool :=
  !s.isEmpty && s.all fun
    | .char c => if c.toNat < 0x80 then c.isDigit else db.isDigit c
    | .surrogate _ => false

/-! ### Numerals -/

/-- A digit is a digit, whatever the Unicode database. -/
theorem digitValue_of_isDigit {c : Char} (h : c.isDigit = true) :
    digitValue db (.char c) = some (c.toNat - 48) :=
  if_pos h

theorem toNat_lt_of_isDigit {c : Char} (h : c.isDigit = true) : c.toNat < 0x80 := by
  rw [Char.isDigit, Bool.and_eq_true, decide_eq_true_eq, decide_eq_true_eq] at h
  have h57 : c.toNat ≤ 57 := h.2
  omega

theorem digitsValue_toDigits (n : ℕ) :
    digitsValue db false 0 (PyStr.ofStr (Nat.toDigits 10 n)) = some n := by
  have haux : ∀ (ds : Str) (m : ℕ) (under : Bool), (∀ c ∈ ds, c.isDigit = true) →
      (ds = [] → under = true) →
        digitsValue db under m (PyStr.ofStr ds) = some (Nat.ofDigitChars 10 ds m) := by
    intro ds
    induction ds with
    | nil =>
      intro m under _ hunder
      rw [hunder rfl]
      rfl
    | cons c ds ih =>
      intro m under hds _
      have hc : c.isDigit = true := hds c List.mem_cons_self
      have hne : PyChar.char c ≠ .char '_' := by
        rintro ⟨⟩
        exact absurd hc (by decide)
      show digitsValue db under m (.char c :: PyStr.ofStr ds) = _
      rw [digitsValue, if_neg hne, digitValue_of_isDigit db hc, Option.bind_some,
        ih _ _ (fun d hd ↦ hds d (List.mem_cons_of_mem _ hd)) (fun _ ↦ rfl),
        Nat.ofDigitChars_cons, Nat.mul_comm]
      rfl
  have h := haux (Nat.toDigits 10 n) 0 false (fun _ h ↦ isDigit_of_mem_toDigits h)
    (fun h ↦ absurd h Nat.toDigits_ne_nil)
  rwa [Nat.ofDigitChars_ten_toDigits] at h

theorem natOfStr_toDigits {n : ℕ} (h : (Nat.toDigits 10 n).length ≤ maxStrDigits) :
    natOfStr db (PyStr.ofStr (Nat.toDigits 10 n)) = .ok n := by
  have hdigit : ∀ c ∈ PyStr.ofStr (Nat.toDigits 10 n),
      isNumeralChar db c = true ∧ c ≠ .char '_' := by
    intro c hc
    obtain ⟨c, hmem, rfl⟩ := List.mem_map.1 hc
    have hc := isDigit_of_mem_toDigits hmem
    refine ⟨by simp [isNumeralChar, digitValue_of_isDigit db hc], ?_⟩
    rintro ⟨⟩
    exact absurd hc (by decide)
  have hcount : (PyStr.ofStr (Nat.toDigits 10 n)).countP (· ≠ .char '_') ≤ maxStrDigits :=
    List.countP_le_length.trans (by rwa [PyStr.ofStr, List.length_map])
  have htake : (PyStr.ofStr (Nat.toDigits 10 n)).takeWhile (isNumeralChar db) =
      PyStr.ofStr (Nat.toDigits 10 n) :=
    List.takeWhile_eq_self_iff.2 fun c hc ↦ (hdigit c hc).1
  have hdrop : (PyStr.ofStr (Nat.toDigits 10 n)).dropWhile (isNumeralChar db) = [] :=
    List.dropWhile_eq_nil_iff.2 fun c hc ↦ (hdigit c hc).1
  simp only [natOfStr, htake, digitsValue_toDigits, if_neg (Nat.not_lt.2 hcount), hdrop,
    List.all_nil, if_true]

/-- A digit is not skipped. -/
theorem isIntSpace_of_isDigit {c : Char} (h : c.isDigit = true) : isIntSpace (.char c) = false := by
  have hvisible := isSpace_eq_false_of_isDigit h
  simp only [isSpace, Bool.or_eq_false_iff, Bool.and_eq_false_iff, decide_eq_false_iff_not,
    beq_eq_false_iff_ne] at hvisible
  have hne : c ≠ ' ' := by
    rintro rfl
    exact absurd h (by decide)
  simp only [isIntSpace, if_pos (toNat_lt_of_isDigit h), Bool.or_eq_false_iff, beq_eq_false_iff_ne,
    Bool.and_eq_false_iff, decide_eq_false_iff_not]
  exact ⟨hne, by omega⟩

/-- There is nothing to skip before a numeral. -/
theorem dropWhile_ofInt (n : ℤ) : (PyStr.ofInt n).dropWhile isIntSpace = PyStr.ofInt n := by
  obtain ⟨c, t, hct⟩ := List.exists_cons_of_ne_nil (decimal_ne_nil n)
  have hc : isIntSpace (.char c) = false := by
    rcases mem_decimal (hct ▸ List.mem_cons_self : c ∈ decimal n) with hdigit | rfl
    · exact isIntSpace_of_isDigit hdigit
    · decide
  rw [PyStr.ofInt, hct]
  exact List.dropWhile_cons_of_neg (by simp [hc])

/-- A numeral without sign begins with a digit. -/
theorem head?_toDigits_ne (n : ℕ) {c : Char} (hc : c.isDigit = false) :
    (PyStr.ofStr (Nat.toDigits 10 n)).head? ≠ some (.char c) := by
  intro hhead
  rw [PyStr.ofStr, List.head?_map, Option.map_eq_some_iff] at hhead
  obtain ⟨d, hd, hdc⟩ := hhead
  obtain rfl := PyChar.char.inj hdc
  have := isDigit_of_mem_toDigits (List.mem_of_mem_head? hd)
  rw [hc] at this
  exact absurd this (by decide)

/-- **A decimal numeral converts back**, whatever the Unicode database. -/
theorem intOfStr_ofInt (rt : Runtime) {n : ℤ} (h : HasNumeral n) :
    intOfStr rt (PyStr.ofInt n) = .ok n := by
  unfold intOfStr
  simp only [dropWhile_ofInt]
  cases n with
  | ofNat n =>
    have hread := @natOfStr_toDigits rt.unicode n h
    have hdecimal : PyStr.ofInt (Int.ofNat n) = PyStr.ofStr (Nat.toDigits 10 n) := rfl
    simp only [hdecimal, head?_toDigits_ne n (show '-'.isDigit = false by decide),
      head?_toDigits_ne n (show '+'.isDigit = false by decide), or_self, if_false, hread]
    rfl
  | negSucc n =>
    have hread := @natOfStr_toDigits rt.unicode (n + 1) h
    have hdecimal : PyStr.ofInt (Int.negSucc n) =
        .char '-' :: PyStr.ofStr (Nat.toDigits 10 (n + 1)) := rfl
    simp only [hdecimal, List.head?_cons, true_or, if_true, List.tail_cons, hread]
    rfl

/-- A text that begins with no character of a numeral is none. -/
theorem natOfStr_of_head {t : PyStr} (h : ∀ c ∈ t.head?, isNumeralChar db c = false) :
    natOfStr db t = .error (literalError db) := by
  have htake : t.takeWhile (isNumeralChar db) = [] := by
    rcases t with _ | ⟨c, t⟩
    · rfl
    · exact List.takeWhile_cons_of_neg (by simp [h c rfl])
  simp only [natOfStr, htake, digitsValue, Bool.false_eq_true, if_false]

/-- White space that is not skipped is a separator of ASCII, and no character of a numeral. -/
theorem not_numeral_of_isSpace {c : PyChar} (h : c.isSpace = true) (hskip : isIntSpace c = false) :
    c ≠ .char '-' ∧ c ≠ .char '+' ∧ isNumeralChar db c = false := by
  have hvisible : ∀ d : Char, isSpace d = false → c ≠ .char d := by
    rintro d hd rfl
    rw [show isSpace d = true from h] at hd
    exact absurd hd (by decide)
  refine ⟨hvisible '-' (by decide), hvisible '+' (by decide), ?_⟩
  cases c with
  | surrogate i => exact absurd h (by simp [PyChar.isSpace])
  | char c =>
    have hdigit : c.isDigit = false := by
      rw [← Bool.not_eq_true]
      exact fun hdigit ↦ hvisible c (isSpace_eq_false_of_isDigit hdigit) rfl
    have hunder : c ≠ '_' := by
      rintro rfl
      exact hvisible '_' (by decide) rfl
    have hascii : c.toNat < 0x80 := by
      by_contra hno
      rw [isIntSpace, if_neg hno, show isSpace c = true from h] at hskip
      exact absurd hskip (by decide)
    simp [isNumeralChar, digitValue, hdigit, hunder, hascii]

/-- What `int` converts is not blank. -/
theorem isBlank_eq_false_of_intOfStr {rt : Runtime} {s : PyStr} {n : ℤ}
    (h : intOfStr rt s = .ok n) : PyStr.isBlank s = false := by
  rw [← Bool.not_eq_true]
  intro hblank
  have hhead : ∀ c ∈ (s.dropWhile isIntSpace).head?,
      c ≠ .char '-' ∧ c ≠ .char '+' ∧ isNumeralChar rt.unicode c = false := by
    intro c hc
    have hspace := List.all_eq_true.1 hblank c
      ((List.dropWhile_suffix isIntSpace).mem (List.mem_of_mem_head? hc))
    have hskip := List.head?_dropWhile_not isIntSpace s
    rw [show (s.dropWhile isIntSpace).head? = some c from hc] at hskip
    exact not_numeral_of_isSpace rt.unicode hspace hskip
  have hminus : (s.dropWhile isIntSpace).head? ≠ some (.char '-') := fun hm ↦ (hhead _ hm).1 rfl
  have hplus : (s.dropWhile isIntSpace).head? ≠ some (.char '+') := fun hp ↦ (hhead _ hp).2.1 rfl
  unfold intOfStr at h
  simp only [hminus, hplus, or_self, if_false,
    natOfStr_of_head rt.unicode fun c hc ↦ (hhead c hc).2.2] at h
  exact absurd h (by simp)

/-- A numeral without sign is all digits. -/
theorem isDigitStr_toDigits (n : ℕ) : isDigitStr db (PyStr.ofStr (Nat.toDigits 10 n)) = true := by
  simp only [isDigitStr, Bool.and_eq_true, Bool.not_eq_true', List.isEmpty_eq_false_iff,
    List.all_eq_true]
  refine ⟨by simp [PyStr.ofStr], fun c hc ↦ ?_⟩
  obtain ⟨d, hd, rfl⟩ := List.mem_map.1 hc
  have hdigit := isDigit_of_mem_toDigits hd
  simp only [if_pos (toNat_lt_of_isDigit hdigit), hdigit]

end Python

end SourceOS
