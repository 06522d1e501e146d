import SourceOS.Foundation.JsonString

/-!
# JSON text

JSON values and the two directions of Python's `json` module with its default settings: `dumps`
writes ASCII text with the separators `", "` and `": "`, and `loads` reads a text back.

A floating-point number enters only as far as a program can look at it: its own text, the integer
it truncates to (none for the infinities and NaN), and whether it is zero. Reading a literal with a
fraction or an exponent is delegated to a parameter `readFloat`. The characters of strings are those
of texts proper or of Python strings.

`read` is a recursive-descent reader over the remaining characters with a fuel bound, the length of
the text. A reader may have a limit to the digits of an integer and to the containers one in another
(`JsonReader`); `loads` has none.

The main result is **the round trip** `loads_dumps`: reading what was written gives the value back,
for every value without floating-point numbers whose objects have distinct keys. It is proved for
every text of the value, wherever white space stands in it (`Writes`, `readValue_of_writes`), as
long as its strings are legible and the reader's limits are kept (`Fits`); what `dumps` writes is
such a text. Strings that are not in normal form are read in normal form. Whatever is read has it
(`tidy_of_read`).
-/

namespace SourceOS

/-- A floating-point number, as far as a program reads it. -/
structure PyFloat where
  /-- Its text: `repr`. -/
  repr : Str
  /-- The text is printable ASCII. -/
  printable : ∀ c ∈ repr, 0x20 ≤ c.toNat ∧ c.toNat ≤ 0x7e
  /-- The integer it truncates to; none for the infinities and NaN. -/
  trunc : Option ℤ
  /-- Whether it is a zero. -/
  isZero : Bool
deriving DecidableEq

/-- A JSON value, with strings of the given characters. Objects keep the order of their members. -/
inductive Json (α : Type := Char)
  | null
  | bool (b : Bool)
  | int (n : ℤ)
  | float (x : PyFloat)
  | str (s : List α)
  | arr (xs : List (Json α))
  | obj (ms : List (List α × Json α))

namespace Json

/-- The value under a key: `dict.get`. -/
def get? {α : Type} [DecidableEq α] : Json α → List α → Option (Json α)
  | .obj ms, k => ms.lookup k
  | _, _ => none

/-! ### Writing -/

/-- A floating-point number in JSON: the names of the infinities and of NaN differ from `repr`. -/
def dumpsFloat (x : PyFloat) : Str :=
  if x.repr = "nan".toList then "NaN".toList
  else if x.repr = "inf".toList then "Infinity".toList
  else if x.repr = "-inf".toList then "-Infinity".toList
  else x.repr

section Writing

variable {α : Type} [JsonChar α]

mutual

/-- `json.dumps`. -/
def dumps : Json α → Str
  | .null => ['n', 'u', 'l', 'l']
  | .bool true => ['t', 'r', 'u', 'e']
  | .bool false => ['f', 'a', 'l', 's', 'e']
  | .int n => Text.decimal n
  | .float x => dumpsFloat x
  | .str s => dumpsStr s
  | .arr xs => '[' :: dumpsItems xs
  | .obj ms => '{' :: dumpsMembers ms

/-- The items of an array and its closing bracket. -/
def dumpsItems : List (Json α) → Str
  | [] => [']']
  | x :: xs => dumps x ++ dumpsItemsTail xs

/-- The items after the first. -/
def dumpsItemsTail : List (Json α) → Str
  | [] => [']']
  | x :: xs => ',' :: ' ' :: (dumps x ++ dumpsItemsTail xs)

/-- The members of an object and its closing brace. -/
def dumpsMembers : List (List α × Json α) → Str
  | [] => ['}']
  | (k, v) :: ms => dumpsStr k ++ ':' :: ' ' :: (dumps v ++ dumpsMembersTail ms)

/-- The members after the first. -/
def dumpsMembersTail : List (List α × Json α) → Str
  | [] => ['}']
  | (k, v) :: ms => ',' :: ' ' :: (dumpsStr k ++ ':' :: ' ' :: (dumps v ++ dumpsMembersTail ms))

end

end Writing

/-! ### Reading -/

/-- JSON white space. -/
def isWs (c : Char) : Bool :=
  c == ' ' || c == '\t' || c == '\n' || c == '\r'

/-- White space skipped. -/
def skipWs (s : Str) : Str :=
  s.dropWhile isWs

/-- The fraction of a number, if there is one, and the rest of the text. -/
def scanFraction (s : Str) : Str × Str :=
  if s.head? = some '.' ∧ s.tail.takeWhile Char.isDigit ≠ [] then
    ('.' :: s.tail.takeWhile Char.isDigit, s.tail.dropWhile Char.isDigit)
  else ([], s)

/-- The exponent of a number, if there is one, and the rest of the text. -/
def scanExponent (s : Str) : Str × Str :=
  if s.head? = some 'e' ∨ s.head? = some 'E' then
    let sign := if s.tail.head? = some '+' ∨ s.tail.head? = some '-' then s.tail.take 1 else []
    let digits := (s.tail.drop sign.length).takeWhile Char.isDigit
    if digits = [] then ([], s)
    else (s.take 1 ++ sign ++ digits, (s.tail.drop sign.length).dropWhile Char.isDigit)
  else ([], s)

/-- The integer part of a number without its sign: `0`, or digits not starting with `0`. -/
def scanNatural (s : Str) : Option (Str × Str) :=
  if s.head? = some '0' then some (['0'], s.tail)
  else if s.takeWhile Char.isDigit = [] then none
  else some (s.takeWhile Char.isDigit, s.dropWhile Char.isDigit)

end Json

/-- A reader of JSON: what it makes of the literal of a floating-point number, and its limits. -/
structure JsonReader where
  /-- `float` of a literal. -/
  readFloat : Str → PyFloat
  /-- The most digits of an integer. -/
  maxDigits : Option ℕ := none
  /-- The most containers one in another. -/
  maxDepth : Option ℕ := none

namespace JsonReader

/-- An integer may have so many digits. -/
def takesDigits (R : JsonReader) (n : ℕ) : Bool :=
  R.maxDigits.all (n ≤ ·)

/-- So many containers may be one in another. -/
def takesDepth (R : JsonReader) (n : ℕ) : Bool :=
  R.maxDepth.all (n ≤ ·)

end JsonReader

namespace Json

section Reader

variable {α : Type} [DecidableEq α] [JsonChar α] (R : JsonReader)

/-- A number with the integer part `ds`, negative as `neg` says. -/
def finishNumber (neg : Bool) (ds r : Str) : Option (Json α × Str) :=
  let (frac, r₁) := scanFraction r
  let (expo, r₂) := scanExponent r₁
  if frac = [] ∧ expo = [] then
    if R.takesDigits ds.length then
      some (.int (if neg then -(Nat.ofDigitChars 10 ds 0 : ℤ) else Nat.ofDigitChars 10 ds 0), r)
    else none
  else some (.float (R.readFloat ((if neg then ['-'] else []) ++ ds ++ frac ++ expo)), r₂)

/-- A number, or one of the constants `NaN`, `Infinity` and `-Infinity`. -/
def readNumber (s : Str) : Option (Json α × Str) :=
  if "NaN".toList.isPrefixOf s then some (.float (R.readFloat "NaN".toList), s.drop 3)
  else if "Infinity".toList.isPrefixOf s then
    some (.float (R.readFloat "Infinity".toList), s.drop 8)
  else if "-Infinity".toList.isPrefixOf s then
    some (.float (R.readFloat "-Infinity".toList), s.drop 9)
  else if s.head? = some '-' then
    (scanNatural s.tail).bind fun p ↦ finishNumber R true p.1 p.2
  else (scanNatural s).bind fun p ↦ finishNumber R false p.1 p.2

/-- A member added to an object under construction: a repeated key takes the later value. -/
def insertMember (ms : List (List α × Json α)) (m : List α × Json α) : List (List α × Json α) :=
  if m.1 ∈ ms.map Prod.fst then ms.map fun m' ↦ if m'.1 = m.1 then m else m' else ms ++ [m]

/-- The object that members read one after the other build. -/
def ofMembers (ms : List (List α × Json α)) : List (List α × Json α) :=
  ms.foldl insertMember []

mutual

/-- A value at the start of the text, inside so many containers, and the rest. -/
def readValue (R : JsonReader) (depth : ℕ) : ℕ → Str → Option (Json α × Str)
  | 0, _ => none
  | n + 1, s =>
    if s.head? = some '"' then (readString s.tail).map fun p ↦ (.str p.1, p.2)
    else if s.head? = some '[' then
      if R.takesDepth (depth + 1) = false then none
      else if (skipWs s.tail).head? = some ']' then some (.arr [], (skipWs s.tail).tail)
      else (readItems R (depth + 1) n (skipWs s.tail)).map fun p ↦ (.arr p.1, p.2)
    else if s.head? = some '{' then
      if R.takesDepth (depth + 1) = false then none
      else if (skipWs s.tail).head? = some '}' then some (.obj [], (skipWs s.tail).tail)
      else (readMembers R (depth + 1) n (skipWs s.tail)).map fun p ↦ (.obj (ofMembers p.1), p.2)
    else if "null".toList.isPrefixOf s then some (.null, s.drop 4)
    else if "true".toList.isPrefixOf s then some (.bool true, s.drop 4)
    else if "false".toList.isPrefixOf s then some (.bool false, s.drop 5)
    else readNumber R s

/-- The items of an array from the first one on. -/
def readItems (R : JsonReader) (depth : ℕ) : ℕ → Str → Option (List (Json α) × Str)
  | 0, _ => none
  | n + 1, s =>
    (readValue R depth n s).bind fun p ↦
      if (skipWs p.2).head? = some ']' then some ([p.1], (skipWs p.2).tail)
      else if (skipWs p.2).head? = some ',' then
        (readItems R depth n (skipWs (skipWs p.2).tail)).map fun q ↦ (p.1 :: q.1, q.2)
      else none

/-- The members of an object from the first one on. -/
def readMembers (R : JsonReader) (depth : ℕ) :
    ℕ → Str → Option (List (List α × Json α) × Str)
  | 0, _ => none
  | n + 1, s =>
    if s.head? = some '"' then
      (readString s.tail).bind fun k ↦
        if (skipWs k.2).head? = some ':' then
          (readValue R depth n (skipWs (skipWs k.2).tail)).bind fun p ↦
            if (skipWs p.2).head? = some '}' then some ([(k.1, p.1)], (skipWs p.2).tail)
            else if (skipWs p.2).head? = some ',' then
              (readMembers R depth n (skipWs (skipWs p.2).tail)).map fun q ↦
                ((k.1, p.1) :: q.1, q.2)
            else none
        else none
    else none

end

/-- `json.loads`, by a reader with limits. -/
def read (s : Str) : Option (Json α) :=
  (readValue R 0 (s.length + 1) (skipWs s)).bind fun p ↦
    if skipWs p.2 = [] then some p.1 else none

/-- `json.loads`. -/
def loads (readFloat : Str → PyFloat) (s : Str) : Option (Json α) :=
  read ⟨readFloat, none, none⟩ s

end Reader

/-! ### The round trip: numbers -/

/-- A text that cannot continue a number. -/
def NumberStop (r : Str) : Prop :=
  ∀ c ∈ r.head?, c.isDigit = false ∧ c ≠ '.' ∧ c ≠ 'e' ∧ c ≠ 'E'

theorem numberStop_nil : NumberStop [] := by
  intro c hc
  simp at hc

theorem numberStop_cons {c : Char} {r : Str} (hd : c.isDigit = false) (h₁ : c ≠ '.')
    (h₂ : c ≠ 'e') (h₃ : c ≠ 'E') : NumberStop (c :: r) := by
  intro d hd'
  obtain rfl : c = d := by simpa using hd'
  exact ⟨hd, h₁, h₂, h₃⟩

/-- Digits are read up to the first character that is none. -/
theorem span_digits {ds r : Str} (hds : ∀ c ∈ ds, c.isDigit = true) (hr : NumberStop r) :
    (ds ++ r).takeWhile Char.isDigit = ds ∧ (ds ++ r).dropWhile Char.isDigit = r := by
  rw [List.takeWhile_append_of_pos hds, List.dropWhile_append_of_pos hds]
  cases r with
  | nil => simp
  | cons c r =>
    have hc : c.isDigit = false := (hr c rfl).1
    simp [hc]

/-- A numeral starts with `0` only when it is `0`. -/
theorem head?_toDigits (n : ℕ) : (Nat.toDigits 10 n).head? = some '0' ↔ n = 0 := by
  induction n using Nat.strong_induction_on with
  | _ n ih =>
    rcases Nat.lt_or_ge n 10 with h | h
    · rw [Nat.toDigits_of_lt_base h]
      simp
    · rw [Nat.toDigits_of_base_le (by decide) h,
        List.head?_append_of_ne_nil _ Nat.toDigits_ne_nil, ih _ (by omega)]
      omega

theorem scanNatural_toDigits (n : ℕ) {r : Str} (hr : NumberStop r) :
    scanNatural (Nat.toDigits 10 n ++ r) = some (Nat.toDigits 10 n, r) := by
  have hne : Nat.toDigits 10 n ≠ [] := Nat.toDigits_ne_nil
  have hdigits : ∀ c ∈ Nat.toDigits 10 n, c.isDigit = true := fun _ h ↦
    Text.isDigit_of_mem_toDigits h
  obtain ⟨htake, hdrop⟩ := span_digits hdigits hr
  rw [scanNatural, List.head?_append_of_ne_nil _ hne]
  by_cases h : n = 0
  · subst h
    rfl
  · rw [if_neg (fun h' ↦ h ((head?_toDigits n).1 h')), htake, hdrop, if_neg hne]

section Numbers

variable {α : Type} {R : JsonReader}

theorem finishNumber_toDigits (neg : Bool) {n : ℕ}
    (hn : R.takesDigits (Nat.toDigits 10 n).length = true) {r : Str} (hr : NumberStop r) :
    finishNumber R neg (Nat.toDigits 10 n) r =
      some ((.int (if neg then -(n : ℤ) else n) : Json α), r) := by
  have hfrac : scanFraction r = ([], r) := by
    rw [scanFraction, if_neg]
    rintro ⟨h, -⟩
    exact (hr _ h).2.1 rfl
  have hexpo : scanExponent r = ([], r) := by
    rw [scanExponent, if_neg]
    rintro (h | h)
    · exact (hr _ h).2.2.1 rfl
    · exact (hr _ h).2.2.2 rfl
  simp only [finishNumber, hfrac, hexpo, and_self, if_true, Nat.ofDigitChars_ten_toDigits, hn]

theorem readNumber_decimal {n : ℤ}
    (hn : R.takesDigits (Nat.toDigits 10 n.natAbs).length = true) {r : Str} (hr : NumberStop r) :
    readNumber R (Text.decimal n ++ r) = some ((.int n : Json α), r) := by
  obtain ⟨c, t, hct⟩ := List.exists_cons_of_ne_nil (Nat.toDigits_ne_nil (n := n.natAbs) (b := 10))
  have hc : c.isDigit = true := Text.isDigit_of_mem_toDigits (hct ▸ List.mem_cons_self)
  have hne : c ≠ 'N' ∧ c ≠ 'I' ∧ c ≠ '-' := by
    refine ⟨?_, ?_, ?_⟩ <;> (rintro rfl; revert hc; decide)
  cases n with
  | ofNat n =>
    have hct' : Nat.toDigits 10 n = c :: t := hct
    have hn' : R.takesDigits (Nat.toDigits 10 n).length = true := hn
    show readNumber R (Nat.toDigits 10 n ++ r) = _
    rw [readNumber, scanNatural_toDigits n hr, Option.bind_some, finishNumber_toDigits _ hn' hr,
      hct']
    simp [List.isPrefixOf, hne.1.symm, hne.2.1.symm, hne.2.2.symm, hne.2.2]
  | negSucc n =>
    have hct' : Nat.toDigits 10 (n + 1) = c :: t := hct
    have hn' : R.takesDigits (Nat.toDigits 10 (n + 1)).length = true := hn
    show readNumber R ('-' :: (Nat.toDigits 10 (n + 1) ++ r)) = _
    rw [readNumber, List.tail_cons, scanNatural_toDigits _ hr, Option.bind_some,
      finishNumber_toDigits _ hn' hr, hct']
    have hval : -((n + 1 : ℕ) : ℤ) = Int.negSucc n := rfl
    simp only [List.cons_append, hval]
    simp [hne.2.1.symm]

end Numbers

/-! ### The round trip: values -/

section Values

variable {α : Type}

mutual

/-- No floating-point number anywhere, and the keys of every object are distinct. -/
def Plain : Json α → Prop
  | .float _ => False
  | .arr xs => PlainItems xs
  | .obj ms => (ms.map Prod.fst).Nodup ∧ PlainMembers ms
  | .null | .bool _ | .int _ | .str _ => True

@[inherit_doc Plain]
def PlainItems : List (Json α) → Prop
  | [] => True
  | x :: xs => Plain x ∧ PlainItems xs

@[inherit_doc Plain]
def PlainMembers : List (List α × Json α) → Prop
  | [] => True
  | (_, v) :: ms => Plain v ∧ PlainMembers ms

end

mutual

/-- A value with its strings in normal form. -/
def normal [JsonChar α] : Json α → Json α
  | .str s => .str (JsonChar.normal s)
  | .arr xs => .arr (normalItems xs)
  | .obj ms => .obj (normalMembers ms)
  | j => j

@[inherit_doc normal]
def normalItems [JsonChar α] : List (Json α) → List (Json α)
  | [] => []
  | x :: xs => normal x :: normalItems xs

@[inherit_doc normal]
def normalMembers [JsonChar α] : List (List α × Json α) → List (List α × Json α)
  | [] => []
  | (k, v) :: ms => (JsonChar.normal k, normal v) :: normalMembers ms

end

mutual

/-- The value is within the limits of a reader, inside so many containers. -/
def Fits (R : JsonReader) (depth : ℕ) : Json α → Prop
  | .int n => R.takesDigits (Nat.toDigits 10 n.natAbs).length = true
  | .arr xs => R.takesDepth (depth + 1) = true ∧ FitsItems R (depth + 1) xs
  | .obj ms => R.takesDepth (depth + 1) = true ∧ FitsMembers R (depth + 1) ms
  | .null | .bool _ | .float _ | .str _ => True

@[inherit_doc Fits]
def FitsItems (R : JsonReader) (depth : ℕ) : List (Json α) → Prop
  | [] => True
  | x :: xs => Fits R depth x ∧ FitsItems R depth xs

@[inherit_doc Fits]
def FitsMembers (R : JsonReader) (depth : ℕ) : List (List α × Json α) → Prop
  | [] => True
  | (_, v) :: ms => Fits R depth v ∧ FitsMembers R depth ms

end

mutual

instance decidablePlain [DecidableEq α] : DecidablePred (@Plain α)
  | .null | .bool _ | .int _ | .str _ => .isTrue trivial
  | .float _ => .isFalse id
  | .arr xs => decidablePlainItems xs
  | .obj ms => @instDecidableAnd _ _ inferInstance (decidablePlainMembers ms)

instance decidablePlainItems [DecidableEq α] : DecidablePred (@PlainItems α)
  | [] => .isTrue trivial
  | x :: xs => @instDecidableAnd _ _ (decidablePlain x) (decidablePlainItems xs)

instance decidablePlainMembers [DecidableEq α] : DecidablePred (@PlainMembers α)
  | [] => .isTrue trivial
  | (_, v) :: ms => @instDecidableAnd _ _ (decidablePlain v) (decidablePlainMembers ms)

end

mutual

instance decidableFits (R : JsonReader) (depth : ℕ) : DecidablePred (@Fits α R depth)
  | .int _ => inferInstanceAs (Decidable (_ = true))
  | .arr xs => @instDecidableAnd _ _ inferInstance (decidableFitsItems R (depth + 1) xs)
  | .obj ms => @instDecidableAnd _ _ inferInstance (decidableFitsMembers R (depth + 1) ms)
  | .null | .bool _ | .float _ | .str _ => .isTrue trivial

instance decidableFitsItems (R : JsonReader) (depth : ℕ) :
    DecidablePred (@FitsItems α R depth)
  | [] => .isTrue trivial
  | x :: xs => @instDecidableAnd _ _ (decidableFits R depth x) (decidableFitsItems R depth xs)

instance decidableFitsMembers (R : JsonReader) (depth : ℕ) :
    DecidablePred (@FitsMembers α R depth)
  | [] => .isTrue trivial
  | (_, v) :: ms =>
    @instDecidableAnd _ _ (decidableFits R depth v) (decidableFitsMembers R depth ms)

end

mutual

/-- A reader without limits takes everything. -/
theorem fits_unlimited (rf : Str → PyFloat) : ∀ (depth : ℕ) (j : Json α),
    Fits ⟨rf, none, none⟩ depth j
  | _, .null | _, .bool _ | _, .float _ | _, .str _ => trivial
  | _, .int _ => rfl
  | depth, .arr xs => ⟨rfl, fitsItems_unlimited rf (depth + 1) xs⟩
  | depth, .obj ms => ⟨rfl, fitsMembers_unlimited rf (depth + 1) ms⟩

theorem fitsItems_unlimited (rf : Str → PyFloat) : ∀ (depth : ℕ) (xs : List (Json α)),
    FitsItems ⟨rf, none, none⟩ depth xs
  | _, [] => trivial
  | depth, x :: xs => ⟨fits_unlimited rf depth x, fitsItems_unlimited rf depth xs⟩

theorem fitsMembers_unlimited (rf : Str → PyFloat) :
    ∀ (depth : ℕ) (ms : List (List α × Json α)), FitsMembers ⟨rf, none, none⟩ depth ms
  | _, [] => trivial
  | depth, (_, v) :: ms => ⟨fits_unlimited rf depth v, fitsMembers_unlimited rf depth ms⟩

end

mutual

/-- Texts proper are in normal form. -/
theorem normal_eq_self : ∀ j : Json, normal j = j
  | .null | .bool _ | .int _ | .float _ | .str _ => rfl
  | .arr xs => congrArg arr (normalItems_eq_self xs)
  | .obj ms => congrArg obj (normalMembers_eq_self ms)

theorem normalItems_eq_self : ∀ xs : List Json, normalItems xs = xs
  | [] => rfl
  | x :: xs => congrArg₂ List.cons (normal_eq_self x) (normalItems_eq_self xs)

theorem normalMembers_eq_self : ∀ ms : List (Str × Json), normalMembers ms = ms
  | [] => rfl
  | (k, v) :: ms =>
    congrArg₂ List.cons (congrArg (Prod.mk k) (normal_eq_self v)) (normalMembers_eq_self ms)

end

theorem normalMembers_eq_map [JsonChar α] (ms : List (List α × Json α)) :
    normalMembers ms = ms.map fun m ↦ (JsonChar.normal m.1, normal m.2) := by
  induction ms with
  | nil => rfl
  | cons m ms ih => exact congrArg (_ :: ·) ih

theorem map_fst_normalMembers [JsonChar α] (ms : List (List α × Json α)) :
    (normalMembers ms).map Prod.fst = (ms.map Prod.fst).map JsonChar.normal := by
  induction ms with
  | nil => rfl
  | cons m ms ih => exact congrArg (JsonChar.normal m.1 :: ·) ih

mutual

/-- What is plain in normal form is plain. -/
theorem plain_of_normal [JsonChar α] : ∀ {j : Json α}, Plain (normal j) → Plain j
  | .null, _ | .bool _, _ | .int _, _ | .str _, _ => trivial
  | .float _, h => h
  | .arr xs, h => @plainItems_of_normal _ xs h
  | .obj ms, h => by
    obtain ⟨hnodup, hms⟩ :
      ((normalMembers ms).map Prod.fst).Nodup ∧ PlainMembers (normalMembers ms) := h
    rw [map_fst_normalMembers] at hnodup
    exact ⟨List.Pairwise.of_map _ (fun _ _ hne heq ↦ hne (congrArg _ heq)) hnodup,
      plainMembers_of_normal hms⟩

theorem plainItems_of_normal [JsonChar α] :
    ∀ {xs : List (Json α)}, PlainItems (normalItems xs) → PlainItems xs
  | [], _ => trivial
  | _ :: _, h => ⟨plain_of_normal h.1, plainItems_of_normal h.2⟩

theorem plainMembers_of_normal [JsonChar α] :
    ∀ {ms : List (List α × Json α)}, PlainMembers (normalMembers ms) → PlainMembers ms
  | [], _ => trivial
  | (_, _) :: _, h => ⟨plain_of_normal h.1, plainMembers_of_normal h.2⟩

end

/-- Distinct members are kept as they were read. -/
theorem ofMembers_of_nodup [DecidableEq α] {ms : List (List α × Json α)}
    (h : (ms.map Prod.fst).Nodup) : ofMembers ms = ms := by
  have haux : ∀ (acc ms : List (List α × Json α)), ((acc ++ ms).map Prod.fst).Nodup →
      ms.foldl insertMember acc = acc ++ ms := by
    intro acc ms
    induction ms generalizing acc with
    | nil => simp
    | cons m ms ih =>
      intro hnd
      have hm : m.1 ∉ acc.map Prod.fst := by
        intro hmem
        rw [List.map_append, List.nodup_append] at hnd
        exact hnd.2.2 _ hmem _ (by simp) rfl
      rw [List.foldl_cons, insertMember, if_neg hm, ih _ (by simpa using hnd), List.append_assoc,
        List.singleton_append]
  exact haux [] ms h

theorem plainMembers_iff {ms : List (List α × Json α)} :
    PlainMembers ms ↔ ∀ m ∈ ms, Plain m.2 := by
  induction ms with
  | nil => simp [PlainMembers]
  | cons m ms ih => simp [PlainMembers, ih]

theorem fitsItems_iff {R : JsonReader} {depth : ℕ} {xs : List (Json α)} :
    FitsItems R depth xs ↔ ∀ x ∈ xs, Fits R depth x := by
  induction xs with
  | nil => simp [FitsItems]
  | cons x xs ih => simp [FitsItems, ih]

theorem fitsMembers_iff {R : JsonReader} {depth : ℕ} {ms : List (List α × Json α)} :
    FitsMembers R depth ms ↔ ∀ m ∈ ms, Fits R depth m.2 := by
  induction ms with
  | nil => simp [FitsMembers]
  | cons m ms ih => simp [FitsMembers, ih]

theorem plainItems_iff {xs : List (Json α)} : PlainItems xs ↔ ∀ x ∈ xs, Plain x := by
  induction xs with
  | nil => simp [PlainItems]
  | cons x xs ih => simp [PlainItems, ih]

end Values

/-! ### What is read -/

section Tidy

variable {α : Type}

section Members

variable [DecidableEq α]

/-- A member that is added keeps the keys distinct. -/
theorem nodup_insertMember {ms : List (List α × Json α)} (h : (ms.map Prod.fst).Nodup)
    (m : List α × Json α) : ((insertMember ms m).map Prod.fst).Nodup := by
  rw [insertMember]
  split
  case isTrue hmem =>
    have hkeys : (ms.map fun m' ↦ if m'.1 = m.1 then m else m').map Prod.fst =
        ms.map Prod.fst := by
      rw [List.map_map]
      refine List.map_congr_left fun m' _ ↦ ?_
      show (if m'.1 = m.1 then m else m').1 = m'.1
      split
      case isTrue h => exact h.symm
      case isFalse => rfl
    rwa [hkeys]
  case isFalse hmem =>
    rw [List.map_append, List.map_singleton]
    refine List.nodup_append.2 ⟨h, List.pairwise_singleton _ _, fun k hk k' hk' heq ↦ hmem ?_⟩
    rwa [← List.mem_singleton.1 hk', ← heq]

/-- An object that is built member by member has distinct keys. -/
theorem nodup_ofMembers (ms : List (List α × Json α)) : ((ofMembers ms).map Prod.fst).Nodup := by
  have haux : ∀ (ms acc : List (List α × Json α)), (acc.map Prod.fst).Nodup →
      ((ms.foldl insertMember acc).map Prod.fst).Nodup := by
    intro ms
    induction ms with
    | nil => exact fun acc h ↦ h
    | cons m ms ih => exact fun acc hacc ↦ ih _ (nodup_insertMember hacc m)
  exact haux ms [] List.nodup_nil

/-- What is in an object was put there. -/
theorem mem_of_mem_ofMembers {ms : List (List α × Json α)} {m : List α × Json α}
    (h : m ∈ ofMembers ms) : m ∈ ms := by
  have haux : ∀ (ms acc : List (List α × Json α)),
      m ∈ ms.foldl insertMember acc → m ∈ acc ∨ m ∈ ms := by
    intro ms
    induction ms with
    | nil => exact fun acc h ↦ Or.inl h
    | cons n ms ih =>
      intro acc h
      rcases ih _ h with h | h
      · rw [insertMember] at h
        split at h
        case isTrue =>
          obtain ⟨m', hm', heq⟩ := List.mem_map.1 h
          split at heq
          case isTrue => exact Or.inr (heq ▸ List.mem_cons_self)
          case isFalse => exact Or.inl (heq ▸ hm')
        case isFalse =>
          rcases List.mem_append.1 h with h | h
          · exact Or.inl h
          · exact Or.inr (List.mem_singleton.1 h ▸ List.mem_cons_self)
      · exact Or.inr (List.mem_cons_of_mem _ h)
  exact (haux ms [] h).resolve_left List.not_mem_nil

end Members

variable [JsonChar α]

mutual

/-- The strings are in normal form, and the keys of every object are distinct. -/
def Tidy : Json α → Prop
  | .str s => JsonChar.normal s = s
  | .arr xs => TidyItems xs
  | .obj ms => (ms.map Prod.fst).Nodup ∧ TidyMembers ms
  | .null | .bool _ | .int _ | .float _ => True

@[inherit_doc Tidy]
def TidyItems : List (Json α) → Prop
  | [] => True
  | x :: xs => Tidy x ∧ TidyItems xs

@[inherit_doc Tidy]
def TidyMembers : List (List α × Json α) → Prop
  | [] => True
  | (k, v) :: ms => JsonChar.normal k = k ∧ Tidy v ∧ TidyMembers ms

end

mutual

instance decidableTidy [DecidableEq α] : DecidablePred (@Tidy α _)
  | .str _ => inferInstanceAs (Decidable (_ = _))
  | .arr xs => decidableTidyItems xs
  | .obj ms => @instDecidableAnd _ _ inferInstance (decidableTidyMembers ms)
  | .null | .bool _ | .int _ | .float _ => .isTrue trivial

instance decidableTidyItems [DecidableEq α] : DecidablePred (@TidyItems α _)
  | [] => .isTrue trivial
  | x :: xs => @instDecidableAnd _ _ (decidableTidy x) (decidableTidyItems xs)

instance decidableTidyMembers [DecidableEq α] : DecidablePred (@TidyMembers α _)
  | [] => .isTrue trivial
  | (_, v) :: ms =>
    @instDecidableAnd _ _ inferInstance
      (@instDecidableAnd _ _ (decidableTidy v) (decidableTidyMembers ms))

end

theorem tidyMembers_iff {ms : List (List α × Json α)} :
    TidyMembers ms ↔ ∀ m ∈ ms, JsonChar.normal m.1 = m.1 ∧ Tidy m.2 := by
  induction ms with
  | nil => simp [TidyMembers]
  | cons m ms ih => simp [TidyMembers, ih, and_assoc]

theorem tidyItems_iff {xs : List (Json α)} : TidyItems xs ↔ ∀ x ∈ xs, Tidy x := by
  induction xs with
  | nil => simp [TidyItems]
  | cons x xs ih => simp [TidyItems, ih]

mutual

/-- What is tidy is in normal form. -/
theorem normal_of_tidy : ∀ {j : Json α}, Tidy j → normal j = j
  | .null, _ | .bool _, _ | .int _, _ | .float _, _ => rfl
  | .str _, h => congrArg str h
  | .arr xs, h => congrArg arr (@normalItems_of_tidy xs h)
  | .obj _, h => congrArg obj (normalMembers_of_tidy h.2)

theorem normalItems_of_tidy : ∀ {xs : List (Json α)}, TidyItems xs → normalItems xs = xs
  | [], _ => rfl
  | _ :: _, h => congrArg₂ List.cons (normal_of_tidy h.1) (normalItems_of_tidy h.2)

theorem normalMembers_of_tidy :
    ∀ {ms : List (List α × Json α)}, TidyMembers ms → normalMembers ms = ms
  | [], _ => rfl
  | (_, _) :: _, h =>
    congrArg₂ List.cons (congrArg₂ Prod.mk h.1 (normal_of_tidy h.2.1)) (normalMembers_of_tidy h.2.2)

end

/-- A number has no strings. -/
theorem tidy_of_readNumber {R : JsonReader} {s r : Str} {j : Json α}
    (h : readNumber R s = some (j, r)) : Tidy j := by
  have hfinish : ∀ {neg ds t}, finishNumber R neg ds t = some (j, r) → Tidy j := by
    intro neg ds t h
    simp only [finishNumber] at h
    split at h
    · split at h
      · rw [← (Prod.mk.inj (Option.some.inj h)).1]
        trivial
      · exact absurd h (by simp)
    · rw [← (Prod.mk.inj (Option.some.inj h)).1]
      trivial
  rw [readNumber] at h
  -- three constants, and a number with or without a sign
  iterate 3
    split at h
    · rw [← (Prod.mk.inj (Option.some.inj h)).1]
      trivial
  split at h
  all_goals
    obtain ⟨p, -, hp⟩ := Option.bind_eq_some_iff.1 h
    exact hfinish hp

variable [DecidableEq α] {R : JsonReader}

mutual

theorem tidy_of_readValue : ∀ (depth n : ℕ) {s r : Str} {j : Json α},
    readValue R depth n s = some (j, r) → Tidy j
  | _, 0, _, _, _, h => absurd h (by simp [readValue])
  | depth, n + 1, s, r, j, h => by
    rw [readValue] at h
    split at h
    · obtain ⟨p, hp, heq⟩ := Option.map_eq_some_iff.1 h
      rw [← (Prod.mk.inj heq).1]
      exact normal_of_readString hp
    split at h
    · split at h
      · exact absurd h (by simp)
      split at h
      · rw [← (Prod.mk.inj (Option.some.inj h)).1]
        trivial
      · obtain ⟨p, hp, heq⟩ := Option.map_eq_some_iff.1 h
        rw [← (Prod.mk.inj heq).1]
        exact tidyItems_of_readItems (depth + 1) n hp
    split at h
    · split at h
      · exact absurd h (by simp)
      split at h
      · rw [← (Prod.mk.inj (Option.some.inj h)).1]
        exact ⟨List.nodup_nil, trivial⟩
      · obtain ⟨p, hp, heq⟩ := Option.map_eq_some_iff.1 h
        rw [← (Prod.mk.inj heq).1]
        exact ⟨nodup_ofMembers _, tidyMembers_iff.2 fun m hm ↦
          tidyMembers_iff.1 (tidyMembers_of_readMembers (depth + 1) n hp) m
            (mem_of_mem_ofMembers hm)⟩
    iterate 3
      split at h
      · rw [← (Prod.mk.inj (Option.some.inj h)).1]
        trivial
    exact tidy_of_readNumber h

theorem tidyItems_of_readItems : ∀ (depth n : ℕ) {s r : Str} {xs : List (Json α)},
    readItems R depth n s = some (xs, r) → TidyItems xs
  | _, 0, _, _, _, h => absurd h (by simp [readItems])
  | depth, n + 1, s, r, xs, h => by
    rw [readItems] at h
    obtain ⟨p, hp, h⟩ := Option.bind_eq_some_iff.1 h
    have hx := tidy_of_readValue depth n hp
    split at h
    · rw [← (Prod.mk.inj (Option.some.inj h)).1]
      exact ⟨hx, trivial⟩
    split at h
    · obtain ⟨q, hq, heq⟩ := Option.map_eq_some_iff.1 h
      rw [← (Prod.mk.inj heq).1]
      exact ⟨hx, tidyItems_of_readItems depth n hq⟩
    · exact absurd h (by simp)

theorem tidyMembers_of_readMembers : ∀ (depth n : ℕ) {s r : Str} {ms : List (List α × Json α)},
    readMembers R depth n s = some (ms, r) → TidyMembers ms
  | _, 0, _, _, _, h => absurd h (by simp [readMembers])
  | depth, n + 1, s, r, ms, h => by
    rw [readMembers] at h
    split at h
    case isFalse => exact absurd h (by simp)
    obtain ⟨k, hk, h⟩ := Option.bind_eq_some_iff.1 h
    split at h
    case isFalse => exact absurd h (by simp)
    obtain ⟨p, hp, h⟩ := Option.bind_eq_some_iff.1 h
    have hkey := normal_of_readString hk
    have hv := tidy_of_readValue depth n hp
    split at h
    · rw [← (Prod.mk.inj (Option.some.inj h)).1]
      exact ⟨hkey, hv, trivial⟩
    split at h
    · obtain ⟨q, hq, heq⟩ := Option.map_eq_some_iff.1 h
      rw [← (Prod.mk.inj heq).1]
      exact ⟨hkey, hv, tidyMembers_of_readMembers depth n hq⟩
    · exact absurd h (by simp)

end

/-- **Whatever is read is tidy.** -/
theorem tidy_of_read {s : Str} {j : Json α} (h : read R s = some j) : Tidy j := by
  obtain ⟨p, hp, hj⟩ := Option.bind_eq_some_iff.1 h
  split at hj
  · rw [← Option.some.inj hj]
    exact tidy_of_readValue 0 _ hp
  · exact absurd hj (by simp)

end Tidy

theorem skipWs_cons {c : Char} (h : isWs c = false) (s : Str) : skipWs (c :: s) = c :: s := by
  rw [skipWs, List.dropWhile_cons_of_neg (by simp [h])]

/-! ### Texts of a value -/

/-- White space, or nothing. -/
def Blank (gap : Str) : Prop :=
  ∀ c ∈ gap, isWs c = true

theorem blank_nil : Blank [] := by
  simp [Blank]

theorem blank_space : Blank [' '] :=
  List.forall_mem_singleton.2 rfl

theorem skipWs_append {gap : Str} (hgap : Blank gap) (s : Str) : skipWs (gap ++ s) = skipWs s :=
  List.dropWhile_append_of_pos hgap

/-- White space before a character that is none. -/
theorem skipWs_append_cons {gap : Str} (hgap : Blank gap) {c : Char} (h : isWs c = false)
    (s : Str) : skipWs (gap ++ c :: s) = c :: s := by
  rw [skipWs_append hgap, skipWs_cons h]

/-- White space cannot continue a number. -/
theorem numberStop_append {gap : Str} (hgap : Blank gap) {r : Str} (hr : NumberStop r) :
    NumberStop (gap ++ r) := by
  rcases gap with _ | ⟨c, gap⟩
  · exact hr
  · have hc := hgap c List.mem_cons_self
    refine numberStop_cons ?_ ?_ ?_ ?_
    · rw [← Bool.not_eq_true]
      intro hdigit
      have := Text.isSpace_eq_false_of_isDigit hdigit
      rw [isWs, Bool.or_eq_true, Bool.or_eq_true, Bool.or_eq_true, beq_iff_eq, beq_iff_eq,
        beq_iff_eq, beq_iff_eq] at hc
      rcases hc with ((rfl | rfl) | rfl) | rfl <;> exact absurd this (by decide)
    all_goals rintro rfl; exact absurd hc (by decide)

section Texts

variable {α : Type} (esc : α → Str)

mutual

/-- A text of a value without floating-point numbers: the characters of its strings are written in
the given way, and white space stands between its tokens as it may. -/
inductive Writes : Json α → Str → Prop
  | null : Writes .null ['n', 'u', 'l', 'l']
  | ofTrue : Writes (.bool true) ['t', 'r', 'u', 'e']
  | ofFalse : Writes (.bool false) ['f', 'a', 'l', 's', 'e']
  | int (n : ℤ) : Writes (.int n) (Text.decimal n)
  | str (s : List α) : Writes (.str s) ('"' :: (s.flatMap esc ++ ['"']))
  | nil {gap : Str} : Blank gap → Writes (.arr []) ('[' :: (gap ++ [']']))
  | arr {gap t : Str} {x : Json α} {xs : List (Json α)} :
      Blank gap → WritesItems (x :: xs) t → Writes (.arr (x :: xs)) ('[' :: (gap ++ t))
  | empty {gap : Str} : Blank gap → Writes (.obj []) ('\x7b' :: (gap ++ ['\x7d']))
  | obj {gap t : Str} {m : List α × Json α} {ms : List (List α × Json α)} :
      Blank gap → WritesMembers (m :: ms) t → Writes (.obj (m :: ms)) ('\x7b' :: (gap ++ t))

/-- A text of the items of an array, with the closing bracket. -/
inductive WritesItems : List (Json α) → Str → Prop
  | last {x : Json α} {t gap : Str} :
      Writes x t → Blank gap → WritesItems [x] (t ++ (gap ++ [']']))
  | cons {x y : Json α} {xs : List (Json α)} {t gap₁ gap₂ u : Str} :
      Writes x t → Blank gap₁ → Blank gap₂ → WritesItems (y :: xs) u →
        WritesItems (x :: y :: xs) (t ++ (gap₁ ++ ',' :: (gap₂ ++ u)))

/-- A text of the members of an object, with the closing brace. -/
inductive WritesMembers : List (List α × Json α) → Str → Prop
  | last {k : List α} {v : Json α} {gap₁ gap₂ t gap₃ : Str} :
      Blank gap₁ → Blank gap₂ → Writes v t → Blank gap₃ →
        WritesMembers [(k, v)]
          ('"' :: (k.flatMap esc ++ '"' :: (gap₁ ++ ':' :: (gap₂ ++ (t ++ (gap₃ ++ ['\x7d']))))))
  | cons {k : List α} {v : Json α} {m : List α × Json α} {ms : List (List α × Json α)}
      {gap₁ gap₂ t gap₃ gap₄ u : Str} :
      Blank gap₁ → Blank gap₂ → Writes v t → Blank gap₃ → Blank gap₄ →
        WritesMembers (m :: ms) u →
        WritesMembers ((k, v) :: m :: ms)
          ('"' :: (k.flatMap esc ++ '"' :: (gap₁ ++ ':' :: (gap₂ ++ (t ++ (gap₃ ++ ',' ::
            (gap₄ ++ u)))))))

end

variable {esc} {j : Json α} {s : Str}

/-- A text starts with a character that is neither white space nor closes a container. -/
theorem Writes.exists_cons (h : Writes esc j s) :
    ∃ c t, s = c :: t ∧ isWs c = false ∧ c ≠ ']' ∧ c ≠ '}' := by
  cases h with
  | int n =>
    obtain ⟨c, t, hct⟩ := List.exists_cons_of_ne_nil (Text.decimal_ne_nil n)
    refine ⟨c, t, hct, ?_⟩
    rcases Text.mem_decimal (hct ▸ List.mem_cons_self : c ∈ Text.decimal n) with h | rfl
    · refine ⟨?_, ?_, ?_⟩
      · rw [isWs, Bool.or_eq_false_iff, Bool.or_eq_false_iff, Bool.or_eq_false_iff]
        refine ⟨⟨⟨?_, ?_⟩, ?_⟩, ?_⟩ <;>
          (rw [beq_eq_false_iff_ne]; rintro rfl; revert h; decide)
      · rintro rfl; revert h; decide
      · rintro rfl; revert h; decide
    · decide
  | _ => exact ⟨_, _, rfl, by decide⟩

/-- White space before a value is skipped. -/
theorem Writes.skipWs_append {gap : Str} (h : Writes esc j s) (hgap : Blank gap) (r : Str) :
    skipWs (gap ++ (s ++ r)) = s ++ r := by
  obtain ⟨c, t, rfl, hws, -, -⟩ := h.exists_cons
  exact skipWs_append_cons hgap hws _

theorem WritesItems.exists_cons {xs : List (Json α)} (h : WritesItems esc xs s) :
    ∃ c t, s = c :: t ∧ isWs c = false ∧ c ≠ ']' := by
  cases h with
  | last hx | cons hx =>
    obtain ⟨c, t, rfl, hws, hclose, -⟩ := hx.exists_cons
    exact ⟨c, _, rfl, hws, hclose⟩

theorem WritesMembers.exists_cons {ms : List (List α × Json α)} (h : WritesMembers esc ms s) :
    ∃ t, s = '"' :: t := by
  cases h <;> exact ⟨_, rfl⟩

/-- What stands after a value in a container cannot continue a number. -/
theorem numberStop_separator {gap : Str} (hgap : Blank gap) {c : Char}
    (hc : c = ',' ∨ c = ']' ∨ c = '}') (r : Str) : NumberStop (gap ++ c :: r) := by
  refine numberStop_append hgap ?_
  rcases hc with rfl | rfl | rfl <;>
    exact numberStop_cons (by decide) (by decide) (by decide) (by decide)

variable [DecidableEq α] [JsonChar α] {R : JsonReader}

mutual

/-- **A text of a value is read back**, whatever follows it; a numeral must not go on. -/
theorem readValue_of_writes (hesc : Legible esc) : ∀ (depth n : ℕ) {j : Json α} {s : Str} (r : Str),
    Writes esc j s → Plain (normal j) → Fits R depth j → s.length < n →
      (∀ i, j = .int i → NumberStop r) → readValue R depth n (s ++ r) = some (normal j, r)
  | _, 0, _, _, _, _, _, _, hn, _ => absurd hn (Nat.not_lt_zero _)
  | depth, n + 1, _, _, r, h, hj, hfits, hn, hr => by
    cases h with
    | null | ofTrue | ofFalse => rfl
    | int i =>
      obtain ⟨c, t, hct⟩ := List.exists_cons_of_ne_nil (Text.decimal_ne_nil i)
      have hc := Text.mem_decimal (hct ▸ List.mem_cons_self : c ∈ Text.decimal i)
      have hne : c ≠ '"' ∧ c ≠ '[' ∧ c ≠ '{' ∧ c ≠ 'n' ∧ c ≠ 't' ∧ c ≠ 'f' := by
        refine ⟨?_, ?_, ?_, ?_, ?_, ?_⟩ <;> (rintro rfl; revert hc; decide)
      rw [show normal (.int i : Json α) = .int i from rfl,
        ← readNumber_decimal hfits (hr i rfl), readValue, hct]
      simp [List.isPrefixOf, hne, hne.2.2.2.1.symm, hne.2.2.2.2.1.symm, hne.2.2.2.2.2.symm]
    | str t =>
      show (readString (t.flatMap esc ++ ['"'] ++ r)).map _ = _
      rw [List.append_assoc, List.singleton_append, hesc]
      rfl
    | @nil gap hgap =>
      have hskip : skipWs (gap ++ [']'] ++ r) = ']' :: r := by
        rw [List.append_assoc]
        exact skipWs_append_cons hgap (by decide) _
      rw [List.cons_append, readValue, List.head?_cons, if_neg (by decide), if_pos rfl,
        if_neg (by simp [hfits.1]), List.tail_cons, hskip]
      rfl
    | @arr gap t x xs hgap hitems =>
      obtain ⟨c, u, hcu, hws, hclose⟩ := hitems.exists_cons
      have hskip : skipWs (gap ++ t ++ r) = t ++ r := by
        rw [List.append_assoc, hcu]
        exact skipWs_append_cons hgap hws _
      have hhead : (t ++ r).head? ≠ some ']' := by
        rw [hcu]
        simpa using hclose
      have hlen : t.length < n := by
        simp only [List.length_cons, List.length_append] at hn
        omega
      rw [List.cons_append, readValue, List.head?_cons, if_neg (by decide), if_pos rfl,
        if_neg (by simp [hfits.1]), List.tail_cons, hskip, if_neg hhead,
        readItems_of_writes hesc (depth + 1) n r hitems hj hfits.2 hlen]
      rfl
    | @empty gap hgap =>
      have hskip : skipWs (gap ++ ['\x7d'] ++ r) = '\x7d' :: r := by
        rw [List.append_assoc]
        exact skipWs_append_cons hgap (by decide) _
      rw [List.cons_append, readValue, List.head?_cons, if_neg (by decide), if_neg (by decide),
        if_pos rfl, if_neg (by simp [hfits.1]), List.tail_cons, hskip]
      rfl
    | @obj gap t m ms hgap hmembers =>
      obtain ⟨u, rfl⟩ := hmembers.exists_cons
      have hskip : skipWs (gap ++ '"' :: u ++ r) = '"' :: u ++ r := by
        rw [List.append_assoc]
        exact skipWs_append_cons hgap (by decide) _
      have hlen : ('"' :: u).length < n := by
        simp only [List.length_cons, List.length_append] at hn ⊢
        omega
      have hm : ((normalMembers (m :: ms)).map Prod.fst).Nodup ∧
          PlainMembers (normalMembers (m :: ms)) := hj
      rw [List.cons_append, readValue, List.head?_cons, if_neg (by decide), if_neg (by decide),
        if_pos rfl, if_neg (by simp [hfits.1]), List.tail_cons, hskip, if_neg (by simp),
        readMembers_of_writes hesc (depth + 1) n r hmembers hm.2 hfits.2 hlen]
      show some (Json.obj (ofMembers (normalMembers (m :: ms))), r) = _
      rw [ofMembers_of_nodup hm.1]
      rfl

theorem readItems_of_writes (hesc : Legible esc) :
    ∀ (depth n : ℕ) {xs : List (Json α)} {s : Str} (r : Str), WritesItems esc xs s →
      PlainItems (normalItems xs) → FitsItems R depth xs → s.length < n →
        readItems R depth n (s ++ r) = some (normalItems xs, r)
  | _, 0, _, _, _, _, _, _, hn => absurd hn (Nat.not_lt_zero _)
  | depth, n + 1, _, _, r, h, hxs, hfits, hn => by
    cases h with
    | @last x t gap hx hgap =>
      simp only [List.length_append, List.length_cons] at hn
      rw [readItems, List.append_assoc, List.append_assoc, List.singleton_append,
        readValue_of_writes hesc depth n _ hx hxs.1 hfits.1 (by omega)
          fun _ _ ↦ numberStop_separator hgap (by simp) _,
        Option.bind_some, skipWs_append_cons hgap (by decide)]
      rfl
    | @cons x y xs t gap₁ gap₂ u hx hgap hgap₂ hitems =>
      obtain ⟨c, v, hcv, hws, -⟩ := hitems.exists_cons
      have hskip : skipWs (gap₂ ++ u ++ r) = u ++ r := by
        rw [List.append_assoc, hcv]
        exact skipWs_append_cons hgap₂ hws _
      simp only [List.length_append, List.length_cons] at hn
      rw [readItems, List.append_assoc, List.append_assoc, List.cons_append,
        readValue_of_writes hesc depth n _ hx hxs.1 hfits.1 (by omega)
          fun _ _ ↦ numberStop_separator hgap (by simp) _,
        Option.bind_some, skipWs_append_cons hgap (by decide), List.head?_cons,
        if_neg (by decide), if_pos rfl, List.tail_cons, hskip,
        readItems_of_writes hesc depth n r hitems hxs.2 hfits.2 (by omega)]
      rfl

theorem readMembers_of_writes (hesc : Legible esc) :
    ∀ (depth n : ℕ) {ms : List (List α × Json α)} {s : Str} (r : Str), WritesMembers esc ms s →
      PlainMembers (normalMembers ms) → FitsMembers R depth ms → s.length < n →
        readMembers R depth n (s ++ r) = some (normalMembers ms, r)
  | _, 0, _, _, _, _, _, _, hn => absurd hn (Nat.not_lt_zero _)
  | depth, n + 1, _, _, r, h, hms, hfits, hn => by
    cases h with
    | @last k v gap₁ gap₂ t gap₃ hgap hgap₂ hv hgap₃ =>
      have htext : '"' :: (k.flatMap esc ++ '"' :: (gap₁ ++ ':' :: (gap₂ ++ (t ++ (gap₃ ++
          ['\x7d']))))) ++ r = '"' :: (k.flatMap esc ++ '"' :: (gap₁ ++ ':' :: (gap₂ ++ (t ++
            (gap₃ ++ '\x7d' :: r))))) := by simp
      simp only [List.length_append, List.length_cons] at hn
      rw [htext, readMembers, List.head?_cons, if_pos rfl, List.tail_cons, hesc,
        Option.bind_some, skipWs_append_cons hgap (by decide), List.head?_cons, if_pos rfl,
        List.tail_cons, hv.skipWs_append hgap₂,
        readValue_of_writes hesc depth n _ hv hms.1 hfits.1 (by omega)
          fun _ _ ↦ numberStop_separator hgap₃ (by simp) _,
        Option.bind_some, skipWs_append_cons hgap₃ (by decide)]
      rfl
    | @cons k v m ms gap₁ gap₂ t gap₃ gap₄ u hgap hgap₂ hv hgap₃ hgap₄ hmembers =>
      obtain ⟨w, rfl⟩ := hmembers.exists_cons
      have htext : '"' :: (k.flatMap esc ++ '"' :: (gap₁ ++ ':' :: (gap₂ ++ (t ++ (gap₃ ++ ',' ::
          (gap₄ ++ '"' :: w)))))) ++ r = '"' :: (k.flatMap esc ++ '"' :: (gap₁ ++ ':' ::
            (gap₂ ++ (t ++ (gap₃ ++ ',' :: (gap₄ ++ '"' :: (w ++ r))))))) := by simp
      have hlen : ('"' :: w).length < n := by
        simp only [List.length_append, List.length_cons] at hn ⊢
        omega
      simp only [List.length_append, List.length_cons] at hn
      have hrest := readMembers_of_writes hesc depth n r hmembers hms.2 hfits.2 hlen
      rw [List.cons_append] at hrest
      rw [htext, readMembers, List.head?_cons, if_pos rfl, List.tail_cons, hesc,
        Option.bind_some, skipWs_append_cons hgap (by decide), List.head?_cons, if_pos rfl,
        List.tail_cons, hv.skipWs_append hgap₂,
        readValue_of_writes hesc depth n _ hv hms.1 hfits.1 (by omega)
          fun _ _ ↦ numberStop_separator hgap₃ (by simp) _,
        Option.bind_some, skipWs_append_cons hgap₃ (by decide), List.head?_cons,
        if_neg (by decide), if_pos rfl, List.tail_cons, skipWs_append_cons hgap₄ (by decide),
        hrest]
      rfl

end

/-- **Reading a text of a value gives the value back**, with or without white space around it. -/
theorem read_of_writes (hesc : Legible esc) (h : Writes esc j s) (hj : Plain (normal j))
    (hfits : Fits R 0 j) {before after : Str} (hbefore : Blank before) (hafter : Blank after) :
    read R (before ++ (s ++ after)) = some (normal j) := by
  have hstop : NumberStop after := by
    have := numberStop_append hafter numberStop_nil
    rwa [List.append_nil] at this
  have hread := readValue_of_writes hesc 0 ((before ++ (s ++ after)).length + 1) after h hj hfits
    (by simp only [List.length_append]; omega) fun _ _ ↦ hstop
  have hrest : skipWs after = [] := List.dropWhile_eq_nil_iff.2 hafter
  rw [read, h.skipWs_append hbefore, hread, Option.bind_some, if_pos hrest]

end Texts

/-- Texts proper are read as they were written. -/
theorem loads_of_writes (rf : Str → PyFloat) {esc : Char → Str} {j : Json} {s : Str}
    (hesc : Legible esc) (h : Writes esc j s) (hj : Plain j) {before after : Str}
    (hbefore : Blank before) (hafter : Blank after) :
    loads rf (before ++ (s ++ after)) = some j := by
  have hread := read_of_writes hesc h ((normal_eq_self j).symm ▸ hj) (fits_unlimited rf 0 j)
    hbefore hafter
  rwa [normal_eq_self] at hread

/-! ### Ways of writing -/

section Writer

variable {α : Type} (esc : α → Str) (gap : Str)

mutual

/-- A value, with a way of writing characters and with white space after commas and colons. -/
def write : Json α → Str
  | .null => ['n', 'u', 'l', 'l']
  | .bool true => ['t', 'r', 'u', 'e']
  | .bool false => ['f', 'a', 'l', 's', 'e']
  | .int n => Text.decimal n
  | .float x => dumpsFloat x
  | .str s => '"' :: (s.flatMap esc ++ ['"'])
  | .arr xs => '[' :: writeItems xs
  | .obj ms => '{' :: writeMembers ms

/-- The items of an array and its closing bracket. -/
def writeItems : List (Json α) → Str
  | [] => [']']
  | x :: xs => write x ++ writeItemsTail xs

/-- The items after the first. -/
def writeItemsTail : List (Json α) → Str
  | [] => [']']
  | x :: xs => ',' :: (gap ++ (write x ++ writeItemsTail xs))

/-- The members of an object and its closing brace. -/
def writeMembers : List (List α × Json α) → Str
  | [] => ['}']
  | (k, v) :: ms =>
    '"' :: (k.flatMap esc ++ '"' :: ':' :: (gap ++ (write v ++ writeMembersTail ms)))

/-- The members after the first. -/
def writeMembersTail : List (List α × Json α) → Str
  | [] => ['}']
  | (k, v) :: ms =>
    ',' :: (gap ++ '"' ::
      (k.flatMap esc ++ '"' :: ':' :: (gap ++ (write v ++ writeMembersTail ms))))

end

end Writer

section Dumps

variable {α : Type} [JsonChar α]

mutual

/-- `json.dumps` is one of the ways. -/
theorem dumps_eq_write : ∀ j : Json α, dumps j = write escape [' '] j
  | .null | .bool true | .bool false | .int _ | .float _ | .str _ => rfl
  | .arr [] | .obj [] => rfl
  | .arr (x :: xs) => by
    rw [dumps, dumpsItems, dumps_eq_write x, dumpsItemsTail_eq_write xs, write, writeItems]
  | .obj ((k, v) :: ms) => by
    rw [dumps, dumpsMembers, dumps_eq_write v, dumpsMembersTail_eq_write ms, write, writeMembers,
      dumpsStr]
    simp

theorem dumpsItemsTail_eq_write : ∀ xs : List (Json α),
    dumpsItemsTail xs = writeItemsTail escape [' '] xs
  | [] => rfl
  | x :: xs => by
    rw [dumpsItemsTail, dumps_eq_write x, dumpsItemsTail_eq_write xs, writeItemsTail]
    rfl

theorem dumpsMembersTail_eq_write : ∀ ms : List (List α × Json α),
    dumpsMembersTail ms = writeMembersTail escape [' '] ms
  | [] => rfl
  | (k, v) :: ms => by
    rw [dumpsMembersTail, dumps_eq_write v, dumpsMembersTail_eq_write ms, writeMembersTail,
      dumpsStr]
    simp

end

/-- A way of writing that can be read: the strings are legible, and what stands between is white
space. -/
structure Readable (esc : α → Str) (gap : Str) : Prop where
  /-- A string literal can be read back. -/
  legible : Legible esc
  /-- White space follows commas and colons. -/
  isWs : ∀ c ∈ gap, isWs c = true

end Dumps

section Reading

variable {α : Type} {esc : α → Str} {gap : Str}

mutual

/-- What is written in one of the ways is a text of the value. -/
theorem writes_write (hgap : Blank gap) : ∀ {j : Json α}, Plain j → Writes esc j (write esc gap j)
  | .null, _ => .null
  | .bool true, _ => .ofTrue
  | .bool false, _ => .ofFalse
  | .int n, _ => .int n
  | .float _, h => absurd h (by simp [Plain])
  | .str s, _ => .str s
  | .arr [], _ => .nil blank_nil
  | .arr (_ :: _), h =>
    @Writes.arr α esc [] _ _ _ blank_nil (writesItems_write hgap h.2 (writes_write hgap h.1))
  | .obj [], _ => .empty blank_nil
  | .obj ((k, _) :: _), h =>
    @Writes.obj α esc [] _ _ _ blank_nil
      (writesMembers_write hgap h.2.2 k (writes_write hgap h.2.1))

theorem writesItems_write (hgap : Blank gap) : ∀ {xs : List (Json α)}, PlainItems xs →
    ∀ {x : Json α} {t : Str}, Writes esc x t →
      WritesItems esc (x :: xs) (t ++ writeItemsTail esc gap xs)
  | [], _, _, _, hx => .last hx blank_nil
  | _ :: _, h, _, _, hx =>
    .cons hx blank_nil hgap (writesItems_write hgap h.2 (writes_write hgap h.1))

theorem writesMembers_write (hgap : Blank gap) : ∀ {ms : List (List α × Json α)}, PlainMembers ms →
    ∀ (k : List α) {v : Json α} {t : Str}, Writes esc v t →
      WritesMembers esc ((k, v) :: ms)
        ('"' :: (k.flatMap esc ++ '"' :: ':' :: (gap ++ (t ++ writeMembersTail esc gap ms))))
  | [], _, _, _, _, hv => .last blank_nil hgap hv blank_nil
  | (k', _) :: _, h, _, _, _, hv =>
    .cons blank_nil hgap hv blank_nil hgap (writesMembers_write hgap h.2 k' (writes_write hgap h.1))

end

end Reading

/-- **A written value is read back**, whatever follows it; a numeral must not go on. -/
theorem readValue_write {esc : Char → Str} {gap : Str} (hway : Readable esc gap)
    (rf : Str → PyFloat) (j : Json) (n : ℕ) (r : Str) (hj : Plain j)
    (hn : (write esc gap j).length < n) (hr : ∀ i, j = .int i → NumberStop r) :
    readValue ⟨rf, none, none⟩ 0 n (write esc gap j ++ r) = some (j, r) := by
  have hread := readValue_of_writes (R := ⟨rf, none, none⟩) hway.legible 0 n r
    (writes_write hway.isWs hj) ((normal_eq_self j).symm ▸ hj) (fits_unlimited rf 0 j) hn hr
  rwa [normal_eq_self] at hread

/-- **The round trip.** Reading a written value gives its normal form, with or without white space
after it. -/
theorem read_dumps_append {α : Type} [DecidableEq α] [JsonChar α] {R : JsonReader} {j : Json α}
    (hj : Plain (normal j)) (hfits : Fits R 0 j) {ws : Str} (hws : ∀ c ∈ ws, isWs c = true) :
    read R (dumps j ++ ws) = some (normal j) := by
  rw [dumps_eq_write]
  exact read_of_writes legible_escape (writes_write blank_space (plain_of_normal hj)) hj
    hfits blank_nil hws

/-- What is tidy is read as it was written. -/
theorem read_dumps_of_tidy {α : Type} [DecidableEq α] [JsonChar α] {R : JsonReader} {j : Json α}
    (htidy : Tidy j) (hj : Plain j) (hfits : Fits R 0 j) : read R (dumps j) = some j := by
  have h := @read_dumps_append α _ _ R j ((normal_of_tidy htidy).symm ▸ hj) hfits [] (by simp)
  rwa [List.append_nil, normal_of_tidy htidy] at h

/-- A list of strings is plain. -/
theorem plain_strings {α : Type} (ss : List (List α)) : Plain (.arr (ss.map .str)) := by
  show PlainItems _
  induction ss with
  | nil => exact trivial
  | cons s ss ih => exact ⟨trivial, ih⟩

/-- A list of integers is plain. -/
theorem plain_ints {α : Type} (ns : List ℤ) : Plain (.arr (ns.map .int) : Json α) := by
  show PlainItems _
  induction ns with
  | nil => exact trivial
  | cons n ns ih => exact ⟨trivial, ih⟩

section Lists

variable {α : Type} {R : JsonReader} {depth : ℕ}

/-- A list of strings in normal form is tidy. -/
theorem tidy_strings [JsonChar α] {ss : List (List α)} (h : ∀ s ∈ ss, JsonChar.normal s = s) :
    Tidy (.arr (ss.map .str)) :=
  tidyItems_iff.2 (List.forall_mem_map.2 h)

theorem tidy_ints [JsonChar α] (ns : List ℤ) : Tidy (.arr (ns.map .int) : Json α) :=
  tidyItems_iff.2 (List.forall_mem_map.2 fun _ _ ↦ trivial)

/-- A list of strings is within the limits if a list is. -/
theorem fits_strings (hdepth : R.takesDepth (depth + 1) = true) (ss : List (List α)) :
    Fits R depth (.arr (ss.map .str)) :=
  ⟨hdepth, fitsItems_iff.2 (List.forall_mem_map.2 fun _ _ ↦ trivial)⟩

theorem fits_ints (hdepth : R.takesDepth (depth + 1) = true) {ns : List ℤ}
    (h : ∀ n ∈ ns, R.takesDigits (Nat.toDigits 10 n.natAbs).length = true) :
    Fits R depth (.arr (ns.map .int) : Json α) :=
  ⟨hdepth, fitsItems_iff.2 (List.forall_mem_map.2 h)⟩

end Lists

end Json

end SourceOS
