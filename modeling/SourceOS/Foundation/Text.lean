import Mathlib.Data.List.DropRight
import Mathlib.Data.List.Basic

/-!
# Text

Character strings as lists, with the handful of operations every component reads and writes text
through: white-space stripping, replacement of a substring, decimal rendering of integers.

A string is a `List Char`. Lists and not `String` on purpose: every operation below is a structural
recursion, so a closed text evaluates in the kernel, and the laws are list laws.

* `replace old new s` scans from the left and never overlaps, as `str.replace` does. The facts used
  elsewhere are that nothing is touched where the first character of `old` does not occur
  (`replace_append_of_not_mem`) and that replacing by the empty string invents no character
  (`mem_of_mem_replace_nil`).
* `strip` drops white space at both ends; `isBlank` says that nothing is left.
* `decimal n` is the decimal numeral of an integer, injective (`decimal_injective`) and made of
  digits and a sign only (`mem_decimal`).
-/

namespace SourceOS

/-- A character string. -/
abbrev Str := List Char

instance : LawfulBEq Str :=
  inferInstance

namespace Text

/-! ### Trimming -/

section Trim

variable {α : Type} {p : α → Bool} {s : List α}

/-- A list without the elements at its ends that satisfy `p` does not start with one, -/
theorem head?_trim {c : α} (h : c ∈ ((s.dropWhile p).rdropWhile p).head?) : p c = false := by
  have hpre : (s.dropWhile p).rdropWhile p <+: s.dropWhile p := List.rdropWhile_prefix p _
  rcases hdrop : s.dropWhile p with _ | ⟨d, t⟩
  · rw [hdrop] at h
    cases h
  · rcases htrim : (s.dropWhile p).rdropWhile p with _ | ⟨e, u⟩
    · rw [htrim] at h
      cases h
    · rw [htrim, hdrop] at hpre
      rw [htrim] at h
      obtain rfl : e = c := Option.some.inj h
      obtain ⟨rfl, -⟩ := List.cons_prefix_cons.1 hpre
      have hnot := List.head_dropWhile_not p (l := s) (by simp [hdrop])
      simpa [hdrop] using hnot

/-- nor end with one. -/
theorem getLast?_trim {c : α} (h : c ∈ ((s.dropWhile p).rdropWhile p).getLast?) :
    p c = false := by
  have hne : (s.dropWhile p).rdropWhile p ≠ [] := by
    intro hnil
    rw [hnil] at h
    cases h
  have hnot := List.rdropWhile_last_not p (s.dropWhile p) hne
  rw [List.getLast?_eq_getLast_of_ne_nil hne] at h
  obtain rfl := Option.some.inj h
  simpa using hnot

/-- Nothing is left of a list if and only if all its elements satisfy `p`. -/
theorem trim_eq_nil_iff : (s.dropWhile p).rdropWhile p = [] ↔ s.all p = true := by
  rw [List.rdropWhile_eq_nil_iff, List.all_eq_true]
  constructor
  · intro h c hc
    rw [← List.takeWhile_append_dropWhile (p := p) (l := s), List.mem_append] at hc
    rcases hc with hc | hc
    · exact List.mem_takeWhile_imp hc
    · exact h c hc
  · intro h c hc
    exact h c ((List.dropWhile_suffix p).mem hc)

/-- A list without such elements at its ends is not changed. -/
theorem trim_eq_self_of_ends (hhead : ∀ c ∈ s.head?, p c = false)
    (hlast : ∀ c ∈ s.getLast?, p c = false) : (s.dropWhile p).rdropWhile p = s := by
  have hdrop : s.dropWhile p = s := by
    rw [List.dropWhile_eq_self_iff]
    intro hs
    simp [hhead s[0] (List.head?_eq_getElem? ▸ List.getElem?_eq_getElem hs)]
  rw [hdrop, List.rdropWhile_eq_self_iff]
  intro hs
  simp [hlast _ (List.getLast?_eq_getLast_of_ne_nil hs)]

/-- A first element that is none of them stays the first. -/
theorem trim_cons {c : α} (hc : p c = false) (s : List α) :
    ∃ t, ((c :: s).dropWhile p).rdropWhile p = c :: t := by
  have hpre : ((c :: s).dropWhile p).rdropWhile p <+: c :: s := by
    rw [List.dropWhile_cons_of_neg (by simp [hc])]
    exact List.rdropWhile_prefix _ _
  have hne : ((c :: s).dropWhile p).rdropWhile p ≠ [] := by
    rw [Ne, trim_eq_nil_iff]
    simp [hc]
  obtain ⟨d, t, ht⟩ := List.exists_cons_of_ne_nil hne
  rw [ht, List.cons_prefix_cons] at hpre
  exact ⟨t, by rw [ht, hpre.1]⟩

end Trim

/-! ### White space -/

/-- The characters `str.isspace` accepts: the ASCII ones, the four separators `\x1c`–`\x1f`, and the
short list of Unicode spaces. -/
def isSpace (c : Char) : Bool :=
  let n := c.toNat
  (9 ≤ n && n ≤ 13) || (28 ≤ n && n ≤ 32) || n == 0x85 || n == 0xa0 || n == 0x1680 ||
    (0x2000 ≤ n && n ≤ 0x200a) || n == 0x2028 || n == 0x2029 || n == 0x202f || n == 0x205f ||
    n == 0x3000

/-- White space removed at both ends. -/
def strip (s : Str) : Str :=
  (s.dropWhile isSpace).rdropWhile isSpace

/-- Nothing but white space. -/
def isBlank (s : Str) : Bool :=
  s.all isSpace

/-- A string is blank exactly when stripping leaves nothing. -/
theorem strip_eq_nil_iff {s : Str} : strip s = [] ↔ isBlank s = true :=
  trim_eq_nil_iff

/-- White space around a text does not matter to `strip`. -/
theorem strip_pad {l s r : Str} (hl : ∀ c ∈ l, isSpace c = true) (hr : ∀ c ∈ r, isSpace c = true) :
    strip (l ++ (s ++ r)) = strip s := by
  have hright : ∀ t : Str, (t ++ r).rdropWhile isSpace = t.rdropWhile isSpace := by
    intro t
    rw [List.rdropWhile, List.reverse_append,
      List.dropWhile_append_of_pos fun c hc ↦ hr c (List.mem_reverse.1 hc), List.rdropWhile]
  rw [strip, List.dropWhile_append_of_pos hl, List.dropWhile_append, strip]
  split
  · rename_i hnil
    rw [List.isEmpty_iff.1 hnil, List.rdropWhile_nil, List.rdropWhile_eq_nil_iff]
    exact fun c hc ↦ hr c ((List.dropWhile_suffix isSpace).mem hc)
  · exact hright _

/-- A text that starts and ends visibly is not changed. -/
theorem strip_eq_self_of_ends {s : Str} (hhead : ∀ c ∈ s.head?, isSpace c = false)
    (hlast : ∀ c ∈ s.getLast?, isSpace c = false) : strip s = s :=
  trim_eq_self_of_ends hhead hlast

/-- Stripping does nothing to a string without white space. -/
theorem strip_eq_self {s : Str} (h : ∀ c ∈ s, isSpace c = false) : strip s = s :=
  strip_eq_self_of_ends (fun c hc ↦ h c (List.mem_of_mem_head? hc))
    fun c hc ↦ h c (List.mem_of_mem_getLast? hc)

/-- A text that starts with a visible character keeps it. -/
theorem strip_cons {c : Char} (hc : isSpace c = false) (s : Str) :
    ∃ t, strip (c :: s) = c :: t :=
  trim_cons hc s

/-- A line that starts and ends visibly loses its end of line only. -/
theorem strip_line {c d : Char} (hc : isSpace c = false) (hd : isSpace d = false) (t : Str) :
    strip (c :: (t ++ [d]) ++ ['\n']) = c :: (t ++ [d]) := by
  have hpad := @strip_pad [] (c :: (t ++ [d])) ['\n'] (by simp)
    (List.forall_mem_singleton.2 (by decide))
  rw [List.nil_append] at hpad
  rw [hpad]
  refine strip_eq_self_of_ends ?_ ?_
  · rintro _ ⟨⟩
    exact hc
  · rw [← List.cons_append, List.getLast?_concat]
    rintro _ ⟨⟩
    exact hd

/-- Stripping keeps the visible characters. -/
theorem mem_strip {c : Char} {s : Str} (hc : isSpace c = false) (h : c ∈ s) : c ∈ strip s := by
  rw [← List.takeWhile_append_dropWhile (p := isSpace) (l := s), List.mem_append] at h
  rcases h with h | h
  · exact absurd (List.mem_takeWhile_imp h) (by simp [hc])
  · rw [← List.rdropWhile_append_rtakeWhile (p := isSpace) (l := s.dropWhile isSpace),
      List.mem_append] at h
    rcases h with h | h
    · exact h
    · exact absurd (List.mem_rtakeWhile_imp h) (by simp [hc])

/-- A non-empty string without white space is not blank. -/
theorem isBlank_eq_false {s : Str} (hne : s ≠ []) (h : ∀ c ∈ s, isSpace c = false) :
    isBlank s = false := by
  rw [← Bool.not_eq_true, ← strip_eq_nil_iff, strip_eq_self h]
  exact hne

/-- Stripping twice is stripping once. -/
theorem strip_strip (s : Str) : strip (strip s) = strip s :=
  strip_eq_self_of_ends (fun _ hc ↦ head?_trim hc) fun _ hc ↦ getLast?_trim hc

theorem mem_of_mem_strip {c : Char} {s : Str} (h : c ∈ strip s) : c ∈ s :=
  (List.dropWhile_suffix isSpace).mem ((List.rdropWhile_prefix isSpace _).mem h)

/-! ### Replacement -/

section Replace

variable {α : Type*} [BEq α]

/-- `replace`, with the number of characters of the current match still to be skipped. -/
def replaceAux (old new : List α) : ℕ → List α → List α
  | _, [] => []
  | k + 1, _ :: s => replaceAux old new k s
  | 0, x :: s =>
    if old.isPrefixOf (x :: s) then new ++ replaceAux old new (old.length - 1) s
    else x :: replaceAux old new 0 s

/-- Every occurrence of `old` (assumed non-empty) replaced by `new`, from the left and without
overlap. -/
def replace (old new s : List α) : List α :=
  replaceAux old new 0 s

/-- Replacing by the empty string only removes. -/
theorem mem_of_mem_replaceAux_nil {old : List α} {a : α} :
    ∀ {k : ℕ} {s : List α}, a ∈ replaceAux old [] k s → a ∈ s := by
  intro k s
  induction s generalizing k with
  | nil => simp [replaceAux]
  | cons x s ih =>
    cases k with
    | succ k => exact fun h ↦ List.mem_cons_of_mem _ (ih h)
    | zero =>
      intro h
      rw [replaceAux] at h
      split at h
      · exact List.mem_cons_of_mem _ (ih h)
      · rcases List.mem_cons.1 h with rfl | h
        · exact List.mem_cons_self
        · exact List.mem_cons_of_mem _ (ih h)

theorem mem_of_mem_replace_nil {old s : List α} {a : α} (h : a ∈ replace old [] s) : a ∈ s :=
  mem_of_mem_replaceAux_nil h

variable [LawfulBEq α]

/-- **Nothing is replaced where the pattern cannot start.** -/
theorem replace_append_of_not_mem {x : α} {old new s : List α} (h : x ∉ s) (t : List α) :
    replace (x :: old) new (s ++ t) = s ++ replace (x :: old) new t := by
  induction s with
  | nil => rfl
  | cons y s ih =>
    have hxy : x ≠ y := fun hxy ↦ h (hxy ▸ List.mem_cons_self)
    have hs : x ∉ s := fun hs ↦ h (List.mem_cons_of_mem _ hs)
    show replaceAux (x :: old) new 0 (y :: (s ++ t)) = y :: (s ++ replace (x :: old) new t)
    rw [replaceAux, if_neg (by simp [List.isPrefixOf, hxy]), ← ih hs]
    rfl

theorem replace_of_not_mem {x : α} {old new s : List α} (h : x ∉ s) :
    replace (x :: old) new s = s := by
  have := @replace_append_of_not_mem _ _ _ x old new s h []
  rwa [List.append_nil, show replace (x :: old) new ([] : List α) = [] from rfl,
    List.append_nil] at this

omit [LawfulBEq α] in
/-- Removing one character. -/
theorem replace_singleton_nil (x : α) (s : List α) :
    replace [x] [] s = s.filter fun y ↦ !(x == y) := by
  induction s with
  | nil => rfl
  | cons y s ih =>
    show replaceAux [x] [] 0 (y :: s) = _
    rw [replaceAux, List.filter_cons, ← ih]
    rcases h : x == y with _ | _
    · simp [List.isPrefixOf, h, replace]
    · simp [List.isPrefixOf, h, replace]

end Replace

/-! ### Decimal numerals -/

/-- The decimal numeral of an integer. -/
def decimal : ℤ → Str
  | .ofNat n => Nat.toDigits 10 n
  | .negSucc n => '-' :: Nat.toDigits 10 (n + 1)

@[simp] theorem decimal_natCast (n : ℕ) : decimal (n : ℤ) = Nat.toDigits 10 n := rfl

theorem decimal_ne_nil (n : ℤ) : decimal n ≠ [] := by
  cases n with
  | ofNat n => exact Nat.toDigits_ne_nil
  | negSucc n => exact List.cons_ne_nil _ _

/-- A numeral is made of digits and a sign. -/
theorem mem_decimal {n : ℤ} {c : Char} (h : c ∈ decimal n) : c.isDigit = true ∨ c = '-' := by
  cases n with
  | ofNat n => exact Or.inl (Nat.isDigit_of_mem_toDigits (by decide) (by decide) h)
  | negSucc n =>
    rcases List.mem_cons.1 h with rfl | h
    · exact Or.inr rfl
    · exact Or.inl (Nat.isDigit_of_mem_toDigits (by decide) (by decide) h)

theorem isDigit_of_mem_toDigits {n : ℕ} {c : Char} (h : c ∈ Nat.toDigits 10 n) :
    c.isDigit = true :=
  Nat.isDigit_of_mem_toDigits (by decide) (by decide) h

/-- A character that is neither a digit nor the sign occurs in no numeral. -/
theorem not_mem_decimal {c : Char} (hd : c.isDigit = false) (hm : c ≠ '-') (n : ℤ) :
    c ∉ decimal n := by
  intro h
  rcases mem_decimal h with h | h
  · rw [hd] at h
    exact absurd h (by decide)
  · exact hm h

theorem toDigits_injective : Function.Injective (Nat.toDigits 10) := by
  intro m n h
  rw [← Nat.ofDigitChars_ten_toDigits (n := m), h, Nat.ofDigitChars_ten_toDigits]

/-- **Numerals determine their integer.** -/
theorem decimal_injective : Function.Injective decimal := by
  intro m n h
  have hsign : ∀ k l : ℕ, Nat.toDigits 10 k ≠ '-' :: Nat.toDigits 10 l := by
    intro k l hkl
    have hmem : '-' ∈ Nat.toDigits 10 k := by rw [hkl]; exact List.mem_cons_self
    exact absurd (isDigit_of_mem_toDigits hmem) (by decide)
  cases m with
  | ofNat m =>
    cases n with
    | ofNat n => rw [toDigits_injective h]
    | negSucc n => exact absurd h (hsign _ _)
  | negSucc m =>
    cases n with
    | ofNat n => exact absurd h.symm (hsign _ _)
    | negSucc n =>
      have := toDigits_injective (List.cons.inj h).2
      rw [Nat.succ.inj this]

/-- A digit is visible. -/
theorem isSpace_eq_false_of_isDigit {c : Char} (h : c.isDigit = true) : isSpace c = false := by
  rw [Char.isDigit, Bool.and_eq_true, decide_eq_true_eq, decide_eq_true_eq] at h
  have h₁ : 48 ≤ c.toNat := h.1
  have h₂ : c.toNat ≤ 57 := h.2
  simp only [isSpace, Bool.or_eq_false_iff, Bool.and_eq_false_iff, decide_eq_false_iff_not,
    beq_eq_false_iff_ne]
  omega

theorem isSpace_eq_false_of_mem_decimal {n : ℤ} {c : Char} (h : c ∈ decimal n) :
    isSpace c = false := by
  rcases mem_decimal h with h | rfl
  · exact isSpace_eq_false_of_isDigit h
  · decide

theorem isBlank_decimal (n : ℤ) : isBlank (decimal n) = false :=
  isBlank_eq_false (decimal_ne_nil n) fun _ h ↦ isSpace_eq_false_of_mem_decimal h

end Text

end SourceOS
