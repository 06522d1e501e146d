import Mathlib.Data.Char
import Mathlib.Data.List.Lex
import SourceOS.Foundation.Text

/-!
# UTC time stamps

`time.strftime` with the format `%Y-%m-%dT%H:%M:%SZ`, of a broken-down UTC time, and the compact
form of such a stamp that is used as a file name: without its hyphens and colons.

Every field of a stamp has a fixed width, so **stamps are ordered as the times are**
(`compact_lt_compact`), and a listing sorted by name is in the order of time. A year has four digits
here; from the year 10000 on it has five, and the names would no longer sort so.
-/

namespace SourceOS

open Text

/-- A broken-down UTC time, with a year of four digits. -/
structure StructTime where
  /-- The year. -/
  year : ℕ
  /-- The month. -/
  mon : ℕ
  /-- The day of the month. -/
  mday : ℕ
  /-- The hour. -/
  hour : ℕ
  /-- The minute. -/
  min : ℕ
  /-- The second, which may be a leap second. -/
  sec : ℕ
  year_ok : 1000 ≤ year ∧ year ≤ 9999
  mon_ok : 1 ≤ mon ∧ mon ≤ 12
  mday_ok : 1 ≤ mday ∧ mday ≤ 31
  hour_ok : hour ≤ 23
  min_ok : min ≤ 59
  sec_ok : sec ≤ 61

namespace StructTime

/-- The start of a day. -/
def midnight (year mon mday : ℕ) (hyear : 1000 ≤ year ∧ year ≤ 9999) (hmon : 1 ≤ mon ∧ mon ≤ 12)
    (hmday : 1 ≤ mday ∧ mday ≤ 31) : StructTime :=
  ⟨year, mon, mday, 0, 0, 0, hyear, hmon, hmday, by decide, by decide, by decide⟩

/-- The fields, from the year to the second. -/
def fields (t : StructTime) : List ℕ :=
  [t.year, t.mon, t.mday, t.hour, t.min, t.sec]

/-- The order of time. -/
instance : LT StructTime := ⟨fun t u ↦ t.fields < u.fields⟩

instance (t u : StructTime) : Decidable (t < u) :=
  inferInstanceAs (Decidable (t.fields < u.fields))

/-! ### Writing -/

/-- Two digits. -/
def pad2 (n : ℕ) : Str :=
  [Nat.digitChar (n / 10), Nat.digitChar (n % 10)]

/-- Four digits. -/
def pad4 (n : ℕ) : Str :=
  pad2 (n / 100) ++ pad2 (n % 100)

/-- `strftime` with the format `%Y-%m-%dT%H:%M:%SZ`. -/
def isoformat (t : StructTime) : Str :=
  pad4 t.year ++ '-' :: pad2 t.mon ++ '-' :: pad2 t.mday ++ 'T' :: pad2 t.hour ++
    ':' :: pad2 t.min ++ ':' :: pad2 t.sec ++ ['Z']

end StructTime

/-- A stamp without its colons and hyphens. -/
def compact (stamp : Str) : Str :=
  replace ['-'] [] (replace [':'] [] stamp)

/-! ### The order of stamps -/

/-- Texts of one length compare by their beginnings first. -/
theorem append_lt_append {α : Type*} [LT α] {x y : List α} (hlen : x.length = y.length) (h : x < y)
    (s t : List α) : x ++ s < y ++ t := by
  induction x generalizing y with
  | nil =>
    rw [List.eq_nil_of_length_eq_zero hlen.symm] at h
    exact absurd h (List.not_lt_nil _)
  | cons a x ih =>
    rcases y with _ | ⟨b, y⟩
    · exact absurd h (List.not_lt_nil _)
    · rw [List.cons_append, List.cons_append]
      rcases List.cons_lt_cons_iff.1 h with h | ⟨hab, h⟩
      · exact List.cons_lt_cons_iff.2 (Or.inl h)
      · exact List.cons_lt_cons_iff.2 (Or.inr ⟨hab, ih (Nat.succ.inj hlen) h⟩)

theorem append_lt_append_left {α : Type*} [LT α] (x : List α) {s t : List α} (h : s < t) :
    x ++ s < x ++ t := by
  induction x with
  | nil => exact h
  | cons a x ih => exact List.cons_lt_cons_iff.2 (Or.inr ⟨rfl, ih⟩)

namespace StructTime

private theorem digitChar_lt_digitChar : ∀ d < 10, ∀ e < 10, d < e →
    Nat.digitChar d < Nat.digitChar e := by
  decide

private theorem digitChar_ne : ∀ d < 10, Nat.digitChar d ≠ ':' ∧ Nat.digitChar d ≠ '-' := by
  decide

/-- Numbers of two digits compare as their texts. -/
theorem pad2_lt_pad2 {m n : ℕ} (h : m < n) (hn : n < 100) : pad2 m < pad2 n := by
  by_cases htens : m / 10 < n / 10
  · exact List.cons_lt_cons_iff.2
      (Or.inl (digitChar_lt_digitChar _ (by omega) _ (by omega) htens))
  · have hones : Nat.digitChar (m % 10) < Nat.digitChar (n % 10) :=
      digitChar_lt_digitChar _ (by omega) _ (by omega) (by omega)
    rw [pad2, pad2, show m / 10 = n / 10 by omega]
    exact List.cons_lt_cons_iff.2 (Or.inr ⟨rfl, List.cons_lt_cons_iff.2 (Or.inl hones)⟩)

theorem pad2_append_lt {m n : ℕ} (h : m < n) (hn : n < 100) (s t : Str) :
    pad2 m ++ s < pad2 n ++ t :=
  append_lt_append (show (pad2 m).length = (pad2 n).length from rfl) (pad2_lt_pad2 h hn) s t

/-- So do numbers of four digits. -/
theorem pad4_append_lt {m n : ℕ} (h : m < n) (hn : n < 10000) (s t : Str) :
    pad4 m ++ s < pad4 n ++ t := by
  rw [pad4, pad4, List.append_assoc, List.append_assoc]
  by_cases hhundreds : m / 100 < n / 100
  · exact pad2_append_lt hhundreds (by omega) _ _
  · rw [show m / 100 = n / 100 by omega]
    exact append_lt_append_left _ (pad2_append_lt (by omega) (by omega) s t)

private theorem compact_cons (c : Char) (s : Str) :
    compact (c :: s) = if c = ':' ∨ c = '-' then compact s else c :: compact s := by
  simp only [compact, replace_singleton_nil, List.filter_cons]
  by_cases hcolon : c = ':'
  · simp [hcolon]
  · by_cases hdash : c = '-'
    · simp [hdash]
    · simp [hcolon, hdash, Ne.symm hcolon, Ne.symm hdash]

private theorem compact_pad2 {n : ℕ} (hn : n < 100) (s : Str) :
    compact (pad2 n ++ s) = pad2 n ++ compact s := by
  have htens := digitChar_ne (n / 10) (by omega)
  have hones := digitChar_ne (n % 10) (by omega)
  show compact (Nat.digitChar (n / 10) :: Nat.digitChar (n % 10) :: s) = _
  rw [compact_cons, if_neg (not_or.2 htens), compact_cons, if_neg (not_or.2 hones)]
  rfl

/-- The compact form of a stamp. -/
theorem compact_isoformat (t : StructTime) : compact t.isoformat =
    pad4 t.year ++ (pad2 t.mon ++ (pad2 t.mday ++ (['T'] ++ (pad2 t.hour ++ (pad2 t.min ++
      (pad2 t.sec ++ ['Z'])))))) := by
  obtain ⟨year, mon, mday, hour, min, sec, hyear, hmon, hmday, hhour, hmin, hsec⟩ := t
  have hdash : ∀ s, compact ('-' :: s) = compact s := fun s ↦ compact_cons '-' s
  have hcolon : ∀ s, compact (':' :: s) = compact s := fun s ↦ compact_cons ':' s
  have hT : ∀ s, compact ('T' :: s) = 'T' :: compact s := fun s ↦ compact_cons 'T' s
  simp only [isoformat, pad4, List.append_assoc, List.cons_append]
  rw [compact_pad2 (by omega), compact_pad2 (by omega), hdash, compact_pad2 (by omega), hdash,
    compact_pad2 (by omega), hT, compact_pad2 (by omega), hcolon, compact_pad2 (by omega), hcolon,
    compact_pad2 (by omega)]
  rfl

/-- **Stamps are ordered as the times are.** -/
theorem compact_lt_compact {t u : StructTime} (h : t < u) :
    compact t.isoformat < compact u.isoformat := by
  have h : t.fields < u.fields := h
  rw [compact_isoformat, compact_isoformat]
  have hyear := u.year_ok
  have hmon := u.mon_ok
  have hmday := u.mday_ok
  have hhour := u.hour_ok
  have hmin := u.min_ok
  have hsec := u.sec_ok
  simp only [fields, List.cons_lt_cons_iff, List.not_lt_nil, and_false, or_false] at h
  -- The first field that differs decides, and the ones before it are the same.
  rcases h with h | ⟨hy, h | ⟨hmo, h | ⟨hd, h | ⟨hh, h | ⟨hmi, h⟩⟩⟩⟩⟩
  · exact pad4_append_lt h (by omega) _ _
  · rw [hy]
    exact append_lt_append_left _ (pad2_append_lt h (by omega) _ _)
  · rw [hy, hmo]
    exact append_lt_append_left _ (append_lt_append_left _ (pad2_append_lt h (by omega) _ _))
  · rw [hy, hmo, hd]
    refine append_lt_append_left _ (append_lt_append_left _ (append_lt_append_left _ ?_))
    exact append_lt_append_left _ (pad2_append_lt h (by omega) _ _)
  · rw [hy, hmo, hd, hh]
    refine append_lt_append_left _ (append_lt_append_left _ (append_lt_append_left _ ?_))
    refine append_lt_append_left _ (append_lt_append_left _ ?_)
    exact pad2_append_lt h (by omega) _ _
  · rw [hy, hmo, hd, hh, hmi]
    refine append_lt_append_left _ (append_lt_append_left _ (append_lt_append_left _ ?_))
    refine append_lt_append_left _ (append_lt_append_left _ (append_lt_append_left _ ?_))
    exact pad2_append_lt h (by omega) _ _

/-- Stamps are told apart without their colons and hyphens. -/
theorem compact_isoformat_inj {t u : StructTime} :
    compact t.isoformat = compact u.isoformat ↔ t.isoformat = u.isoformat := by
  constructor
  · intro h
    rcases lt_trichotomy t.fields u.fields with hlt | heq | hlt
    · exact absurd h (ne_of_lt (compact_lt_compact hlt))
    · simp only [fields, List.cons.injEq, and_true] at heq
      obtain ⟨hyear, hmon, hmday, hhour, hmin, hsec⟩ := heq
      rw [isoformat, isoformat, hyear, hmon, hmday, hhour, hmin, hsec]
    · exact absurd h (ne_of_gt (compact_lt_compact hlt))
  · intro h
    rw [h]

/-- A stamp starts with a digit, and stands before what starts with a later character. -/
theorem compact_lt_of_letter (t : StructTime) {c : Char} (hc : ∀ d < 10, Nat.digitChar d < c)
    (s : Str) : compact t.isoformat < c :: s := by
  have hyear := t.year_ok
  rw [compact_isoformat]
  exact List.cons_lt_cons_iff.2 (Or.inl (hc (t.year / 100 / 10) (by omega)))

/-! ### Dates -/

/-- The date of a stamp, its first ten characters. -/
def date (t : StructTime) : Str :=
  t.isoformat.take 10

theorem date_eq (t : StructTime) :
    t.date = pad4 t.year ++ ('-' :: (pad2 t.mon ++ ('-' :: pad2 t.mday))) := rfl

/-- **Dates never go down** while time does not. -/
theorem date_le_date {t u : StructTime} (h : ¬ u < t) : t.date ≤ u.date := by
  have h : ¬ u.fields < t.fields := h
  have hyear := t.year_ok
  have hyear' := u.year_ok
  have hmon := t.mon_ok
  have hmon' := u.mon_ok
  have hmday := t.mday_ok
  have hmday' := u.mday_ok
  simp only [fields, List.cons_lt_cons_iff, not_or, not_and] at h
  obtain ⟨hy, h⟩ := h
  rw [date_eq, date_eq]
  rcases Nat.lt_or_eq_of_le (Nat.le_of_not_lt hy) with hlt | heq
  · exact (pad4_append_lt hlt (by omega) _ _).le
  · obtain ⟨hmo, h⟩ := h heq.symm
    rw [heq]
    rcases Nat.lt_or_eq_of_le (Nat.le_of_not_lt hmo) with hlt | heq
    · exact (append_lt_append_left _ (List.cons_lt_cons_iff.2
        (Or.inr ⟨rfl, pad2_append_lt hlt (by omega) _ _⟩))).le
    · obtain ⟨hd, -⟩ := h heq.symm
      rw [heq]
      rcases Nat.lt_or_eq_of_le (Nat.le_of_not_lt hd) with hlt | heq
      · have hday := pad2_lt_pad2 hlt (by omega)
        exact (append_lt_append_left _ (List.cons_lt_cons_iff.2 (Or.inr ⟨rfl,
          append_lt_append_left _ (List.cons_lt_cons_iff.2 (Or.inr ⟨rfl, hday⟩))⟩))).le
      · rw [heq]

end StructTime

end SourceOS
