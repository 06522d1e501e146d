import Mathlib.Data.List.Basic
import SourceOS.Foundation.Lists

/-!
# Records in lines

A list of records written one to a line: first a **name**, free text, then the other fields in a
form that can be read off the end of the line, then a terminator. The fields never contain the
terminator; the name may, and then the lines no longer determine the records.

* `join r s` is the record whose name spells the whole line of `r` and goes on with the name of `s`:
  it is written exactly as `r` and `s` are (`line_join`).
* `Regroups` relates two lists that come apart into one another by such joins, and
  `listing_eq_iff_regroups` is the **ambiguity of the format, exactly**: two lists are written alike
  if and only if they are regroupings of each other.
* Without a terminator in the names nothing can be regrouped (`Regroups.eq_of_notMem`), nor can it
  where both lists have the same names (`eq_of_listing_eq_of_names`).
-/

namespace SourceOS

/-- How records with a name in `List β` and other fields in `κ` are written. -/
structure LineFormat (β κ : Type*) where
  /-- What ends a line. -/
  terminator : β
  /-- The other fields, as they follow the name. -/
  fields : κ → List β
  /-- The fields do not end the line. -/
  terminator_notMem : ∀ k, terminator ∉ fields k
  /-- The fields are read off the end. -/
  fields_inj : ∀ {x y : List β} {k l : κ}, x ++ fields k = y ++ fields l → x = y ∧ k = l

namespace LineFormat

variable {β κ : Type*} (F : LineFormat β κ)

/-- A record as a line. -/
def line (r : List β × κ) : List β :=
  r.1 ++ F.fields r.2 ++ [F.terminator]

/-- Records as lines, one after the other. -/
def listing (rs : List (List β × κ)) : List β :=
  rs.flatMap F.line

/-- The record whose name is the line of `r` followed by the name of `s`. -/
def join (r s : List β × κ) : List β × κ :=
  (F.line r ++ s.1, s.2)

/-- Lists of records that come apart into one another where names spell whole lines. -/
inductive Regroups : List (List β × κ) → List (List β × κ) → Prop
  | nil : Regroups [] []
  | cons {r rs ss} : Regroups rs ss → Regroups (r :: rs) (r :: ss)
  | join_right {r s rs ss} : Regroups rs (s :: ss) → Regroups (r :: rs) (F.join r s :: ss)
  | join_left {r s rs ss} : Regroups (r :: rs) ss → Regroups (F.join s r :: rs) (s :: ss)

variable {F}

@[simp] theorem listing_nil : F.listing [] = [] := rfl

@[simp] theorem listing_cons (r : List β × κ) (rs : List (List β × κ)) :
    F.listing (r :: rs) = F.line r ++ F.listing rs := rfl

/-- **Two lines in one record.** -/
theorem line_join (r s : List β × κ) : F.line (F.join r s) = F.line r ++ F.line s := by
  simp only [line, join, List.append_assoc]

theorem line_ne_nil (r : List β × κ) : F.line r ≠ [] :=
  List.concat_ne_nil _ _

/-- A line determines its record. -/
theorem line_injective : Function.Injective F.line := by
  rintro ⟨x, k⟩ ⟨y, l⟩ h
  obtain ⟨rfl, rfl⟩ := F.fields_inj (List.append_cancel_right h)
  rfl

/-- **A line inside a line.** If a line goes on after what is a whole line already, then the name
reaches over that terminator. -/
theorem exists_join_of_line_eq_append {r s : List β × κ} {rest : List β} (hrest : rest ≠ [])
    (h : F.line s = F.line r ++ rest) : ∃ t, s = F.join r t ∧ rest = F.line t := by
  obtain ⟨x, k⟩ := s
  rw [line, List.append_assoc, List.append_eq_append_iff] at h
  rcases h with ⟨a, hr, htail⟩ | ⟨y, rfl, hrest⟩
  · -- The terminator of `r` would stand within the fields of `s`.
    obtain ⟨u, b, rfl⟩ := (List.eq_nil_or_concat' rest).resolve_left hrest
    rw [← List.append_assoc] at htail
    have hfields : F.fields k = a ++ u := (List.append_inj' htail rfl).1
    rcases List.eq_nil_or_concat' a with rfl | ⟨v, c, rfl⟩
    · -- Nothing of the fields belongs to `r`: its line is the name.
      rw [List.append_nil] at hr
      refine ⟨([], k), ?_, ?_⟩
      · rw [join, hr, List.append_nil]
      · rw [List.nil_append] at htail
        exact htail.symm
    · have hc : c = F.terminator := by
        rw [line, ← List.append_assoc] at hr
        exact (List.cons.inj (List.append_inj' hr rfl).2).1.symm
      refine absurd ?_ (F.terminator_notMem k)
      rw [hfields, ← hc]
      simp
  · exact ⟨(y, k), rfl, hrest.trans (List.append_assoc _ _ _).symm⟩

/-- Regrouped records are written alike. -/
theorem Regroups.listing_eq {rs ss : List (List β × κ)} (h : F.Regroups rs ss) :
    F.listing rs = F.listing ss := by
  induction h with
  | nil => rfl
  | cons _ ih => rw [listing_cons, listing_cons, ih]
  | join_right _ ih =>
    rw [listing_cons, ih, listing_cons, listing_cons, line_join, List.append_assoc]
  | join_left _ ih =>
    rw [listing_cons, line_join, List.append_assoc, ← listing_cons, ih, listing_cons]

/-- Records that are written alike are regrouped. The first lines agree, or one of them is the
beginning of the other; then the rest of the longer one is a line of its own and goes back to its
list, which the number of records counts. -/
theorem regroups_of_listing_eq {rs ss : List (List β × κ)} (h : F.listing rs = F.listing ss) :
    F.Regroups rs ss := by
  induction hn : rs.length + ss.length using Nat.strongRecOn generalizing rs ss with
  | ind n ih =>
    rcases rs with _ | ⟨r, rs⟩ <;> rcases ss with _ | ⟨s, ss⟩
    · exact .nil
    · exact absurd (List.append_eq_nil_iff.1 h.symm).1 (line_ne_nil s)
    · exact absurd (List.append_eq_nil_iff.1 h).1 (line_ne_nil r)
    · subst hn
      rw [listing_cons, listing_cons, List.append_eq_append_iff] at h
      rcases h with ⟨rest, hs, hrs⟩ | ⟨rest, hr, hss⟩
      · by_cases hrest : rest = []
        · subst hrest
          rw [List.append_nil] at hs
          obtain rfl := line_injective hs
          exact .cons (ih _ (by simp only [List.length_cons]; omega) hrs rfl)
        · obtain ⟨t, rfl, rfl⟩ := exists_join_of_line_eq_append hrest hs
          rw [← listing_cons] at hrs
          exact .join_right (ih _ (by simp only [List.length_cons]; omega) hrs rfl)
      · by_cases hrest : rest = []
        · subst hrest
          rw [List.append_nil] at hr
          obtain rfl := line_injective hr
          exact .cons (ih _ (by simp only [List.length_cons]; omega) hss.symm rfl)
        · obtain ⟨t, rfl, rfl⟩ := exists_join_of_line_eq_append hrest hr
          rw [← listing_cons] at hss
          exact .join_left (ih _ (by simp only [List.length_cons]; omega) hss.symm rfl)

/-- **The ambiguity of the format.** -/
theorem listing_eq_iff_regroups {rs ss : List (List β × κ)} :
    F.listing rs = F.listing ss ↔ F.Regroups rs ss :=
  ⟨regroups_of_listing_eq, Regroups.listing_eq⟩

/-- A name that spells a line has a terminator in it. -/
theorem terminator_mem_join (r s : List β × κ) : F.terminator ∈ (F.join r s).1 := by
  simp [join, line]

/-- **Names without a terminator leave nothing to regroup.** -/
theorem Regroups.eq_of_notMem {rs ss : List (List β × κ)} (h : F.Regroups rs ss)
    (hrs : ∀ r ∈ rs, F.terminator ∉ r.1) (hss : ∀ s ∈ ss, F.terminator ∉ s.1) : rs = ss := by
  induction h with
  | nil => rfl
  | cons _ ih =>
    rw [ih (fun r hr ↦ hrs r (List.mem_cons_of_mem _ hr))
      (fun s hs ↦ hss s (List.mem_cons_of_mem _ hs))]
  | join_right => exact absurd (terminator_mem_join _ _) (hss _ List.mem_cons_self)
  | join_left => exact absurd (terminator_mem_join _ _) (hrs _ List.mem_cons_self)

/-- **Under the same names nothing can be regrouped either.** Behind a name that both lists have,
the other fields end at the first terminator. -/
theorem eq_of_listing_eq_of_names {rs ss : List (List β × κ)}
    (hnames : rs.map Prod.fst = ss.map Prod.fst) (h : F.listing rs = F.listing ss) : rs = ss := by
  induction rs generalizing ss with
  | nil => exact (List.map_eq_nil_iff.1 hnames.symm).symm
  | cons r rs ih =>
    obtain ⟨x, k⟩ := r
    rcases ss with _ | ⟨⟨y, l⟩, ss⟩
    · exact absurd hnames (by simp)
    · obtain ⟨rfl, htail⟩ := List.cons.inj hnames
      rw [listing_cons, listing_cons, line, line] at h
      simp only [List.append_assoc] at h
      obtain ⟨hfields, hrest⟩ := append_cons_inj_of_notMem (F.terminator_notMem k)
        (F.terminator_notMem l) (List.append_cancel_left h)
      have hkl : k = l := (@fields_inj _ _ F [] [] k l hfields).2
      rw [hkl, ih htail hrest]

end LineFormat

end SourceOS
