import Mathlib.Data.List.Flatten
import Mathlib.Data.List.Lex
import Mathlib.Order.Lattice
import SourceOS.Foundation.LineReader

/-!
# A log of lines, some of them torn

A file that lines are appended to, where an append may break off: what it leaves is a **piece**, a
whole line or the beginning of one. A torn piece has no terminator, so the next line that is
appended comes right behind it. The lines of the file are therefore the whole lines, one for one and
in order, each with what was torn since the line before it (`lines_flatMap_bytes`): **an append that
breaks off costs the line after it, and no other** (`countP_spoilt_le`).

The second half is about a log that is cut up into files by a rank that never goes down, such as the
day: the files in the order of their ranks are the log (`flatMap_filter_rank`).
-/

namespace SourceOS

namespace TornLog

variable {α : Type*}

/-! ### Pieces -/

/-- What an append leaves. -/
inductive Piece (α : Type*)
  /-- A line, without its terminator. -/
  | whole (body : List α)
  /-- The beginning of a line. -/
  | torn (part : List α)

/-- The piece, in the file. -/
def Piece.bytes (nl : α) : Piece α → List α
  | .whole body => body ++ [nl]
  | .torn part => part

/-- What stands on the line that the piece is on. -/
def Piece.text : Piece α → List α
  | .whole body => body
  | .torn part => part

/-- The whole lines, each with what was torn before it; `carry` is torn already. -/
def mergedLines : List α → List (Piece α) → List (List α × List α)
  | _, [] => []
  | carry, .whole body :: ps => (carry, body) :: mergedLines [] ps
  | carry, .torn part :: ps => mergedLines (carry ++ part) ps

/-- The pieces that break off after something has been written. -/
def Piece.isTorn : Piece α → Bool
  | .whole _ => false
  | .torn part => !part.isEmpty

variable [DecidableEq α] {nl : α}

/-- **The lines of the file** are the whole lines, in order, each behind what was torn before it. -/
theorem lines_flatMap_bytes {ps : List (Piece α)} (h : ∀ p ∈ ps, nl ∉ p.text) {carry : List α}
    (hcarry : nl ∉ carry) :
    LineReader.lines nl (carry ++ ps.flatMap (Piece.bytes nl)) =
      (mergedLines carry ps).map fun l ↦ l.1 ++ l.2 ++ [nl] := by
  induction ps generalizing carry with
  | nil =>
    rw [List.flatMap_nil, List.append_nil]
    exact LineReader.lines_eq_nil_iff.2 hcarry
  | cons p ps ih =>
    have hps := fun p hp ↦ h p (List.mem_cons_of_mem _ hp)
    have hp := h p List.mem_cons_self
    cases p with
    | whole body =>
      have hbody : nl ∉ carry ++ body := by
        rw [List.mem_append, not_or]
        exact ⟨hcarry, hp⟩
      have hrest := @ih hps [] List.not_mem_nil
      rw [List.nil_append] at hrest
      rw [List.flatMap_cons, Piece.bytes, List.append_assoc body, ← List.append_assoc carry,
        List.singleton_append, LineReader.lines_append_cons hbody, hrest, mergedLines,
        List.map_cons]
    | torn part =>
      have hpart : nl ∉ carry ++ part := by
        rw [List.mem_append, not_or]
        exact ⟨hcarry, hp⟩
      rw [List.flatMap_cons, Piece.bytes, ← List.append_assoc, ih hps hpart, mergedLines]

omit [DecidableEq α] in
/-- Each whole line is there once. -/
theorem map_snd_mergedLines (carry : List α) (ps : List (Piece α)) :
    (mergedLines carry ps).map Prod.snd = ps.filterMap fun
      | .whole body => some body
      | .torn _ => none := by
  induction ps generalizing carry with
  | nil => rfl
  | cons p ps ih =>
    cases p with
    | whole body => rw [mergedLines, List.map_cons, ih, List.filterMap_cons]
    | torn part => rw [mergedLines, ih, List.filterMap_cons]

omit [DecidableEq α] in
/-- **Each torn piece spoils one line at the most.** -/
theorem countP_spoilt_le (ps : List (Piece α)) (carry : List α) :
    (mergedLines carry ps).countP (fun l ↦ !l.1.isEmpty) ≤
      (if carry.isEmpty then 0 else 1) + ps.countP Piece.isTorn := by
  induction ps generalizing carry with
  | nil => exact Nat.zero_le _
  | cons p ps ih =>
    cases p with
    | whole body =>
      have hrest := ih []
      rw [mergedLines, List.countP_cons, List.countP_cons_of_neg (by simp [Piece.isTorn])]
      rcases carry with _ | ⟨a, carry⟩
      · simpa using hrest
      · simp only [List.isEmpty_cons, List.isEmpty_nil] at hrest ⊢
        simp only [Bool.not_false, if_true, if_false, Bool.false_eq_true] at hrest ⊢
        omega
    | torn part =>
      have hrest := ih (carry ++ part)
      rw [mergedLines, List.countP_cons]
      rcases part with _ | ⟨a, part⟩
      · simpa [Piece.isTorn] using hrest
      · have hcarry : (carry ++ a :: part).isEmpty = false := by simp
        rw [hcarry] at hrest
        simp only [Piece.isTorn, List.isEmpty_cons, Bool.not_false, if_true, if_false,
          Bool.false_eq_true] at hrest ⊢
        omega

/-! ### A log in several files -/

omit [DecidableEq α] in
/-- **Cut up by rank.** The members of a list, in an order in which their ranks never go down, are
those of each rank after the other. -/
theorem flatMap_filter_rank {ρ : Type*} [LinearOrder ρ] [DecidableEq ρ] (rank : α → ρ)
    {ranks : List ρ} (hranks : ranks.Pairwise (· < ·)) {xs : List α}
    (hxs : xs.Pairwise fun x y ↦ rank x ≤ rank y)
    (hmem : ∀ x ∈ xs, rank x ∈ ranks) :
    ranks.flatMap (fun r ↦ xs.filter fun x ↦ rank x = r) = xs := by
  induction xs with
  | nil => simp
  | cons x xs ih =>
    obtain ⟨hle, hxs⟩ := List.pairwise_cons.1 hxs
    have hrest := ih hxs fun y hy ↦ hmem y (List.mem_cons_of_mem _ hy)
    -- the ranks before that of `x` are those of nobody
    obtain ⟨before, after, rfl⟩ := List.append_of_mem (hmem x List.mem_cons_self)
    have hbefore : ∀ r ∈ before, ∀ y ∈ x :: xs, rank y ≠ r := by
      intro r hr y hy heq
      have hlt : r < rank x := (List.pairwise_append.1 hranks).2.2 r hr _ List.mem_cons_self
      rcases List.mem_cons.1 hy with rfl | hy
      · exact absurd heq hlt.ne'
      · exact absurd (heq ▸ hle y hy) (not_le.2 hlt)
    have hafter : ∀ r ∈ after, rank x ≠ r := fun r hr heq ↦
      lt_irrefl _ (heq ▸ (List.pairwise_cons.1 (List.pairwise_append.1 hranks).2.1).1 r hr)
    have hnone : ∀ {ys : List α}, (∀ y ∈ ys, y ∈ x :: xs) →
        before.flatMap (fun r ↦ ys.filter fun y ↦ rank y = r) = [] := by
      intro ys hys
      rw [List.flatMap_eq_nil_iff]
      exact fun r hr ↦ List.filter_eq_nil_iff.2 fun y hy ↦ by simpa using hbefore r hr y (hys y hy)
    have htail : after.flatMap (fun r ↦ (x :: xs).filter fun y ↦ rank y = r) =
        after.flatMap fun r ↦ xs.filter fun y ↦ rank y = r :=
      List.flatMap_congr fun r hr ↦ List.filter_cons_of_neg (by simpa using hafter r hr)
    rw [List.flatMap_append, List.flatMap_cons, hnone fun y hy ↦ List.mem_cons_of_mem _ hy,
      List.nil_append] at hrest
    rw [List.flatMap_append, List.flatMap_cons, hnone fun y hy ↦ hy, List.nil_append, htail,
      List.filter_cons_of_pos (by simp), List.cons_append, hrest]

end TornLog

end SourceOS
