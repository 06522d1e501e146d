import Mathlib.Data.List.Forall2
import Mathlib.Data.List.Induction
import Mathlib.Data.Set.Function

/-!
# Hash chains

A list of entries in which each entry names the hash of the one before it and carries the digest of
its own payload. `Linked root` is what a verifier that walks the list from the front establishes;
`tip root` is the hash the next entry will have to name.

* `linked_concat` is the **append rule**: a linked list stays linked when the new entry names the
  tip and carries its own digest. `Linked.prev_getElem` and `Linked.hash_getElem` read the links
  back at an index.
* `Linked.forall₂_payload` is **commitment**: two linked lists with the same tip have, entry by
  entry, the same payloads. The argument runs backwards from the tip — equal digests, hence equal
  payloads, hence equal predecessors — and needs three things of the scheme: no digest is the root,
  a payload determines the predecessor it names among those a linked list can name (`Stem`), and the
  digest does not collide *on the payloads of the two lists*. Nothing is assumed elsewhere.
* `Linked.isPrefix_of_subset` and `linked_set` are about **tampering**: what can be left out of a
  linked list unnoticed is its end, and a replaced entry with the same links goes unnoticed exactly
  when it has the same digest.
-/

namespace SourceOS

/-- How entries `ρ` are chained: the hash an entry names, the hash it carries, its payload, and the
digest that relates the last two. -/
structure HashChain (ρ κ δ : Type*) where
  /-- The hash of the previous entry, as this entry names it. -/
  prev : ρ → δ
  /-- The hash this entry carries. -/
  hash : ρ → δ
  /-- What is digested. -/
  payload : ρ → κ
  /-- The digest. -/
  digest : κ → δ

namespace HashChain

variable {ρ κ δ : Type*} (C : HashChain ρ κ δ)

/-- Every entry names the hash before it, the first one the root, and carries its own digest. -/
def Linked : δ → List ρ → Prop
  | _, [] => True
  | p, r :: rs => C.prev r = p ∧ C.digest (C.payload r) = C.hash r ∧ Linked (C.hash r) rs

/-- The hash the next entry has to name. -/
def tip : δ → List ρ → δ
  | p, [] => p
  | _, r :: rs => tip (C.hash r) rs

/-- What an entry of a linked list can name: the root, or a digest. -/
def Stem (root d : δ) : Prop :=
  d = root ∨ ∃ k, C.digest k = d

variable {C}

@[simp] theorem tip_concat (p : δ) (rs : List ρ) (r : ρ) : C.tip p (rs ++ [r]) = C.hash r := by
  induction rs generalizing p with
  | nil => rfl
  | cons s rs ih => exact ih _

/-- The tip is the hash of the last entry, or the root where there is none. -/
theorem tip_eq_getLast? (p : δ) (rs : List ρ) :
    C.tip p rs = (rs.getLast?.map C.hash).getD p := by
  rcases List.eq_nil_or_concat' rs with rfl | ⟨rs, r, rfl⟩
  · rfl
  · rw [tip_concat, List.getLast?_concat]
    rfl

/-- **The append rule.** -/
theorem linked_concat {p : δ} {rs : List ρ} {r : ρ} :
    C.Linked p (rs ++ [r]) ↔
      C.Linked p rs ∧ C.prev r = C.tip p rs ∧ C.digest (C.payload r) = C.hash r := by
  induction rs generalizing p with
  | nil => simp [Linked, tip]
  | cons s rs ih =>
    rw [List.cons_append, Linked, Linked, ih, tip]
    tauto

/-- The tip is the root or a digest, so nothing else is ever named. -/
theorem Linked.stem_tip {p : δ} {rs : List ρ} (h : C.Linked p rs) : C.Stem p (C.tip p rs) := by
  induction rs using List.reverseRecOn with
  | nil => exact Or.inl rfl
  | append_singleton rs r _ =>
    rw [tip_concat]
    exact Or.inr ⟨_, (linked_concat.1 h).2.2⟩

/-- A prefix of a linked list is linked. -/
theorem Linked.take {p : δ} {rs : List ρ} (h : C.Linked p rs) (n : ℕ) : C.Linked p (rs.take n) := by
  induction rs generalizing p n with
  | nil => simpa using h
  | cons r rs ih =>
    rcases n with _ | n
    · trivial
    · exact ⟨h.1, h.2.1, ih h.2.2 n⟩

/-- The entry at an index names the tip of what stands before it. -/
theorem Linked.prev_getElem {p : δ} {rs : List ρ} (h : C.Linked p rs) {i : ℕ}
    (hi : i < rs.length) : C.prev rs[i] = C.tip p (rs.take i) := by
  have hpre := h.take (i + 1)
  rw [List.take_succ_eq_append_getElem hi] at hpre
  exact (linked_concat.1 hpre).2.1

/-- The entry at an index names the root or a digest. -/
theorem Linked.stem_prev {p : δ} {rs : List ρ} (h : C.Linked p rs) {i : ℕ} (hi : i < rs.length) :
    C.Stem p (C.prev rs[i]) := by
  rw [h.prev_getElem hi]
  exact (h.take i).stem_tip

/-- The entry at an index carries the digest of its payload. -/
theorem Linked.hash_getElem {p : δ} {rs : List ρ} (h : C.Linked p rs) {i : ℕ}
    (hi : i < rs.length) : C.digest (C.payload rs[i]) = C.hash rs[i] := by
  have hpre := h.take (i + 1)
  rw [List.take_succ_eq_append_getElem hi] at hpre
  exact (linked_concat.1 hpre).2.2

/-- Neighbours are linked. -/
theorem Linked.prev_succ {p : δ} {rs : List ρ} (h : C.Linked p rs) {i : ℕ}
    (hi : i + 1 < rs.length) : C.prev rs[i + 1] = C.hash rs[i] := by
  rw [h.prev_getElem hi, List.take_succ_eq_append_getElem (by omega), tip_concat]

/-- **Nothing can be left out but the end.** A linked list of entries of another one, in whose tips
no hash recurs, is an initial segment of it. -/
theorem Linked.isPrefix_of_subset {p : δ} {xs rs : List ρ} (hxs : C.Linked p xs)
    (hrs : C.Linked p rs) (hsub : ∀ x ∈ xs, x ∈ rs)
    (htip : ∀ i j, i ≤ rs.length → j ≤ rs.length → C.tip p (rs.take i) = C.tip p (rs.take j) →
      i = j) : xs <+: rs := by
  induction xs using List.reverseRecOn with
  | nil => exact List.nil_prefix
  | append_singleton xs x ih =>
    obtain ⟨hxs, hprev, -⟩ := linked_concat.1 hxs
    have hpre : xs <+: rs := ih hxs fun y hy ↦ hsub y (List.mem_append_left _ hy)
    have htake : xs = rs.take xs.length := List.prefix_iff_eq_take.1 hpre
    -- The new entry stands somewhere in the other list, and it names the tip of `xs`; there is only
    -- one place with that tip before it, the one right behind `xs`.
    obtain ⟨j, hj, rfl⟩ := List.getElem_of_mem (hsub x (by simp))
    have hplace : j = xs.length := by
      refine htip j xs.length (by omega) hpre.length_le ?_
      rw [← hrs.prev_getElem hj, hprev, ← htake]
    subst hplace
    rw [List.prefix_iff_eq_take, List.length_append, List.length_singleton,
      List.take_succ_eq_append_getElem hj, ← htake]

/-- **A replaced entry.** Putting another entry with the same links into a linked list keeps it
linked exactly when the entry carries its own digest. -/
theorem linked_set {p : δ} {rs : List ρ} (h : C.Linked p rs) {i : ℕ} (hi : i < rs.length) {r : ρ}
    (hprev : C.prev r = C.prev rs[i]) (hhash : C.hash r = C.hash rs[i]) :
    C.Linked p (rs.set i r) ↔ C.digest (C.payload r) = C.hash r := by
  induction rs generalizing p i with
  | nil => exact absurd hi (Nat.not_lt_zero _)
  | cons s rs ih =>
    obtain ⟨hs, hd, hrest⟩ := h
    rcases i with _ | i
    · rw [List.set_cons_zero, Linked, hprev, List.getElem_cons_zero, hhash]
      simp [hs, hrest]
    · rw [List.set_cons_succ, Linked, ih hrest (Nat.lt_of_succ_lt_succ hi) hprev hhash]
      simp [hs, hd]

/-- **Commitment.** Two linked lists with one tip have the same payloads in the same places. -/
theorem Linked.forall₂_payload {root : δ} {xs ys : List ρ} (hx : C.Linked root xs)
    (hy : C.Linked root ys) (htip : C.tip root xs = C.tip root ys)
    (hroot : ∀ k, C.digest k ≠ root)
    (hprev : ∀ x y, C.Stem root (C.prev x) → C.Stem root (C.prev y) →
      C.payload x = C.payload y → C.prev x = C.prev y)
    (hinj : Set.InjOn C.digest {k | k ∈ xs.map C.payload ∨ k ∈ ys.map C.payload}) :
    List.Forall₂ (fun x y ↦ C.payload x = C.payload y) xs ys := by
  -- Backwards along `xs`: the last entries digest to the same tip, so they have one payload, so
  -- they name one predecessor, and that is the common tip of what stands before them.
  induction xs using List.reverseRecOn generalizing ys with
  | nil =>
    rcases List.eq_nil_or_concat' ys with rfl | ⟨ys, y, rfl⟩
    · exact List.Forall₂.nil
    · rw [tip_concat] at htip
      exact absurd ((linked_concat.1 hy).2.2.trans htip.symm) (hroot _)
  | append_singleton xs x ih =>
    obtain ⟨hxs, hxprev, hxhash⟩ := linked_concat.1 hx
    rcases List.eq_nil_or_concat' ys with rfl | ⟨ys, y, rfl⟩
    · rw [tip_concat] at htip
      exact absurd (hxhash.trans htip) (hroot _)
    · obtain ⟨hys, hyprev, hyhash⟩ := linked_concat.1 hy
      rw [tip_concat, tip_concat] at htip
      have hpay : C.payload x = C.payload y := by
        refine hinj ?_ ?_ (hxhash.trans (htip.trans hyhash.symm))
        · exact Or.inl (List.mem_map_of_mem (by simp))
        · exact Or.inr (List.mem_map_of_mem (by simp))
      have hname : C.prev x = C.prev y :=
        hprev x y (hxprev ▸ hxs.stem_tip) (hyprev ▸ hys.stem_tip) hpay
      have hrest : C.tip root xs = C.tip root ys := by
        rw [← hxprev, hname, hyprev]
      refine List.rel_append (ih hxs hys hrest (hinj.mono ?_)) (List.Forall₂.cons hpay .nil)
      intro k hk
      rw [List.map_append, List.map_append]
      exact hk.imp (List.mem_append_left _) (List.mem_append_left _)

end HashChain

end SourceOS
