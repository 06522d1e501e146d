import SourceOS.Foundation.SortedKeys

/-!
# What a canonical text determines

The canonical text of a value is its compact text with the keys of every object in order
(`c14n_eq_write`). It determines the value up to the order of members, and the text of an object
tells where it ends, so that **an object and the bytes after it are determined by the whole**
(`utf8_c14n_append_inj`), whatever these bytes are.

`Same` is equality of values as a program sees them, with the members of objects in any order.
-/

namespace SourceOS

namespace Json

/-! ### Equality up to the order of members -/

/-- The same value, with the members of objects in any order. -/
def Same (j k : Json) : Prop :=
  sortKeys j = sortKeys k

theorem Same.refl (j : Json) : Same j j := rfl

theorem Same.symm {j k : Json} (h : Same j k) : Same k j := Eq.symm h

theorem Same.trans {i j k : Json} (h : Same i j) (h' : Same j k) : Same i k := Eq.trans h h'

/-- Objects are the same if and only if their members are, in some order. -/
theorem same_obj_iff_perm {ms ns : List (Str × Json)} (hnodup : (ms.map Prod.fst).Nodup) :
    Same (.obj ms) (.obj ns) ↔ (sortMembers ms).Perm (sortMembers ns) := by
  constructor
  · intro h
    have hsorted : (sortMembers ms).insertionSort KeyLE = (sortMembers ns).insertionSort KeyLE :=
      Json.obj.inj h
    exact (List.perm_insertionSort KeyLE _).symm.trans
      (hsorted ▸ List.perm_insertionSort KeyLE _)
  · intro hperm
    have hsorted : ((sortMembers ms).insertionSort KeyLE).Perm
        ((sortMembers ns).insertionSort KeyLE) :=
      (List.perm_insertionSort _ _).trans (hperm.trans (List.perm_insertionSort _ _).symm)
    have hkeys : (((sortMembers ms).insertionSort KeyLE).map Prod.fst).Nodup := by
      rw [((List.perm_insertionSort KeyLE _).map _).nodup_iff, map_fst_sortMembers]
      exact hnodup
    refine congrArg Json.obj (hsorted.eq_of_pairwise (fun m n hm hn hmn hnm ↦ ?_)
      (List.pairwise_insertionSort _ _) (List.pairwise_insertionSort _ _))
    exact List.inj_on_of_nodup_map hkeys hm (hsorted.mem_iff.2 hn) (le_antisymm hmn hnm)

/-- More members of the same make the same object. -/
theorem Same.append {ms ns : List (Str × Json)} (h : Same (.obj ms) (.obj ns))
    {more : List (Str × Json)} (hnodup : ((ms ++ more).map Prod.fst).Nodup) :
    Same (.obj (ms ++ more)) (.obj (ns ++ more)) := by
  have hms : (ms.map Prod.fst).Nodup := by
    rw [List.map_append] at hnodup
    exact (List.nodup_append.1 hnodup).1
  rw [same_obj_iff_perm hnodup, sortMembers_eq_map, sortMembers_eq_map, List.map_append,
    List.map_append, ← sortMembers_eq_map ms, ← sortMembers_eq_map ns]
  exact ((same_obj_iff_perm hms).1 h).append_right _

/-- Objects are the same if everything that can be looked up is. -/
theorem same_obj_of_lookup {ms ns : List (Str × Json)} (hms : (ms.map Prod.fst).Nodup)
    (hns : (ns.map Prod.fst).Nodup) (h : ∀ k, ms.lookup k = ns.lookup k) :
    Same (.obj ms) (.obj ns) := by
  have hperm : ms.Perm ns := by
    refine (List.perm_ext_iff_of_nodup (hms.of_map _) (hns.of_map _)).2 ?_
    rintro ⟨k, v⟩
    rw [← lookup_eq_some_iff_mem hms, ← lookup_eq_some_iff_mem hns, h]
  rw [same_obj_iff_perm hms, sortMembers_eq_map, sortMembers_eq_map]
  exact hperm.map _

/-- What is looked up in the same objects is the same. -/
theorem Same.lookup {ms ns : List (Str × Json)} (hms : (ms.map Prod.fst).Nodup)
    (hns : (ns.map Prod.fst).Nodup) (h : Same (.obj ms) (.obj ns)) (k : Str) :
    (ms.lookup k).map sortKeys = (ns.lookup k).map sortKeys := by
  have hget : (sortKeys (.obj ms)).get? k = (sortKeys (.obj ns)).get? k := congrArg (·.get? k) h
  rwa [get?_sortKeys hms, get?_sortKeys hns] at hget

mutual

/-- Keys that are in order stay as they are. -/
theorem sortKeys_sortKeys : ∀ j : Json, sortKeys (sortKeys j) = sortKeys j
  | .null | .bool _ | .int _ | .float _ | .str _ => rfl
  | .arr xs => by rw [sortKeys, sortKeys, sortItems_sortItems xs]
  | .obj ms => by
    have hsorted := List.map_insertionSort (r := KeyLE) (s := KeyLE)
      (fun m : Str × Json ↦ (m.1, sortKeys m.2)) (sortMembers ms) (fun _ _ _ _ ↦ Iff.rfl)
    rw [sortKeys, sortKeys, sortMembers_eq_map ((sortMembers ms).insertionSort KeyLE), hsorted,
      ← sortMembers_eq_map, sortMembers_sortMembers ms,
      (List.pairwise_insertionSort KeyLE _).insertionSort_eq]

theorem sortItems_sortItems : ∀ xs : List Json, sortItems (sortItems xs) = sortItems xs
  | [] => rfl
  | x :: xs => by rw [sortItems, sortItems, sortKeys_sortKeys x, sortItems_sortItems xs]

theorem sortMembers_sortMembers : ∀ ms : List (Str × Json),
    sortMembers (sortMembers ms) = sortMembers ms
  | [] => rfl
  | (k, v) :: ms => by
    rw [sortMembers, sortMembers, sortKeys_sortKeys v, sortMembers_sortMembers ms]

end

/-- A value is the same with its keys in order. -/
theorem same_sortKeys (j : Json) : Same (sortKeys j) j :=
  sortKeys_sortKeys j

/-- The same objects are the same without the members under some keys. -/
theorem Same.filter {ms ns : List (Str × Json)} (h : Same (.obj ms) (.obj ns))
    (hnodup : (ms.map Prod.fst).Nodup) (p : Str → Bool) :
    Same (.obj (ms.filter fun m ↦ p m.1)) (.obj (ns.filter fun m ↦ p m.1)) := by
  have hfilter : ∀ os : List (Str × Json),
      sortMembers (os.filter fun m ↦ p m.1) = (sortMembers os).filter fun m ↦ p m.1 := by
    intro os
    rw [sortMembers_eq_map, sortMembers_eq_map, List.filter_map]
    rfl
  rw [same_obj_iff_perm (hnodup.sublist (List.filter_sublist.map _)), hfilter, hfilter]
  exact ((same_obj_iff_perm hnodup).1 h).filter _

/-! ### The canonical text -/

theorem scanString_c14nChar (c : Char) (s : Str) :
    scanString .plain (c14nChar c ++ s) =
      (scanString .plain s).map fun p ↦ (c.toNat :: p.1, p.2) := by
  by_cases h₁ : c = '"'; · subst h₁; rfl
  by_cases h₂ : c = '\\'; · subst h₂; rfl
  by_cases h₃ : c = '\n'; · subst h₃; rfl
  by_cases h₄ : c = '\r'; · subst h₄; rfl
  by_cases h₅ : c = '\t'; · subst h₅; rfl
  by_cases h₆ : c = '\x0c'; · subst h₆; rfl
  by_cases h₇ : c = '\x08'; · subst h₇; rfl
  rw [c14nChar, if_neg h₁, if_neg h₂, if_neg h₃, if_neg h₄, if_neg h₅, if_neg h₆, if_neg h₇]
  split
  case isTrue h => exact scanString_escapeUnit (by omega) s
  case isFalse h =>
    rw [List.singleton_append, scanString, if_neg h₁, if_neg h₂, if_neg h]

/-- Characters that stand for themselves are no halves of pairs. -/
theorem joinUnits_toNat (s : Str) : joinUnits none (s.flatMap fun c ↦ [c.toNat]) = some s := by
  induction s with
  | nil => rfl
  | cons c s ih =>
    have hnot := PyChar.not_surrogate c
    have hhigh : ¬ IsHigh c.toNat := fun h ↦ hnot ⟨h.1, Nat.lt_trans h.2 (by decide)⟩
    have hlow : ¬ IsLow c.toNat := fun h ↦ hnot ⟨Nat.le_trans (by decide) h.1, h.2⟩
    rw [List.flatMap_cons, List.singleton_append, joinUnits, if_neg hhigh, if_neg hlow, ih,
      Option.map_some, Char.ofNat_toNat]

theorem legible_c14nChar : Legible c14nChar :=
  legible_of_units (fun c ↦ [c.toNat]) scanString_c14nChar joinUnits_toNat

theorem readable_c14n : Readable c14nChar [] :=
  ⟨legible_c14nChar, by simp⟩

/-- Items with commas between them, in brackets. -/
theorem intercalate_items (esc : Char → Str) (xs : List Json) :
    [','].intercalate (xs.map (write esc [])) ++ [']'] = writeItems esc [] xs := by
  cases xs with
  | nil => rfl
  | cons x xs =>
    induction xs generalizing x with
    | nil => simp [writeItems, writeItemsTail]
    | cons y ys ih =>
      rw [List.map_cons, List.map_cons, List.intercalate_cons_cons, List.append_assoc,
        ← List.map_cons, ih y]
      simp [writeItems, writeItemsTail]

/-- A member, written. -/
def writeMember (esc : Char → Str) (m : Str × Json) : Str :=
  '"' :: (m.1.flatMap esc ++ ['"']) ++ ':' :: write esc [] m.2

/-- Members with commas between them, in braces. -/
theorem intercalate_members (esc : Char → Str) (ms : List (Str × Json)) :
    [','].intercalate (ms.map (writeMember esc)) ++ ['\x7d'] = writeMembers esc [] ms := by
  rcases ms with _ | ⟨m, ms⟩
  · rfl
  · induction ms generalizing m with
    | nil => simp [writeMembers, writeMembersTail, writeMember]
    | cons n ns ih =>
      rw [List.map_cons, List.map_cons, List.intercalate_cons_cons, List.append_assoc,
        ← List.map_cons, ih n]
      simp [writeMembers, writeMembersTail, writeMember]

mutual

/-- **The canonical text** is the compact text of the value with its keys in order. -/
theorem c14n_eq_write : ∀ j : Json, c14n j = write c14nChar [] (sortKeys j)
  | .null | .bool true | .bool false | .int _ | .float _ | .str _ => rfl
  | .arr xs => by
    rw [c14n, c14nItems_eq_map xs, intercalate_items, sortKeys, write]
  | .obj ms => by
    have hsorted := List.map_insertionSort (r := KeyLE) (s := ByKey)
      (fun m : Str × Json ↦ (m.1, write c14nChar [] m.2)) (sortMembers ms)
      (fun _ _ _ _ ↦ Iff.rfl)
    rw [c14n, c14nMembers_eq_map ms, ← hsorted, List.map_map, sortKeys, write,
      ← intercalate_members]
    rfl

theorem c14nItems_eq_map : ∀ xs : List Json,
    c14nItems xs = (sortItems xs).map (write c14nChar [])
  | [] => rfl
  | x :: xs => by rw [c14nItems, c14n_eq_write x, c14nItems_eq_map xs, sortItems, List.map_cons]

theorem c14nMembers_eq_map : ∀ ms : List (Str × Json),
    c14nMembers ms = (sortMembers ms).map fun m ↦ (m.1, write c14nChar [] m.2)
  | [] => rfl
  | (k, v) :: ms => by
    rw [c14nMembers, c14n_eq_write v, c14nMembers_eq_map ms, sortMembers, List.map_cons]

end

/-- The same values have the same canonical text. -/
theorem Same.c14n_eq {j k : Json} (h : Same j k) : c14n j = c14n k := by
  rw [c14n_eq_write, c14n_eq_write, show sortKeys j = sortKeys k from h]

/-- **The canonical text of an object determines it**, and tells where it ends. -/
theorem c14n_append_inj {ms ns : List (Str × Json)} (hms : Plain (.obj ms)) (hns : Plain (.obj ns))
    {r r' : Str} (h : c14n (.obj ms) ++ r = c14n (.obj ns) ++ r') :
    Same (.obj ms) (.obj ns) ∧ r = r' := by
  have hread : ∀ {ms : List (Str × Json)} {r : Str} {n : ℕ}, Plain (.obj ms) →
      (c14n (.obj ms)).length < n →
        readValue ⟨fun _ ↦ ⟨[], by simp, none, false⟩, none, none⟩ 0 n (c14n (.obj ms) ++ r) =
          some (sortKeys (.obj ms), r) := by
    intro ms r n hms hn
    rw [c14n_eq_write] at hn ⊢
    exact readValue_write readable_c14n _ _ n r (plain_sortKeys hms) hn (fun i hi ↦ by cases hi)
  have hleft := hread (r := r) (n := (c14n (.obj ms)).length + (c14n (.obj ns)).length + 1) hms
    (by omega)
  rw [h, hread hns (by omega)] at hleft
  obtain ⟨hsame, hrest⟩ := Prod.mk.inj (Option.some.inj hleft)
  exact ⟨hsame.symm, hrest.symm⟩

/-- **An object and the bytes after it** are determined by the whole. -/
theorem utf8_c14n_append_inj {ms ns : List (Str × Json)} (hms : Plain (.obj ms))
    (hns : Plain (.obj ns)) {bs cs : List UInt8} :
    utf8 (c14n (.obj ms)) ++ bs = utf8 (c14n (.obj ns)) ++ cs ↔
      Same (.obj ms) (.obj ns) ∧ bs = cs := by
  constructor
  · intro h
    have htext := congrArg decodeReplace h
    rw [decodeReplace_utf8_append, decodeReplace_utf8_append] at htext
    have hsame := (c14n_append_inj hms hns htext).1
    rw [hsame.c14n_eq] at h
    exact ⟨hsame, List.append_cancel_left h⟩
  · rintro ⟨hsame, rfl⟩
    rw [hsame.c14n_eq]

/-! ### Digests as text -/

/-- **A hexadecimal text determines its bytes.** -/
theorem hexdigest_injective : Function.Injective hexdigest := by
  have hdigit : ∀ {m n : ℕ}, m < 16 → n < 16 → hexDigit m = hexDigit n → m = n := by
    intro m n hm hn h
    have hval := congrArg hexVal h
    rw [hexVal_hexDigit m hm, hexVal_hexDigit n hn] at hval
    exact Option.some.inj hval
  intro bs cs h
  induction bs generalizing cs with
  | nil =>
    rcases cs with _ | ⟨c, cs⟩
    · rfl
    · exact absurd h (by simp [hexdigest])
  | cons b bs ih =>
    rcases cs with _ | ⟨c, cs⟩
    · exact absurd h (by simp [hexdigest])
    · have hb : b.toNat < 256 := b.toNat_lt
      have hc : c.toNat < 256 := c.toNat_lt
      obtain ⟨hhigh, hrest⟩ := List.cons.inj h
      obtain ⟨hlow, hrest⟩ := List.cons.inj hrest
      have hdiv := hdigit (by omega) (by omega) hhigh
      have hmod := hdigit (by omega) (by omega) hlow
      have hbc : b = c := UInt8.toNat_inj.1 (by omega)
      rw [hbc, ih hrest]

/-! ### Objects with distinct keys -/

/-- A member that is added is found under its key, -/
theorem lookup_insertMember_self (ms : List (Str × Json)) (m : Str × Json) :
    (insertMember ms m).lookup m.1 = some m.2 := by
  rw [insertMember]
  split
  case isTrue hmem =>
    induction ms with
    | nil => cases hmem
    | cons n ms ih =>
      rw [List.map_cons, List.lookup_cons]
      by_cases hn : n.1 = m.1
      · rw [if_pos hn, beq_self_eq_true]
      · have hne : (m.1 == n.1) = false := beq_eq_false_iff_ne.2 (Ne.symm hn)
        rw [if_neg hn, hne]
        exact ih ((List.mem_cons.1 hmem).resolve_left (Ne.symm hn))
  case isFalse hmem =>
    have hnone : ms.lookup m.1 = none := by
      rw [List.lookup_eq_none_iff]
      intro n hn
      rw [bne_iff_ne]
      exact fun heq ↦ hmem (List.mem_map.2 ⟨n, hn, heq.symm⟩)
    rw [List.lookup_append, hnone, Option.none_or, List.lookup_cons, beq_self_eq_true]

/-- and the others are found as before. -/
theorem lookup_insertMember_of_ne {k : Str} {m : Str × Json} (hk : k ≠ m.1)
    (ms : List (Str × Json)) : (insertMember ms m).lookup k = ms.lookup k := by
  have hne : (k == m.1) = false := beq_eq_false_iff_ne.2 hk
  rw [insertMember]
  split
  case isTrue hmem =>
    clear hmem
    induction ms with
    | nil => rfl
    | cons n ms ih =>
      rw [List.map_cons, List.lookup_cons, List.lookup_cons]
      by_cases hn : n.1 = m.1
      · rw [if_pos hn, hn, hne]
        exact ih
      · rw [if_neg hn]
        rcases k == n.1 with _ | _
        · exact ih
        · rfl
  case isFalse => rw [List.lookup_append, List.lookup_cons, hne, List.lookup_nil, Option.or_none]

/-- **The last value of a key counts.** -/
theorem lookup_ofMembers (ms : List (Str × Json)) (k : Str) :
    (ofMembers ms).lookup k = ms.reverse.lookup k := by
  have haux : ∀ (ms acc : List (Str × Json)), (ms.foldl insertMember acc).lookup k =
      (ms.reverse.lookup k).or (acc.lookup k) := by
    intro ms
    induction ms with
    | nil => exact fun acc ↦ (Option.none_or ..).symm
    | cons m ms ih =>
      intro acc
      rw [List.foldl_cons, ih, List.reverse_cons, List.lookup_append, Option.or_assoc,
        List.lookup_cons]
      by_cases hk : k = m.1
      · rw [hk, lookup_insertMember_self, beq_self_eq_true, Option.some_or]
      · rw [lookup_insertMember_of_ne hk, beq_eq_false_iff_ne.2 hk, List.lookup_nil, Option.none_or]
  rw [ofMembers, haux, List.lookup_nil, Option.or_none]

theorem plain_insertMember {ms : List (Str × Json)} (h : Plain (.obj ms)) (k : Str) {v : Json}
    (hv : Plain v) : Plain (.obj (insertMember ms (k, v))) := by
  refine ⟨nodup_insertMember h.1 _, plainMembers_iff.2 fun n hn ↦ ?_⟩
  rw [insertMember] at hn
  split at hn
  case isTrue =>
    obtain ⟨o, ho, rfl⟩ := List.mem_map.1 hn
    split
    · exact hv
    · exact plainMembers_iff.1 h.2 o ho
  case isFalse =>
    rcases List.mem_append.1 hn with hn | hn
    · exact plainMembers_iff.1 h.2 n hn
    · rw [List.mem_singleton.1 hn]
      exact hv

/-- A member is added to the same objects alike. -/
theorem Same.insertMember {ms ns : List (Str × Json)} (h : Same (.obj ms) (.obj ns))
    (hms : (ms.map Prod.fst).Nodup) (m : Str × Json) :
    Same (.obj (insertMember ms m)) (.obj (insertMember ns m)) := by
  have hsort : ∀ os : List (Str × Json), sortMembers (Json.insertMember os m) =
      Json.insertMember (sortMembers os) (m.1, sortKeys m.2) := by
    intro os
    simp only [Json.insertMember, map_fst_sortMembers]
    split
    · rw [sortMembers_eq_map, sortMembers_eq_map, List.map_map, List.map_map]
      refine List.map_congr_left fun o _ ↦ ?_
      by_cases ho : o.1 = m.1
      · simp [ho]
      · simp [ho]
    · rw [sortMembers_eq_map, sortMembers_eq_map, List.map_append]
      rfl
  have hperm := (same_obj_iff_perm hms).1 h
  rw [same_obj_iff_perm (nodup_insertMember hms m), hsort, hsort, Json.insertMember,
    Json.insertMember]
  by_cases hmem : m.1 ∈ (sortMembers ms).map Prod.fst
  · rw [if_pos hmem, if_pos ((hperm.map Prod.fst).mem_iff.1 hmem)]
    exact hperm.map _
  · rw [if_neg hmem, if_neg fun h ↦ hmem ((hperm.map Prod.fst).mem_iff.2 h)]
    exact hperm.append_right _

end Json

end SourceOS
