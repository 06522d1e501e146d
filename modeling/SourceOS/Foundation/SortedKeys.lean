import Mathlib.Data.Char
import Mathlib.Data.List.Lex
import Mathlib.Data.List.Sort
import SourceOS.Foundation.Lists
import SourceOS.Foundation.Utf8

/-!
# One JSON value on a line

`json.dumps` with `sort_keys=True`, as the two ends of a line protocol write it: `sortKeys` puts the
members of every object in the order of their keys, and `dumps` writes the value. What is written is
printable ASCII (`printable_dumps`), so it is one line, whatever strings it has in it, and the bytes
of the line are as many as its characters.

Reading gives the value back with its keys in order, which is the same to a program that looks
members up (`get?_sortKeys`).
-/

namespace SourceOS

namespace Json

/-! ### Members -/

section Lookup

variable {α : Type} [DecidableEq α]

/-- Members with distinct keys are looked up by membership. -/
theorem lookup_eq_some_iff {ms : List (List α × Json α)} (h : (ms.map Prod.fst).Nodup) {k : List α}
    {v : Json α} : ms.lookup k = some v ↔ (k, v) ∈ ms :=
  lookup_eq_some_iff_mem h

/-- Where the keys are distinct, the order of the members does not matter to a lookup. -/
theorem lookup_of_perm {ms ns : List (List α × Json α)} (hperm : ms.Perm ns)
    (h : (ms.map Prod.fst).Nodup) (k : List α) : ms.lookup k = ns.lookup k := by
  refine Option.ext fun v ↦ ?_
  rw [lookup_eq_some_iff h, lookup_eq_some_iff ((hperm.map _).nodup_iff.1 h), hperm.mem_iff]

/-- **A member in normal form** is the normal form of the member. -/
theorem get?_normal [JsonChar α] {ms : List (List α × Json α)}
    (h : ((normalMembers ms).map Prod.fst).Nodup) {k : List α} {v : Json α}
    (hk : JsonChar.normal k = k) (hget : (Json.obj ms).get? k = some v) :
    (normal (.obj ms)).get? k = some (normal v) := by
  have hkeys : (ms.map Prod.fst).Nodup := by
    rw [map_fst_normalMembers] at h
    exact h.of_map _
  refine (lookup_eq_some_iff h).2 ?_
  rw [normalMembers_eq_map]
  exact List.mem_map.2 ⟨(k, v), (lookup_eq_some_iff hkeys).1 hget, Prod.ext hk rfl⟩

end Lookup

/-! ### Keys in order -/

section Keys

variable {α : Type} [LinearOrder α]

/-- The order of members, by key. -/
def KeyLE (m n : List α × Json α) : Prop :=
  m.1 ≤ n.1

instance : DecidableRel (@KeyLE α _) := fun m n ↦ inferInstanceAs (Decidable (m.1 ≤ n.1))

instance : IsTrans (List α × Json α) KeyLE := ⟨fun _ _ _ h h' ↦ le_trans h h'⟩

instance : Std.Total (@KeyLE α _) := ⟨fun m n ↦ le_total m.1 n.1⟩

mutual

/-- A value with the members of every object in the order of their keys. -/
def sortKeys : Json α → Json α
  | .arr xs => .arr (sortItems xs)
  | .obj ms => .obj ((sortMembers ms).insertionSort KeyLE)
  | j => j

/-- The items, each with its keys in order. -/
def sortItems : List (Json α) → List (Json α)
  | [] => []
  | x :: xs => sortKeys x :: sortItems xs

/-- The members, each with the keys of its value in order. -/
def sortMembers : List (List α × Json α) → List (List α × Json α)
  | [] => []
  | (k, v) :: ms => (k, sortKeys v) :: sortMembers ms

end

theorem sortKeys_str (s : List α) : sortKeys (.str s) = .str s := rfl

theorem sortMembers_eq_map (ms : List (List α × Json α)) :
    sortMembers ms = ms.map fun m ↦ (m.1, sortKeys m.2) := by
  induction ms with
  | nil => rfl
  | cons m ms ih => rw [sortMembers, ih, List.map_cons]

theorem map_fst_sortMembers (ms : List (List α × Json α)) :
    (sortMembers ms).map Prod.fst = ms.map Prod.fst := by
  rw [sortMembers_eq_map, List.map_map]
  rfl

theorem sortItems_eq_map (xs : List (Json α)) : sortItems xs = xs.map sortKeys := by
  induction xs with
  | nil => rfl
  | cons x xs ih => rw [sortItems, ih, List.map_cons]

/-- An array of strings or of integers has no keys to sort. -/
theorem sortKeys_strings (ss : List (List α)) :
    sortKeys (.arr (ss.map .str)) = .arr (ss.map .str) := by
  rw [sortKeys, sortItems_eq_map, List.map_map]
  rfl

theorem sortKeys_ints (ns : List ℤ) :
    sortKeys ((.arr (ns.map .int) : Json α)) = .arr (ns.map .int) := by
  rw [sortKeys, sortItems_eq_map, List.map_map]
  rfl

section Lookup

variable [DecidableEq α]

/-- **A member of the sorted value** is the member of the value, itself sorted. -/
theorem get?_sortKeys {ms : List (List α × Json α)} (h : (ms.map Prod.fst).Nodup) (k : List α) :
    (sortKeys (.obj ms)).get? k = ((Json.obj ms).get? k).map sortKeys := by
  have hnodup : ((sortMembers ms).map Prod.fst).Nodup := by rwa [map_fst_sortMembers]
  show ((sortMembers ms).insertionSort KeyLE).lookup k = (ms.lookup k).map sortKeys
  rw [← lookup_of_perm (List.perm_insertionSort KeyLE _).symm hnodup, sortMembers_eq_map]
  induction ms with
  | nil => rfl
  | cons m ms ih =>
    rw [List.map_cons, List.lookup_cons, List.lookup_cons]
    rcases k == m.1 with _ | _
    · exact ih (List.nodup_cons.1 h).2 (by rw [map_fst_sortMembers]; exact (List.nodup_cons.1 h).2)
    · rfl

end Lookup

mutual

theorem plain_sortKeys : ∀ {j : Json α}, Plain j → Plain (sortKeys j)
  | .null, _ => trivial
  | .bool _, _ => trivial
  | .int _, _ => trivial
  | .float _, h => h
  | .str _, _ => trivial
  | .arr xs, h => @plainItems_sortItems xs h
  | .obj ms, h => by
    obtain ⟨hnodup, hms⟩ : (ms.map Prod.fst).Nodup ∧ PlainMembers ms := h
    have hperm := List.perm_insertionSort KeyLE (sortMembers ms)
    refine ⟨?_, plainMembers_iff.2 fun m hm ↦ ?_⟩
    · rw [(hperm.map Prod.fst).nodup_iff, map_fst_sortMembers]
      exact hnodup
    · exact plainMembers_iff.1 (plainMembers_sortMembers hms) m (hperm.mem_iff.1 hm)

theorem plainItems_sortItems : ∀ {xs : List (Json α)}, PlainItems xs → PlainItems (sortItems xs)
  | [], _ => trivial
  | _ :: _, h => ⟨plain_sortKeys h.1, plainItems_sortItems h.2⟩

theorem plainMembers_sortMembers : ∀ {ms : List (List α × Json α)},
    PlainMembers ms → PlainMembers (sortMembers ms)
  | [], _ => trivial
  | (_, _) :: _, h => ⟨plain_sortKeys h.1, plainMembers_sortMembers h.2⟩

end

section Tidy

variable [JsonChar α]

mutual

/-- Sorting the keys keeps a value tidy. -/
theorem tidy_sortKeys : ∀ {j : Json α}, Tidy j → Tidy (sortKeys j)
  | .null, _ | .bool _, _ | .int _, _ | .float _, _ => trivial
  | .str _, h => h
  | .arr xs, h => @tidyItems_sortItems xs h
  | .obj ms, h => by
    obtain ⟨hnodup, hms⟩ : (ms.map Prod.fst).Nodup ∧ TidyMembers ms := h
    have hperm := List.perm_insertionSort KeyLE (sortMembers ms)
    refine ⟨?_, tidyMembers_iff.2 fun m hm ↦ ?_⟩
    · rw [(hperm.map Prod.fst).nodup_iff, map_fst_sortMembers]
      exact hnodup
    · exact tidyMembers_iff.1 (tidyMembers_sortMembers hms) m (hperm.mem_iff.1 hm)

theorem tidyItems_sortItems : ∀ {xs : List (Json α)}, TidyItems xs → TidyItems (sortItems xs)
  | [], _ => trivial
  | _ :: _, h => ⟨tidy_sortKeys h.1, tidyItems_sortItems h.2⟩

theorem tidyMembers_sortMembers : ∀ {ms : List (List α × Json α)},
    TidyMembers ms → TidyMembers (sortMembers ms)
  | [], _ => trivial
  | (_, _) :: _, h => ⟨h.1, tidy_sortKeys h.2.1, tidyMembers_sortMembers h.2.2⟩

end

mutual

/-- Sorting the keys keeps a value plain in normal form. -/
theorem plain_normal_sortKeys : ∀ {j : Json α}, Plain (normal j) → Plain (normal (sortKeys j))
  | .null, _ | .bool _, _ | .int _, _ | .str _, _ => trivial
  | .float _, h => h
  | .arr xs, h => @plain_normal_sortItems xs h
  | .obj ms, h => by
    obtain ⟨hnodup, hms⟩ :
      ((normalMembers ms).map Prod.fst).Nodup ∧ PlainMembers (normalMembers ms) := h
    have hperm := List.perm_insertionSort KeyLE (sortMembers ms)
    refine ⟨?_, plainMembers_iff.2 fun m hm ↦ ?_⟩
    · rw [map_fst_normalMembers] at hnodup ⊢
      rw [((hperm.map Prod.fst).map JsonChar.normal).nodup_iff, map_fst_sortMembers]
      exact hnodup
    · rw [normalMembers_eq_map] at hm
      obtain ⟨m', hm', rfl⟩ := List.mem_map.1 hm
      exact plain_normal_sortMembers hms m' (hperm.mem_iff.1 hm')

theorem plain_normal_sortItems : ∀ {xs : List (Json α)},
    PlainItems (normalItems xs) → PlainItems (normalItems (sortItems xs))
  | [], _ => trivial
  | _ :: _, h => ⟨plain_normal_sortKeys h.1, plain_normal_sortItems h.2⟩

theorem plain_normal_sortMembers : ∀ {ms : List (List α × Json α)},
    PlainMembers (normalMembers ms) → ∀ m ∈ sortMembers ms, Plain (normal m.2)
  | [], _ => List.forall_mem_nil _
  | (_, _) :: _, h =>
    List.forall_mem_cons.2 ⟨plain_normal_sortKeys h.1, plain_normal_sortMembers h.2⟩

end

end Tidy

section Fits

variable {R : JsonReader}

mutual

/-- Sorting the keys keeps a value within the limits of a reader. -/
theorem fits_sortKeys : ∀ {depth : ℕ} {j : Json α}, Fits R depth j → Fits R depth (sortKeys j)
  | _, .null, h | _, .bool _, h | _, .int _, h | _, .float _, h | _, .str _, h => h
  | _, .arr _, h => ⟨h.1, fitsItems_sortItems h.2⟩
  | _, .obj ms, h =>
    have hperm := List.perm_insertionSort KeyLE (sortMembers ms)
    ⟨h.1, fitsMembers_iff.2 fun m hm ↦
      fitsMembers_iff.1 (fitsMembers_sortMembers h.2) m (hperm.mem_iff.1 hm)⟩

theorem fitsItems_sortItems : ∀ {depth : ℕ} {xs : List (Json α)},
    FitsItems R depth xs → FitsItems R depth (sortItems xs)
  | _, [], _ => trivial
  | _, _ :: _, h => ⟨fits_sortKeys h.1, fitsItems_sortItems h.2⟩

theorem fitsMembers_sortMembers : ∀ {depth : ℕ} {ms : List (List α × Json α)},
    FitsMembers R depth ms → FitsMembers R depth (sortMembers ms)
  | _, [], _ => trivial
  | _, (_, _) :: _, h => ⟨fits_sortKeys h.1, fitsMembers_sortMembers h.2⟩

end

end Fits

end Keys

/-! ### What is written -/

/-- Printable ASCII, the space included. -/
def Printable (s : Str) : Prop :=
  ∀ c ∈ s, 0x20 ≤ c.toNat ∧ c.toNat ≤ 0x7e

instance : DecidablePred Printable := fun s ↦
  List.decidableBAll (fun c : Char ↦ 0x20 ≤ c.toNat ∧ c.toNat ≤ 0x7e) s

theorem Printable.append {s t : Str} (hs : Printable s) (ht : Printable t) : Printable (s ++ t) :=
  fun c hc ↦ (List.mem_append.1 hc).elim (hs c) (ht c)

theorem Printable.cons {c : Char} {s : Str} (hc : 0x20 ≤ c.toNat ∧ c.toNat ≤ 0x7e)
    (hs : Printable s) : Printable (c :: s) :=
  List.forall_mem_cons.2 ⟨hc, hs⟩

theorem printable_nil : Printable [] := by
  simp [Printable]

theorem printable_hexDigit : ∀ n < 16, 0x20 ≤ (hexDigit n).toNat ∧ (hexDigit n).toNat ≤ 0x7e := by
  decide

theorem printable_escapeUnit (n : ℕ) : Printable (escapeUnit n) := by
  have hdigit : ∀ k, 0x20 ≤ (hexDigit (k % 16)).toNat ∧ (hexDigit (k % 16)).toNat ≤ 0x7e :=
    fun k ↦ printable_hexDigit _ (Nat.mod_lt _ (by decide))
  exact .cons (by decide) (.cons (by decide) (.cons (hdigit _) (.cons (hdigit _)
    (.cons (hdigit _) (.cons (hdigit _) printable_nil)))))

theorem printable_escapeChar (c : Char) : Printable (escapeChar c) := by
  have hshort : ∀ d : Char, 0x20 ≤ d.toNat ∧ d.toNat ≤ 0x7e → Printable ['\\', d] := fun d hd ↦
    .cons (by decide) (.cons hd printable_nil)
  unfold escapeChar
  iterate 7
    split
    · exact hshort _ (by decide)
  split
  case isTrue hc => exact .cons hc printable_nil
  case isFalse =>
    split
    · exact printable_escapeUnit _
    · exact (printable_escapeUnit _).append (printable_escapeUnit _)

theorem printable_decimal (n : ℤ) : Printable (Text.decimal n) := by
  intro c hc
  rcases Text.mem_decimal hc with h | rfl
  · rw [Char.isDigit, Bool.and_eq_true, decide_eq_true_eq, decide_eq_true_eq] at h
    have h₁ : 48 ≤ c.toNat := h.1
    have h₂ : c.toNat ≤ 57 := h.2
    omega
  · decide

theorem printable_escapePy : ∀ c : PyChar, Printable (escapePy c)
  | .char c => printable_escapeChar c
  | .surrogate _ => printable_escapeUnit _

section Written

variable {α : Type} [JsonChar α]

theorem printable_dumpsStr (s : List α) : Printable (dumpsStr s) := by
  refine .cons (by decide) (.append (fun c hc ↦ ?_) (.cons (by decide) printable_nil))
  obtain ⟨d, -, hc⟩ := List.mem_flatMap.1 hc
  exact printable_escapePy _ c hc

theorem printable_dumpsFloat (x : PyFloat) : Printable (dumpsFloat x) := by
  rw [dumpsFloat]
  split_ifs
  · decide
  · decide
  · decide
  · exact x.printable

mutual

/-- **What is written is printable.** -/
theorem printable_dumps : ∀ j : Json α, Printable (dumps j)
  | .null => (by decide : Printable ['n', 'u', 'l', 'l'])
  | .bool true => (by decide : Printable ['t', 'r', 'u', 'e'])
  | .bool false => (by decide : Printable ['f', 'a', 'l', 's', 'e'])
  | .int n => printable_decimal n
  | .float x => printable_dumpsFloat x
  | .str s => printable_dumpsStr s
  | .arr [] => (by decide : Printable ['[', ']'])
  | .arr (x :: xs) =>
    .cons (by decide) ((printable_dumps x).append (printable_dumpsItemsTail xs))
  | .obj [] => (by decide : Printable ['\x7b', '\x7d'])
  | .obj ((k, v) :: ms) => .cons (by decide) ((printable_dumpsStr k).append
      (.cons (by decide) (.cons (by decide)
        ((printable_dumps v).append (printable_dumpsMembersTail ms)))))

theorem printable_dumpsItemsTail : ∀ xs : List (Json α), Printable (dumpsItemsTail xs)
  | [] => (by decide : Printable [']'])
  | x :: xs => .cons (by decide) (.cons (by decide)
      ((printable_dumps x).append (printable_dumpsItemsTail xs)))

theorem printable_dumpsMembersTail : ∀ ms : List (List α × Json α),
    Printable (dumpsMembersTail ms)
  | [] => (by decide : Printable ['\x7d'])
  | (k, v) :: ms => .cons (by decide) (.cons (by decide) ((printable_dumpsStr k).append
      (.cons (by decide) (.cons (by decide)
        ((printable_dumps v).append (printable_dumpsMembersTail ms))))))

end

/-- An object is written between its braces. -/
theorem exists_dumps_obj (ms : List (List α × Json α)) :
    ∃ t, dumps (.obj ms) = '\x7b' :: (t ++ ['\x7d']) := by
  have htail : ∀ ms : List (List α × Json α), ∃ t, dumpsMembersTail ms = t ++ ['\x7d'] := by
    intro ms
    induction ms with
    | nil => exact ⟨[], rfl⟩
    | cons m ms ih =>
      obtain ⟨t, ht⟩ := ih
      exact ⟨',' :: ' ' :: (dumpsStr m.1 ++ ':' :: ' ' :: (dumps m.2 ++ t)), by
        simp [dumpsMembersTail, ht]⟩
  rcases ms with _ | ⟨m, ms⟩
  · exact ⟨[], rfl⟩
  · obtain ⟨t, ht⟩ := htail ms
    exact ⟨dumpsStr m.1 ++ ':' :: ' ' :: (dumps m.2 ++ t), by simp [dumps, dumpsMembers, ht]⟩

end Written

/-! ### The bytes of a line -/

/-- Printable text has a byte for each character. -/
theorem utf8_of_printable {s : Str} (h : Printable s) :
    utf8 s = s.map fun c ↦ UInt8.ofNat c.toNat := by
  rw [utf8, List.map_eq_flatMap]
  refine List.flatMap_congr fun c hc ↦ ?_
  have hc : c.val.toNat ≤ 127 := Nat.le_succ_of_le (h c hc).2
  rw [String.utf8EncodeChar, if_pos hc]
  rfl

/-- **Printable text does not end a line.** -/
theorem newline_notMem_utf8 {s : Str} (h : Printable s) : 10 ∉ utf8 s := by
  rw [utf8_of_printable h, List.mem_map]
  rintro ⟨c, hc, hten⟩
  obtain ⟨hlow, hhigh⟩ := h c hc
  have hbyte := congrArg UInt8.toNat hten
  rw [UInt8.toNat_ofNat', Nat.mod_eq_of_lt (by omega)] at hbyte
  have hten : (10 : UInt8).toNat = 10 := rfl
  omega

theorem length_utf8_of_printable {s : Str} (h : Printable s) : (utf8 s).length = s.length := by
  rw [utf8_of_printable h, List.length_map]

end Json

end SourceOS
