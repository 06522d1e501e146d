import Mathlib.Algebra.Group.Int.Defs
import SourceOS.Foundation.Document
import SourceOS.Foundation.Effect
import SourceOS.Foundation.Lists

/-!
# The canonical text of a document

`json.dumps` with `sort_keys=True`, `separators=(",", ":")` and `ensure_ascii=False`, on a document
of any shape. Three things may go wrong that cannot on a JSON value, and none of them shows before
the text is asked for:

* the keys of a mapping are sorted, and values of different kinds are not ordered;
* a date is no JSON value, and no key either;
* the text may have no encoding, as it keeps halves of surrogate pairs as they are.

A document none of whose parts is affected is `Writable`, and **exactly the writable documents have
canonical bytes** (`canonicalBytes_ok_iff`). Being writable is a statement about every part of a
document (`Forall`), so it passes to the members.
-/

namespace SourceOS

/-! ### Sorting what may not be comparable -/

/-- Sorting, as far as it may raise: `clash` is what comparing two entries raises. Two entries that
are next to each other in the end have been compared, so a sort cannot get around a clash; which one
it comes upon first is its own business. -/
def checkSort {α : Type} (clash : α → α → Option BuiltinError) : List α → Except BuiltinError Unit
  | [] => .ok ()
  | x :: xs =>
    match xs.findSome? (clash x) with
    | some e => .error e
    | none => checkSort clash xs

/-- **A sort raises nothing** if and only if no two entries clash. -/
theorem checkSort_eq_ok_iff {α : Type} {clash : α → α → Option BuiltinError} {xs : List α} :
    checkSort clash xs = .ok () ↔ xs.Pairwise fun x y ↦ clash x y = none := by
  induction xs with
  | nil => simp [checkSort]
  | cons x xs ih =>
    rw [List.pairwise_cons, checkSort]
    split
    next e he =>
      refine ⟨fun h ↦ absurd h (by simp), fun h ↦ ?_⟩
      rw [List.findSome?_eq_none_iff.2 h.1] at he
      exact absurd he (by simp)
    next hnone => rw [ih, and_iff_right (List.findSome?_eq_none_iff.1 hnone)]

/-! ### The order of scalars -/

namespace Scalar

/-- What is ordered among itself. -/
inductive Kind
  | null
  | number
  | text
  | date (k : DateKind)
deriving DecidableEq

/-- The kind of a scalar. -/
def kind : Scalar → Kind
  | .null => .null
  | .bool _ | .int _ | .float _ => .number
  | .str _ => .text
  | .date d => .date d.kind

/-- The error of comparing a scalar with one before it, of another kind. -/
def orderError (earlier later : Scalar) : BuiltinError :=
  match earlier, later with
  | .date d, .date e => typeError (if d.kind = .date ∨ e.kind = .date
      then "can't compare datetime.datetime to datetime.date".toList
      else "can't compare offset-naive and offset-aware datetimes".toList)
  | _, _ => typeError ("'<' not supported between instances of '".toList ++
      later.typeName.toList ++ "' and '".toList ++ earlier.typeName.toList ++ ['\''])

/-- What comparing two scalars raises. -/
def clash (x y : Scalar) : Option BuiltinError :=
  if x.kind = y.kind then none else some (orderError x y)

theorem clash_eq_none_iff {x y : Scalar} : clash x y = none ↔ x.kind = y.kind := by
  rw [clash]
  split
  case isTrue h => exact iff_of_true rfl h
  case isFalse h => exact iff_of_false (Option.some_ne_none _) h

section

variable (floatValue : PyFloat → FloatValue)

/-- The number that a number is, given those that floating-point numbers are. -/
def value : Scalar → FloatValue
  | .bool b => .ofInt (if b then 1 else 0)
  | .int n => .ofInt n
  | .float x => floatValue x
  | _ => .negInf

/-- The order of two scalars of one kind. Strings are ordered by code points. -/
def le (x y : Scalar) : Bool :=
  match x, y with
  | .str s, .str t => decide (s.map PyChar.codePoint ≤ t.map PyChar.codePoint)
  | .date d, .date e => decide (d.instant ≤ e.instant)
  | x, y => (x.value floatValue).le (y.value floatValue)

end

end Scalar

/-! ### The text -/

namespace PyStr

/-- One character of a string literal, not escaped beyond ASCII. -/
def c14nChar : PyChar → PyStr
  | .char c => ofStr (Json.c14nChar c)
  | .surrogate i => [.surrogate i]

/-- A string literal, not escaped beyond ASCII. -/
def quoted (s : PyStr) : PyStr :=
  .char '"' :: (s.flatMap c14nChar ++ [.char '"'])

theorem clean_quoted {s : PyStr} : Clean (quoted s) ↔ Clean s := by
  have hchar : ∀ c, Clean (c14nChar c) ↔ c.IsChar := by
    rintro (c | i)
    · exact iff_of_true (clean_ofStr _) trivial
    · simp [c14nChar, Clean, PyChar.IsChar]
  have hflat : Clean (s.flatMap c14nChar) ↔ Clean s := by
    simp only [Clean, List.mem_flatMap] at hchar ⊢
    constructor
    · intro h c hc
      exact (hchar c).1 fun x hx ↦ h x ⟨c, hc, hx⟩
    · rintro h x ⟨c, hc, hx⟩
      exact (hchar c).2 (h c hc) x hx
  rw [quoted, clean_cons, clean_append, hflat]
  simp [Clean, PyChar.IsChar]

end PyStr

namespace Scalar

/-- The scalar can be written: it is no date, and no half of a surrogate pair is in it. -/
def Plain : Scalar → Prop
  | .str s => s.Clean
  | .date _ => False
  | _ => True

instance : DecidablePred Plain
  | .str s => inferInstanceAs (Decidable s.Clean)
  | .date _ => .isFalse id
  | .null | .bool _ | .int _ | .float _ => .isTrue trivial

/-- The text of a scalar that is no string. -/
def plainText : Scalar → Str
  | .null => "null".toList
  | .bool b => if b then "true".toList else "false".toList
  | .int n => Text.decimal n
  | .float x => Json.dumpsFloat x
  | .str _ | .date _ => []

/-- The text of a key, before it is quoted. -/
def keyText : Scalar → Except BuiltinError PyStr
  | .str s => .ok s
  | .date d => .error (typeError ("keys must be str, int, float, bool or None, not ".toList ++
      (Scalar.date d).typeName.toList))
  | s => .ok (.ofStr s.plainText)

/-- The text of a scalar. -/
def c14n : Scalar → Except BuiltinError PyStr
  | .str s => .ok s.quoted
  | .date d => .error (typeError ("Object of type ".toList ++
      (if d.kind = .date then "date" else "datetime").toList ++
      " is not JSON serializable".toList))
  | s => .ok (.ofStr s.plainText)

theorem keyText_clean_iff {s : Scalar} : (∃ t, s.keyText = .ok t ∧ t.Clean) ↔ s.Plain := by
  cases s with
  | str s => simp [keyText, Plain]
  | date d => simp [keyText, Plain]
  | _ => exact iff_of_true ⟨_, rfl, PyStr.clean_ofStr _⟩ trivial

theorem c14n_clean_iff {s : Scalar} : (∃ t, s.c14n = .ok t ∧ t.Clean) ↔ s.Plain := by
  cases s with
  | str s => simp [c14n, Plain, PyStr.clean_quoted]
  | date d => simp [c14n, Plain]
  | _ => exact iff_of_true ⟨_, rfl, PyStr.clean_ofStr _⟩ trivial

end Scalar

namespace Document

section

variable (floatValue : PyFloat → FloatValue)

/-- One member of a mapping, with the text of its value if that has one. -/
def memberText (m : Scalar × Except BuiltinError PyStr) : Except BuiltinError PyStr := do
  let key ← m.1.keyText
  let text ← m.2
  return key.quoted ++ .char ':' :: text

/-- Pieces between brackets. -/
def enclosed (left right : Char) (ts : List PyStr) : PyStr :=
  .char left :: ([.char ','].intercalate ts ++ [.char right])

mutual

/-- The canonical text of a document. -/
def c14n (floatValue : PyFloat → FloatValue) : Document → Except BuiltinError PyStr
  | .scalar s => s.c14n
  | .seq xs => do
    let ts ← c14nItems floatValue xs
    return enclosed '[' ']' ts
  | .map ms => do
    -- the keys are sorted before any of the values is written
    checkSort Scalar.clash (ms.map Prod.fst)
    let ts ← ((c14nMembers floatValue ms).insertionSort fun m n ↦
      m.1.le floatValue n.1 = true).mapM memberText
    return enclosed '\x7b' '\x7d' ts

/-- The texts of the items. -/
def c14nItems (floatValue : PyFloat → FloatValue) :
    List Document → Except BuiltinError (List PyStr)
  | [] => .ok []
  | x :: xs => do
    let t ← c14n floatValue x
    let ts ← c14nItems floatValue xs
    return t :: ts

/-- The members with the texts of their values. -/
def c14nMembers (floatValue : PyFloat → FloatValue) :
    List (Scalar × Document) → List (Scalar × Except BuiltinError PyStr)
  | [] => []
  | (k, v) :: ms => (k, c14n floatValue v) :: c14nMembers floatValue ms

end

/-- The bytes that are hashed. -/
def canonicalBytes (d : Document) : Except BuiltinError (List UInt8) := do
  let text ← c14n floatValue d
  text.encode

end

/-! ### Documents, part by part -/

section Forall

variable {p : Scalar → Prop} {q : List Scalar → Prop}

mutual

/-- Every scalar of the document is as `p` says, and the keys of every mapping are as `q` says. -/
def Forall (p : Scalar → Prop) (q : List Scalar → Prop) : Document → Prop
  | .scalar s => p s
  | .seq xs => ForallItems p q xs
  | .map ms => q (ms.map Prod.fst) ∧ ForallMembers p q ms

/-- The same for every item of a sequence. -/
def ForallItems (p : Scalar → Prop) (q : List Scalar → Prop) : List Document → Prop
  | [] => True
  | x :: xs => Forall p q x ∧ ForallItems p q xs

/-- The same for every value of a mapping. -/
def ForallMembers (p : Scalar → Prop) (q : List Scalar → Prop) : List (Scalar × Document) → Prop
  | [] => True
  | (_, v) :: ms => Forall p q v ∧ ForallMembers p q ms

end

mutual

/-- What holds of every part can be decided. -/
def decForall (p : Scalar → Prop) (q : List Scalar → Prop) [DecidablePred p] [DecidablePred q] :
    (d : Document) → Decidable (Forall p q d)
  | .scalar s => inferInstanceAs (Decidable (p s))
  | .seq xs => decForallItems p q xs
  | .map ms =>
    have := decForallMembers p q ms
    inferInstanceAs (Decidable (q (ms.map Prod.fst) ∧ ForallMembers p q ms))

/-- The items of a sequence. -/
def decForallItems (p : Scalar → Prop) (q : List Scalar → Prop) [DecidablePred p]
    [DecidablePred q] : (xs : List Document) → Decidable (ForallItems p q xs)
  | [] => .isTrue trivial
  | x :: xs =>
    have := decForall p q x
    have := decForallItems p q xs
    inferInstanceAs (Decidable (Forall p q x ∧ ForallItems p q xs))

/-- The values of a mapping. -/
def decForallMembers (p : Scalar → Prop) (q : List Scalar → Prop) [DecidablePred p]
    [DecidablePred q] : (ms : List (Scalar × Document)) → Decidable (ForallMembers p q ms)
  | [] => .isTrue trivial
  | (_, v) :: ms =>
    have := decForall p q v
    have := decForallMembers p q ms
    inferInstanceAs (Decidable (Forall p q v ∧ ForallMembers p q ms))

end

theorem forallMembers_iff {ms : List (Scalar × Document)} :
    ForallMembers p q ms ↔ ∀ m ∈ ms, Forall p q m.2 := by
  induction ms with
  | nil => simp [ForallMembers]
  | cons m ms ih => rw [ForallMembers, ih, List.forall_mem_cons]

/-- **What holds of every part** holds of every part of a member. -/
theorem Forall.getItem {d v : Document} {key : String} (hd : Forall p q d)
    (h : d.getItem key = .ok v) : Forall p q v := by
  obtain ⟨ms, rfl, hmem⟩ := exists_mem_of_getItem h
  exact forallMembers_iff.1 hd.2 _ hmem

/-- The same for a member that may be missing. -/
theorem Forall.get {d v : Document} {key : String} (hd : Forall p q d) (hnull : p .null)
    (h : d.get key = .ok v) : Forall p q v := by
  by_cases hv : v = null
  · rw [hv]
    exact hnull
  · exact hd.getItem (getItem_of_get h hv)

end Forall

/-- Keys that can be sorted and written. -/
def Keys (ks : List Scalar) : Prop :=
  ks.Pairwise (fun k k' ↦ k.kind = k'.kind) ∧ ∀ k ∈ ks, k.Plain

instance : DecidablePred Keys := fun ks ↦
  inferInstanceAs (Decidable (ks.Pairwise (fun k k' ↦ k.kind = k'.kind) ∧ ∀ k ∈ ks, k.Plain))

/-- **A document that can be written**: no date and no half of a surrogate pair is in it, and the
keys of each of its mappings are of one kind. -/
def Writable (d : Document) : Prop :=
  d.Forall Scalar.Plain Keys

instance : DecidablePred Writable := fun d ↦ decForall _ _ d

/-! ### Writable documents -/

@[simp]
theorem writable_str {s : PyStr} : Writable (.str s) ↔ s.Clean :=
  Iff.rfl

@[simp]
theorem writable_lit (s : String) : Writable (.lit s) :=
  PyStr.clean_lit s

@[simp]
theorem writable_null : Writable null :=
  trivial

@[simp]
theorem writable_bool (b : Bool) : Writable (.scalar (.bool b)) :=
  trivial

/-- A list is writable if its items are. -/
theorem writable_seq {xs : List Document} : Writable (.seq xs) ↔ ∀ x ∈ xs, Writable x := by
  show ForallItems Scalar.Plain Keys xs ↔ _
  induction xs with
  | nil => simp [ForallItems]
  | cons x xs ih =>
    rw [ForallItems, ih, List.forall_mem_cons]
    rfl

/-- Literals can be sorted and written. -/
theorem keys_map_lit (ss : List String) : Keys (ss.map Scalar.lit) := by
  constructor
  · exact List.pairwise_map.2 (List.pairwise_of_forall fun _ _ ↦ rfl)
  · intro k hk
    obtain ⟨s, -, rfl⟩ := List.mem_map.1 hk
    exact PyStr.clean_lit s

/-- What a writable document is printed as can be encoded. -/
theorem Writable.clean_toStr {d : Document} (h : Writable d) (db : UnicodeDb) :
    (d.toStr db).Clean := by
  cases d with
  | scalar s =>
    cases s with
    | str s => exact h
    | _ => exact PyStr.clean_ofStr _
  | seq xs => exact PyStr.clean_ofStr _
  | map ms => exact PyStr.clean_ofStr _

/-! ### Which documents have a text -/

section

variable {floatValue : PyFloat → FloatValue}

theorem memberText_clean_iff {m : Scalar × Except BuiltinError PyStr} :
    (∃ t, memberText m = .ok t ∧ t.Clean) ↔ m.1.Plain ∧ ∃ t, m.2 = .ok t ∧ t.Clean := by
  have hcolon : (PyChar.char ':').IsChar := trivial
  rw [← Scalar.keyText_clean_iff]
  constructor
  · rintro ⟨t, h, hclean⟩
    obtain ⟨key, hkey, h⟩ := exists_of_bind_eq_ok h
    obtain ⟨text, htext, h⟩ := exists_of_bind_eq_ok h
    obtain rfl := Except.ok.inj h
    rw [PyStr.clean_append, PyStr.clean_quoted, PyStr.clean_cons] at hclean
    exact ⟨⟨key, hkey, hclean.1⟩, text, htext, hclean.2.2⟩
  · rintro ⟨⟨key, hkey, hkeyClean⟩, text, htext, htextClean⟩
    refine ⟨key.quoted ++ .char ':' :: text, by rw [memberText, hkey, htext]; rfl, ?_⟩
    rw [PyStr.clean_append, PyStr.clean_quoted, PyStr.clean_cons]
    exact ⟨hkeyClean, hcolon, htextClean⟩

theorem clean_enclosed {left right : Char} {ts : List PyStr} :
    (enclosed left right ts).Clean ↔ ∀ t ∈ ts, t.Clean := by
  rw [enclosed, PyStr.clean_cons, PyStr.clean_append, PyStr.clean_intercalate]
  simp [PyStr.Clean, PyChar.IsChar]

/-- The members of a mapping can be written if its keys and its values can. -/
theorem forall_memberText_clean {ms : List (Scalar × Document)} :
    (∀ m ∈ c14nMembers floatValue ms, ∃ t, memberText m = .ok t ∧ t.Clean) ↔
      (∀ k ∈ ms.map Prod.fst, k.Plain) ∧
        ∀ m ∈ ms, ∃ t, c14n floatValue m.2 = .ok t ∧ t.Clean := by
  induction ms with
  | nil => simp [c14nMembers]
  | cons m ms ih =>
    rw [c14nMembers, List.forall_mem_cons, ih, memberText_clean_iff, List.map_cons,
      List.forall_mem_cons, List.forall_mem_cons]
    exact and_and_and_comm

mutual

/-- **A document has a text that can be encoded** if and only if it is writable. -/
theorem c14n_clean_iff : ∀ d : Document,
    (∃ t, c14n floatValue d = .ok t ∧ t.Clean) ↔ Writable d
  | .scalar s => Scalar.c14n_clean_iff
  | .seq xs => by
    refine Iff.trans ?_ (c14nItems_clean_iff xs)
    constructor
    · rintro ⟨t, h, hclean⟩
      obtain ⟨ts, hts, h⟩ := exists_of_bind_eq_ok h
      obtain rfl := Except.ok.inj h
      exact ⟨ts, hts, clean_enclosed.1 hclean⟩
    · rintro ⟨ts, hts, hclean⟩
      exact ⟨enclosed '[' ']' ts, by rw [c14n, hts]; rfl, clean_enclosed.2 hclean⟩
  | .map ms => by
    -- the order of the members does not matter
    have hsort : (∀ m ∈ (c14nMembers floatValue ms).insertionSort fun m n ↦
        m.1.le floatValue n.1 = true, ∃ t, memberText m = .ok t ∧ t.Clean) ↔
        (∀ k ∈ ms.map Prod.fst, k.Plain) ∧ ForallMembers Scalar.Plain Keys ms := by
      simp only [List.mem_insertionSort]
      rw [forall_memberText_clean, c14nMembers_clean_iff ms]
    constructor
    · rintro ⟨t, h, hclean⟩
      obtain ⟨⟨⟩, hkeys, h⟩ := exists_of_bind_eq_ok h
      obtain ⟨ts, hts, h⟩ := exists_of_bind_eq_ok h
      obtain rfl := Except.ok.inj h
      obtain ⟨hplain, hvalues⟩ := hsort.1 fun m hm ↦ by
        obtain ⟨t, ht, hmt⟩ := (exists_of_forall₂ (mapM_eq_ok_iff.1 hts)).2 m hm
        exact ⟨t, hmt, clean_enclosed.1 hclean t ht⟩
      exact ⟨⟨(checkSort_eq_ok_iff.1 hkeys).imp Scalar.clash_eq_none_iff.1, hplain⟩, hvalues⟩
    · rintro ⟨⟨hkinds, hplain⟩, hvalues⟩
      obtain ⟨ts, hts⟩ := exists_forall₂ (hsort.2 ⟨hplain, hvalues⟩)
      have hclean : ∀ t ∈ ts, t.Clean := by
        intro t ht
        obtain ⟨m, -, -, hmt⟩ := (exists_of_forall₂ hts).1 t ht
        exact hmt
      refine ⟨enclosed '\x7b' '\x7d' ts, ?_, clean_enclosed.2 hclean⟩
      rw [c14n, checkSort_eq_ok_iff.2 (hkinds.imp Scalar.clash_eq_none_iff.2)]
      show Except.bind (List.mapM memberText _) _ = _
      rw [mapM_eq_ok_iff.2 (hts.imp fun _ _ ↦ And.left)]
      rfl

theorem c14nItems_clean_iff : ∀ xs : List Document,
    (∃ ts, c14nItems floatValue xs = .ok ts ∧ ∀ t ∈ ts, t.Clean) ↔
      ForallItems Scalar.Plain Keys xs
  | [] => iff_of_true ⟨[], rfl, fun _ h ↦ absurd h List.not_mem_nil⟩ trivial
  | x :: xs => by
    rw [ForallItems]
    constructor
    · rintro ⟨_, h, hclean⟩
      obtain ⟨t, ht, h⟩ := exists_of_bind_eq_ok h
      obtain ⟨ts, hts, h⟩ := exists_of_bind_eq_ok h
      obtain rfl := Except.ok.inj h
      obtain ⟨hx, hxs⟩ := List.forall_mem_cons.1 hclean
      exact ⟨(c14n_clean_iff x).1 ⟨t, ht, hx⟩, (c14nItems_clean_iff xs).1 ⟨ts, hts, hxs⟩⟩
    · rintro ⟨hx, hxs⟩
      obtain ⟨t, ht, htClean⟩ := (c14n_clean_iff x).2 hx
      obtain ⟨ts, hts, htsClean⟩ := (c14nItems_clean_iff xs).2 hxs
      exact ⟨t :: ts, by rw [c14nItems, ht, hts]; rfl, List.forall_mem_cons.2 ⟨htClean, htsClean⟩⟩

theorem c14nMembers_clean_iff : ∀ ms : List (Scalar × Document),
    (∀ m ∈ ms, ∃ t, c14n floatValue m.2 = .ok t ∧ t.Clean) ↔
      ForallMembers Scalar.Plain Keys ms
  | [] => iff_of_true (fun _ h ↦ absurd h List.not_mem_nil) trivial
  | (k, v) :: ms => by
    rw [List.forall_mem_cons, ForallMembers]
    exact and_congr (c14n_clean_iff v) (c14nMembers_clean_iff ms)

end

/-- **Exactly the writable documents have canonical bytes.** -/
theorem canonicalBytes_ok_iff {d : Document} :
    (∃ bs, canonicalBytes floatValue d = .ok bs) ↔ Writable d := by
  rw [← @c14n_clean_iff floatValue d]
  constructor
  · rintro ⟨bs, h⟩
    obtain ⟨t, ht, h⟩ := exists_of_bind_eq_ok h
    exact ⟨t, ht, PyStr.encode_ok_iff.1 ⟨bs, h⟩⟩
  · rintro ⟨t, ht, hclean⟩
    obtain ⟨bs, hbs⟩ := PyStr.encode_ok_iff.2 hclean
    exact ⟨bs, by rw [canonicalBytes, ht]; exact hbs⟩

end

end Document

end SourceOS
