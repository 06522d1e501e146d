import SourceOS.Foundation.CanonicalText
import SourceOS.Foundation.DocumentText

/-!
# Documents that are JSON

A value of JSON is a document: its strings have no halves of surrogate pairs in them, and the keys
of its objects are strings (`ofJson`). A document is one of these if and only if that can be said of
every part of it, and if it has no dates in it and no floating-point numbers (`IsJson`,
`exists_ofJson`).

The canonical text of such a document is the canonical text of the value (`canonicalBytes_ofJson`),
so all that is known of the one holds of the other: it determines a mapping up to the order of
members (`sameJson_of_canonicalBytes`). `SameJson` is that relation; it has the same members under
the same keys, and setting one of them keeps it.
-/

namespace SourceOS

namespace PyStr

theorem encode_ofStr (s : Str) : encode (ofStr s) = .ok (Json.utf8 s) := by
  rw [encode, if_pos (clean_ofStr s), chars_ofStr]

theorem quoted_ofStr (s : Str) : quoted (ofStr s) = ofStr (Json.c14nStr s) := by
  have hflat : (ofStr s).flatMap c14nChar = ofStr (s.flatMap Json.c14nChar) := by
    induction s with
    | nil => rfl
    | cons c s ih =>
      rw [List.flatMap_cons, ofStr_append, ← ih]
      rfl
  rw [quoted, hflat, Json.c14nStr]
  show _ = .char '"' :: ofStr (_ ++ ['"'])
  rw [ofStr_append]
  rfl

/-- A map that keeps the strict order of items keeps that of lists. -/
theorem strictMono_map {α β : Type} [LinearOrder α] [LinearOrder β] {f : α → β}
    (hf : StrictMono f) : StrictMono (List.map f) := by
  intro s t h
  have hlex : List.Lex (· < ·) s t := h
  show List.Lex (· < ·) (s.map f) (t.map f)
  induction hlex with
  | nil => exact .nil
  | cons _ ih => exact .cons (ih ‹_›)
  | rel hlt => exact .rel (hf hlt)

/-- Texts are ordered as their code points are. -/
theorem codePoints_le_iff {s t : Str} :
    (ofStr s).map PyChar.codePoint ≤ (ofStr t).map PyChar.codePoint ↔ s ≤ t := by
  have hmap : ∀ s : Str, (ofStr s).map PyChar.codePoint = s.map Char.toNat := fun s ↦
    List.map_map
  rw [hmap, hmap]
  have hmono : StrictMono Char.toNat := fun _ _ h ↦ h
  exact (strictMono_map hmono).le_iff_le

end PyStr

/-! ### Which documents are JSON -/

/-- A scalar that JSON has, and no floating-point number. -/
def Scalar.IsJson : Scalar → Prop
  | .str s => s.Clean
  | .float _ => False
  | .date _ => False
  | .null | .bool _ | .int _ => True

instance : DecidablePred Scalar.IsJson
  | .str s => inferInstanceAs (Decidable s.Clean)
  | .float _ | .date _ => .isFalse id
  | .null | .bool _ | .int _ => .isTrue trivial

/-- A key that an object of JSON can have. -/
def Scalar.IsName : Scalar → Prop
  | .str s => s.Clean
  | _ => False

instance : DecidablePred Scalar.IsName
  | .str s => inferInstanceAs (Decidable s.Clean)
  | .null | .bool _ | .int _ | .float _ | .date _ => .isFalse id

theorem Scalar.exists_of_isName {s : Scalar} (h : s.IsName) : ∃ k, s = .str (.ofStr k) := by
  rcases s with _ | _ | _ | _ | s | _
  case str => exact ⟨s.chars, by rw [PyStr.ofStr_chars h]⟩
  all_goals exact h.elim

namespace Document

/-- The keys of an object of JSON. -/
def Names (ks : List Scalar) : Prop :=
  ks.Nodup ∧ ∀ k ∈ ks, k.IsName

instance : DecidablePred Names := fun ks ↦
  inferInstanceAs (Decidable (ks.Nodup ∧ ∀ k ∈ ks, k.IsName))

/-- The document is a value of JSON without floating-point numbers. -/
def IsJson (d : Document) : Prop :=
  d.Forall Scalar.IsJson Names

instance : DecidablePred IsJson := fun d ↦ decForall _ _ d

mutual

/-- A value of JSON as a document. -/
def ofJson : Json → Document
  | .null => null
  | .bool b => .scalar (.bool b)
  | .int n => .scalar (.int n)
  | .float x => .scalar (.float x)
  | .str s => .str (.ofStr s)
  | .arr xs => .seq (ofJsonItems xs)
  | .obj ms => .map (ofJsonMembers ms)

@[inherit_doc ofJson]
def ofJsonItems : List Json → List Document
  | [] => []
  | x :: xs => ofJson x :: ofJsonItems xs

@[inherit_doc ofJson]
def ofJsonMembers : List (Str × Json) → List (Scalar × Document)
  | [] => []
  | (k, v) :: ms => (.str (.ofStr k), ofJson v) :: ofJsonMembers ms

end

theorem ofJsonMembers_eq_map (ms : List (Str × Json)) :
    ofJsonMembers ms = ms.map fun m ↦ (.str (.ofStr m.1), ofJson m.2) := by
  induction ms with
  | nil => rfl
  | cons m ms ih => rw [ofJsonMembers, ih, List.map_cons]

theorem map_fst_ofJsonMembers (ms : List (Str × Json)) :
    (ofJsonMembers ms).map Prod.fst = ms.map fun m ↦ .str (.ofStr m.1) := by
  rw [ofJsonMembers_eq_map, List.map_map]
  rfl

/-- Distinct names are distinct as keys. -/
theorem nodup_ofJsonMembers {ms : List (Str × Json)}
    (h : ((ofJsonMembers ms).map Prod.fst).Nodup) : (ms.map Prod.fst).Nodup := by
  have hkeys : (ofJsonMembers ms).map Prod.fst =
      (ms.map Prod.fst).map fun k ↦ Scalar.str (.ofStr k) := by
    rw [map_fst_ofJsonMembers, List.map_map]
    rfl
  rw [hkeys] at h
  exact h.of_map _

mutual

/-- **A document that is JSON** is a value with distinct keys. -/
theorem exists_ofJson : ∀ {d : Document}, IsJson d → ∃ j, Json.Plain j ∧ ofJson j = d
  | .scalar .null, _ => ⟨.null, trivial, rfl⟩
  | .scalar (.bool b), _ => ⟨.bool b, trivial, rfl⟩
  | .scalar (.int n), _ => ⟨.int n, trivial, rfl⟩
  | .scalar (.str s), h => ⟨.str s.chars, trivial, congrArg Document.str (PyStr.ofStr_chars h)⟩
  | .scalar (.float _), h => h.elim
  | .scalar (.date _), h => h.elim
  | .seq xs, h => by
    obtain ⟨js, hjs, rfl⟩ := @exists_ofJsonItems xs h
    exact ⟨.arr js, hjs, rfl⟩
  | .map ms, h => by
    obtain ⟨js, hjs, rfl⟩ := @exists_ofJsonMembers ms h.1.2 h.2
    exact ⟨.obj js, ⟨nodup_ofJsonMembers h.1.1, hjs⟩, rfl⟩

theorem exists_ofJsonItems : ∀ {xs : List Document}, ForallItems Scalar.IsJson Names xs →
    ∃ js, Json.PlainItems js ∧ ofJsonItems js = xs
  | [], _ => ⟨[], trivial, rfl⟩
  | _ :: _, h => by
    obtain ⟨j, hj, rfl⟩ := exists_ofJson h.1
    obtain ⟨js, hjs, rfl⟩ := exists_ofJsonItems h.2
    exact ⟨j :: js, ⟨hj, hjs⟩, rfl⟩

theorem exists_ofJsonMembers : ∀ {ms : List (Scalar × Document)},
    (∀ k ∈ ms.map Prod.fst, k.IsName) → ForallMembers Scalar.IsJson Names ms →
      ∃ js, Json.PlainMembers js ∧ ofJsonMembers js = ms
  | [], _, _ => ⟨[], trivial, rfl⟩
  | (_, _) :: _, hkeys, h => by
    obtain ⟨hkey, hkeys⟩ := List.forall_mem_cons.1 hkeys
    obtain ⟨k, hk⟩ := Scalar.exists_of_isName hkey
    obtain ⟨j, hj, hv⟩ := exists_ofJson h.1
    obtain ⟨js, hjs, hms⟩ := exists_ofJsonMembers hkeys h.2
    exact ⟨(k, j) :: js, ⟨hj, hjs⟩, congrArg₂ List.cons (Prod.ext hk.symm hv) hms⟩

end

mutual

/-- A value of JSON is a document that is one. -/
theorem isJson_ofJson : ∀ {j : Json}, Json.Plain j → IsJson (ofJson j)
  | .null, _ | .bool _, _ | .int _, _ => trivial
  | .float _, h => h
  | .str s, _ => PyStr.clean_ofStr s
  | .arr _, h => isJson_ofJsonItems h
  | .obj ms, h => by
    refine ⟨⟨?_, ?_⟩, isJson_ofJsonMembers h.2⟩
    · have hinj : Function.Injective fun k : Str ↦ Scalar.str (.ofStr k) := fun k l hkl ↦
        PyStr.ofStr_injective (Scalar.str.inj hkl)
      have hkeys := h.1.map hinj
      rw [List.map_map] at hkeys
      rw [map_fst_ofJsonMembers]
      exact hkeys
    · rw [map_fst_ofJsonMembers]
      intro k hk
      obtain ⟨m, -, rfl⟩ := List.mem_map.1 hk
      exact PyStr.clean_ofStr m.1

theorem isJson_ofJsonItems : ∀ {xs : List Json}, Json.PlainItems xs →
    ForallItems Scalar.IsJson Names (ofJsonItems xs)
  | [], _ => trivial
  | _ :: _, h => ⟨isJson_ofJson h.1, isJson_ofJsonItems h.2⟩

theorem isJson_ofJsonMembers : ∀ {ms : List (Str × Json)}, Json.PlainMembers ms →
    ForallMembers Scalar.IsJson Names (ofJsonMembers ms)
  | [], _ => trivial
  | (_, _) :: _, h => ⟨isJson_ofJson h.1, isJson_ofJsonMembers h.2⟩

end

/-! ### Parts -/

@[simp]
theorem isJson_str {s : PyStr} : IsJson (.str s) ↔ s.Clean :=
  Iff.rfl

@[simp]
theorem isJson_lit (s : String) : IsJson (.lit s) :=
  PyStr.clean_lit s

@[simp]
theorem isJson_null : IsJson null :=
  trivial

@[simp]
theorem isJson_bool (b : Bool) : IsJson (.scalar (.bool b)) :=
  trivial

/-- Distinct literals are names. -/
theorem names_map_lit {ss : List String} (h : ss.Nodup) : Names (ss.map Scalar.lit) := by
  have hinj : Function.Injective Scalar.lit := fun _ _ heq ↦
    String.toList_injective (PyStr.ofStr_injective (Scalar.str.inj heq))
  refine ⟨h.map hinj, fun k hk ↦ ?_⟩
  obtain ⟨s, -, rfl⟩ := List.mem_map.1 hk
  exact PyStr.clean_lit s

/-- The value under a key. -/
theorem lookup_ofJsonMembers (ms : List (Str × Json)) (key : Str) :
    (ofJsonMembers ms).lookup (.str (.ofStr key)) = (ms.lookup key).map ofJson := by
  induction ms with
  | nil => rfl
  | cons m ms ih =>
    rw [ofJsonMembers, List.lookup_cons, List.lookup_cons, ih]
    by_cases hkey : key = m.1
    · rw [hkey, beq_self_eq_true, beq_self_eq_true]
      rfl
    · have hscalar : Scalar.str (.ofStr key) ≠ Scalar.str (.ofStr m.1) := fun h ↦
        hkey (PyStr.ofStr_injective (Scalar.str.inj h))
      rw [beq_eq_false_iff_ne.2 hkey, beq_eq_false_iff_ne.2 hscalar]

/-! ### The canonical text -/

section

variable {floatValue : PyFloat → FloatValue}

/-- Names are ordered as texts are. -/
theorem le_names {s t : Str} :
    Scalar.le floatValue (.str (.ofStr s)) (.str (.ofStr t)) = true ↔ s ≤ t :=
  decide_eq_true_iff.trans PyStr.codePoints_le_iff

/-- A member with the text of its value. -/
theorem memberText_ofStr (k t : Str) :
    memberText (.str (.ofStr k), .ok (PyStr.ofStr t)) =
      .ok (PyStr.ofStr (Json.c14nStr k ++ ':' :: t)) := by
  show Except.ok ((PyStr.ofStr k).quoted ++ .char ':' :: PyStr.ofStr t) = _
  rw [PyStr.quoted_ofStr, PyStr.ofStr_append]
  rfl

mutual

/-- **The canonical text of a value**, read as a document, is its canonical text. -/
theorem c14n_ofJson : ∀ j : Json, c14n floatValue (ofJson j) = .ok (PyStr.ofStr (Json.c14n j))
  | .null | .bool true | .bool false | .int _ | .float _ => rfl
  | .str s => congrArg Except.ok (PyStr.quoted_ofStr s)
  | .arr xs => by
    show (c14nItems floatValue (ofJsonItems xs)).bind _ = _
    rw [c14nItems_ofJson xs]
    show Except.ok (enclosed '[' ']' _) = .ok (PyStr.ofStr ('[' :: (_ ++ [']'])))
    rw [enclosed, ← PyStr.ofStr_intercalate]
    show _ = Except.ok (.char '[' :: PyStr.ofStr (_ ++ [']']))
    rw [PyStr.ofStr_append]
    rfl
  | .obj ms => by
    have hkinds : checkSort Scalar.clash ((ofJsonMembers ms).map Prod.fst) = .ok () := by
      rw [checkSort_eq_ok_iff, map_fst_ofJsonMembers]
      exact List.pairwise_map.2 (List.pairwise_of_forall fun _ _ ↦ if_pos rfl)
    have hsort := List.map_insertionSort (r := Json.ByKey)
      (s := fun m n : Scalar × Except BuiltinError PyStr ↦ m.1.le floatValue n.1 = true)
      (fun m : Str × Str ↦ (Scalar.str (.ofStr m.1), Except.ok (PyStr.ofStr m.2)))
      (Json.c14nMembers ms) fun _ _ _ _ ↦ le_names.symm
    have htexts : ∀ ns : List (Str × Str),
        (ns.map fun m ↦ (Scalar.str (.ofStr m.1),
          (Except.ok (PyStr.ofStr m.2) : Except BuiltinError PyStr))).mapM memberText =
        .ok ((ns.map fun m ↦ Json.c14nStr m.1 ++ ':' :: m.2).map PyStr.ofStr) := by
      intro ns
      refine mapM_eq_ok_iff.2 ?_
      rw [List.map_map, List.forall₂_map_left_iff, List.forall₂_map_right_iff, List.forall₂_same]
      exact fun m _ ↦ memberText_ofStr m.1 m.2
    show Except.bind (checkSort Scalar.clash ((ofJsonMembers ms).map Prod.fst)) _ = _
    rw [hkinds, c14nMembers_ofJson ms, ← hsort]
    show Except.bind (List.mapM memberText _) _ = _
    rw [htexts]
    show Except.ok (enclosed '\x7b' '\x7d' _) = .ok (PyStr.ofStr ('\x7b' :: (_ ++ ['\x7d'])))
    rw [enclosed, ← PyStr.ofStr_intercalate]
    show _ = Except.ok (.char '\x7b' :: PyStr.ofStr (_ ++ ['\x7d']))
    rw [PyStr.ofStr_append]
    rfl

theorem c14nItems_ofJson : ∀ xs : List Json,
    c14nItems floatValue (ofJsonItems xs) = .ok ((Json.c14nItems xs).map PyStr.ofStr)
  | [] => rfl
  | x :: xs => by
    show (c14n floatValue (ofJson x)).bind _ = _
    rw [c14n_ofJson x]
    show (c14nItems floatValue (ofJsonItems xs)).bind _ = _
    rw [c14nItems_ofJson xs]
    rfl

theorem c14nMembers_ofJson : ∀ ms : List (Str × Json),
    c14nMembers floatValue (ofJsonMembers ms) =
      (Json.c14nMembers ms).map fun m ↦ (.str (.ofStr m.1), .ok (PyStr.ofStr m.2))
  | [] => rfl
  | (k, v) :: ms => by
    rw [ofJsonMembers, c14nMembers, c14n_ofJson v, c14nMembers_ofJson ms, Json.c14nMembers,
      List.map_cons]

end

/-- **The bytes that are hashed** of a value, read as a document, are those of its canonical
text. -/
theorem canonicalBytes_ofJson (j : Json) :
    canonicalBytes floatValue (ofJson j) = .ok (Json.utf8 (Json.c14n j)) := by
  rw [canonicalBytes, c14n_ofJson]
  exact PyStr.encode_ofStr _

end

/-! ### Documents that are the same value -/

/-- `d[key] = v`, on a mapping. -/
def set (d : Document) (key : String) (v : Document) : Document :=
  match d with
  | .map ms =>
    .map (if .lit key ∈ ms.map Prod.fst
      then ms.map fun m ↦ if m.1 = .lit key then (.lit key, v) else m
      else ms ++ [(.lit key, v)])
  | d => d

/-- Two documents are the same value of JSON, with the members of objects in any order. -/
def SameJson (d e : Document) : Prop :=
  ∃ j k, Json.Plain j ∧ Json.Plain k ∧ ofJson j = d ∧ ofJson k = e ∧ Json.Same j k

theorem sameJson_refl {d : Document} (h : IsJson d) : SameJson d d := by
  obtain ⟨j, hj, rfl⟩ := exists_ofJson h
  exact ⟨j, j, hj, hj, rfl, rfl, .refl j⟩

theorem SameJson.symm {d e : Document} (h : SameJson d e) : SameJson e d := by
  obtain ⟨j, k, hj, hk, rfl, rfl, hsame⟩ := h
  exact ⟨k, j, hk, hj, rfl, rfl, hsame.symm⟩

/-- A value with its keys in order is the same. -/
theorem sameJson_sortKeys {j : Json} (h : Json.Plain j) :
    SameJson (ofJson (Json.sortKeys j)) (ofJson j) :=
  ⟨_, _, Json.plain_sortKeys h, h, rfl, rfl, Json.same_sortKeys j⟩

/-- A string is the same only as itself. -/
theorem SameJson.eq_str {s : PyStr} {e : Document} (h : SameJson (.str s) e) : e = .str s := by
  obtain ⟨j, k, -, -, hj, rfl, hsame⟩ := h
  rcases j with _ | _ | _ | _ | t | _ | _
  case str =>
    rcases k with _ | _ | _ | _ | t' | _ | _
    case str =>
      obtain rfl : t = t' := Json.str.inj hsame
      exact hj
    all_goals cases hsame
  all_goals cases hj

theorem SameJson.eq_null {e : Document} (h : SameJson null e) : e = null := by
  obtain ⟨j, k, -, -, hj, rfl, hsame⟩ := h
  rcases j with _ | _ | _ | _ | _ | _ | _
  case null =>
    rcases k with _ | _ | _ | _ | _ | _ | _
    case null => rfl
    all_goals cases hsame
  all_goals cases hj

/-- A mapping is an object. -/
theorem eq_obj_of_ofJson {j : Json} {ms : List (Scalar × Document)} (h : ofJson j = .map ms) :
    ∃ os, j = .obj os ∧ ofJsonMembers os = ms := by
  rcases j with _ | _ | _ | _ | _ | _ | os
  case obj => exact ⟨os, rfl, Document.map.inj h⟩
  all_goals cases h

/-- The same value has the same members. -/
theorem SameJson.getItem {d e v : Document} {key : String} (h : SameJson d e)
    (hv : d.getItem key = .ok v) : ∃ w, e.getItem key = .ok w ∧ SameJson v w := by
  obtain ⟨j, k, hj, hk, rfl, rfl, hsame⟩ := h
  obtain ⟨ms, hms, hlookup⟩ := exists_lookup_of_getItem hv
  obtain ⟨os, rfl, rfl⟩ := eq_obj_of_ofJson hms
  rcases k with _ | _ | _ | _ | _ | _ | ps
  case obj =>
    have hmembers := hsame.lookup hj.1 hk.1 key.toList
    show ∃ w, (Document.map (ofJsonMembers ps)).getItem key = .ok w ∧ _
    rw [Scalar.lit, PyStr.lit, lookup_ofJsonMembers] at hlookup
    obtain ⟨x, hx, rfl⟩ := Option.map_eq_some_iff.1 hlookup
    rw [hx] at hmembers
    obtain ⟨y, hy, hxy⟩ := Option.map_eq_some_iff.1 hmembers.symm
    have hfound : (ofJsonMembers ps).lookup (.lit key) = some (ofJson y) := by
      rw [Scalar.lit, PyStr.lit, lookup_ofJsonMembers, hy]
      rfl
    have hplain : ∀ {os : List (Str × Json)} {x : Json}, Json.Plain (.obj os) →
        os.lookup key.toList = some x → Json.Plain x := fun hos hx ↦
      Json.plainMembers_iff.1 hos.2 _ ((Json.lookup_eq_some_iff hos.1).1 hx)
    exact ⟨ofJson y, by rw [Document.getItem, hfound],
      x, y, hplain hj hx, hplain hk hy, rfl, rfl, hxy.symm⟩
  all_goals cases hsame

/-- A member that is set in the value. -/
theorem ofJson_insertMember (ms : List (Str × Json)) (key : String) (v : Json) :
    ofJson (.obj (Json.insertMember ms (key.toList, v))) =
      (ofJson (.obj ms)).set key (ofJson v) := by
  have hkey : ∀ k : Str, Scalar.str (.ofStr k) = Scalar.lit key ↔ k = key.toList := fun k ↦
    ⟨fun h ↦ PyStr.ofStr_injective (Scalar.str.inj h), fun h ↦ by rw [h]; rfl⟩
  have hmem : key.toList ∈ ms.map Prod.fst ↔ .lit key ∈ (ofJsonMembers ms).map Prod.fst := by
    rw [map_fst_ofJsonMembers, List.mem_map, List.mem_map]
    exact exists_congr fun m ↦ and_congr_right fun _ ↦ (hkey m.1).symm
  show Document.map (ofJsonMembers _) = Document.map _
  rw [Json.insertMember]
  split
  case isTrue h =>
    rw [if_pos (hmem.1 h), ofJsonMembers_eq_map, ofJsonMembers_eq_map, List.map_map, List.map_map]
    refine congrArg Document.map (List.map_congr_left fun m _ ↦ ?_)
    by_cases hm : m.1 = key.toList
    · simp [hm, Scalar.lit, PyStr.lit]
    · have hm' : Scalar.str (.ofStr m.1) ≠ Scalar.lit key := fun h ↦ hm ((hkey _).1 h)
      simp [hm, hm']
  case isFalse h =>
    rw [if_neg fun h' ↦ h (hmem.2 h'), ofJsonMembers_eq_map, ofJsonMembers_eq_map,
      List.map_append]
    rfl

/-- Setting a member keeps a mapping one. -/
theorem IsMap.set {d : Document} (h : d.IsMap) (key : String) (v : Document) :
    (d.set key v).IsMap := by
  cases d with
  | map ms => trivial
  | seq xs => exact h.elim
  | scalar s => exact h.elim

/-- What is set in the same value leaves the same value. -/
theorem SameJson.set {d e : Document} (h : SameJson d e) (hd : d.IsMap) (key : String)
    {v : Document} (hv : IsJson v) : SameJson (d.set key v) (e.set key v) := by
  obtain ⟨j, k, hj, hk, rfl, rfl, hsame⟩ := h
  obtain ⟨x, hx, rfl⟩ := exists_ofJson hv
  obtain ⟨ms, rfl⟩ : ∃ ms, j = .obj ms := by
    cases j <;> first | exact ⟨_, rfl⟩ | exact hd.elim
  obtain ⟨ns, rfl⟩ : ∃ ns, k = .obj ns := by
    cases k <;> first | exact ⟨_, rfl⟩ | cases hsame
  rw [← ofJson_insertMember, ← ofJson_insertMember]
  exact ⟨_, _, Json.plain_insertMember hj _ hx, Json.plain_insertMember hk _ hx, rfl, rfl,
    hsame.insertMember hj.1 _⟩

theorem IsJson.set {d v : Document} (hd : IsJson d) (hmap : d.IsMap) (key : String)
    (hv : IsJson v) : IsJson (d.set key v) := by
  obtain ⟨j, -, hj, -, hset, -⟩ := (sameJson_refl hd).set hmap key hv
  rw [← hset]
  exact isJson_ofJson hj

/-- A member that is set and then set back. -/
theorem set_set_of_getItem {d v : Document} {key : String} (hd : IsJson d)
    (h : d.getItem key = .ok v) (w : Document) : (d.set key w).set key v = d := by
  obtain ⟨ms, rfl, hlookup⟩ := exists_lookup_of_getItem h
  have hmem : .lit key ∈ ms.map Prod.fst := by
    obtain ⟨l₁, l₂, rfl, -⟩ := List.lookup_eq_some_iff.1 hlookup
    simp
  have hkeys : (ms.map fun m ↦ if m.1 = .lit key then (.lit key, w) else m).map Prod.fst =
      ms.map Prod.fst := by
    rw [List.map_map]
    refine List.map_congr_left fun m _ ↦ ?_
    by_cases hm : m.1 = .lit key
    · simp [hm]
    · simp [hm]
  rw [set, if_pos hmem, set, if_pos (by rw [hkeys]; exact hmem), List.map_map]
  refine congrArg Document.map ((List.map_congr_left fun m hm ↦ ?_).trans (List.map_id ms))
  by_cases hk : m.1 = .lit key
  · have hv : ms.lookup (.lit key) = some m.2 := (lookup_eq_some_iff_mem hd.1.1).2 (hk ▸ hm)
    rw [hlookup] at hv
    simp only [Function.comp_apply, hk, if_true, id_eq]
    exact Prod.ext hk.symm (Option.some.inj hv)
  · simp [hk]

section

variable {floatValue floatValue' : PyFloat → FloatValue}

/-- The same value has the same bytes. -/
theorem SameJson.canonicalBytes_eq {d e : Document} (h : SameJson d e) :
    canonicalBytes floatValue d = canonicalBytes floatValue' e := by
  obtain ⟨j, k, -, -, rfl, rfl, hsame⟩ := h
  rw [canonicalBytes_ofJson, canonicalBytes_ofJson, hsame.c14n_eq]

/-- **The bytes that are hashed determine an object.** -/
theorem sameJson_of_canonicalBytes {d e : Document} (hd : IsJson d) (he : IsJson e)
    (hmap : d.IsMap) (hmap' : e.IsMap)
    (h : canonicalBytes floatValue d = canonicalBytes floatValue' e) : SameJson d e := by
  obtain ⟨j, hj, rfl⟩ := exists_ofJson hd
  obtain ⟨k, hk, rfl⟩ := exists_ofJson he
  obtain ⟨ms, rfl⟩ : ∃ ms, j = .obj ms := by
    cases j <;> first | exact ⟨_, rfl⟩ | exact hmap.elim
  obtain ⟨ns, rfl⟩ : ∃ ns, k = .obj ns := by
    cases k <;> first | exact ⟨_, rfl⟩ | exact hmap'.elim
  rw [canonicalBytes_ofJson, canonicalBytes_ofJson] at h
  have hbytes := congrArg (· ++ []) (Except.ok.inj h)
  exact ⟨_, _, hj, hk, rfl, rfl, ((Json.utf8_c14n_append_inj hj hk).1 hbytes).1⟩

end

end Document

end SourceOS
