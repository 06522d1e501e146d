import SourceOS.Gate.Firewall
import SourceOS.Gate.Nft

/-!
# Reading the allowlist sets back

The reading half of `nft.py`: `list_set`, which asks `nft -j` and falls back to the plain listing,
the tolerant walker over the JSON document, and `verify_sets`, which compares what is listed with
what is expected, as sets of texts.

Two layers. First the functions as the source has them, on any answers `nft` may give. Then what
they make of a *proper* answer (`IsListing`): a document that lists the elements of an interval set,
each in one of the shapes `nft` uses. A single value is read back as its text; everything else is an
object, and `str` of an object is a text that starts with a brace (`itemText_of_lists`). Such a text
is an address to `verify_sets` like any other, and no port to it at all.
-/

namespace SourceOS.Gate

open Text Net

variable (py : Runtime)

/-! ### `parse_nft_set_elements_json` -/

/-- `v.get("val")` if `v` is an object with that member, else `v`. -/
def unwrapVal (v : Json PyChar) : Json PyChar :=
  (v.get? "val".toList).getD v

/-- `str(v)`, unless `v` is `None`. -/
def textOf : Json PyChar → Option PyStr
  | .null => none
  | v => some (Python.str py.unicode v)

/-- The text of one item of a set's `elem` list. -/
def itemText (it : Json PyChar) : Option PyStr :=
  match it.get? "elem".toList with
  | some v => textOf py (unwrapVal v)
  | none => textOf py it

/-- The texts one entry of `nftables` contributes: the items of a `set`, and an `elem` of its
own. -/
def entryTexts (entry : Json PyChar) : List PyStr :=
  (match entry.get? "set".toList with
    | some (.obj s) =>
      match (Json.obj s).get? "elem".toList with
      | some (.arr raw) => raw.filterMap (itemText py)
      | _ => []
    | _ => []) ++
  match entry.get? "elem".toList with
  | some (.obj e) =>
    match (Json.obj e).get? "elem".toList with
    | some v => (textOf py (unwrapVal v)).toList
    | none => []
  | _ => []

/-- The error of `obj.get` on something that is not an object. -/
def noAttributeGet (obj : Json PyChar) : BuiltinError :=
  ⟨"AttributeError".toList, '\'' :: ((Python.typeName obj).toList ++
    "' object has no attribute 'get'".toList)⟩

/-- `parse_nft_set_elements_json`. -/
def parseNftSetElementsJson (obj : Json PyChar) : Except BuiltinError (Option (Finset PyStr)) :=
  match obj with
  | .obj ms =>
    match (Json.obj ms).get? "nftables".toList with
    | some (.arr nftables) => .ok <| some
        (((nftables.flatMap (entryTexts py)).filter fun e ↦ !PyStr.isBlank e).map
          PyStr.strip).toFinset
    | _ => .ok none
  | _ => .error (noAttributeGet obj)

/-! ### `list_set` -/

/-- A `CompletedProcess`. -/
structure Completed where
  returncode : ℤ
  stdout : Str

/-- What the two listing commands do for each set, or what running them raises. -/
structure ListEnv where
  /-- `nft -j list set …`. -/
  json : Str → Except BuiltinError Completed
  /-- `nft list set …`. -/
  text : Str → Except BuiltinError Completed

/-- `_list_set_json`. -/
def listSetJson (env : ListEnv) (set : Str) : Except Exc (Option (Finset PyStr)) :=
  match env.json set with
  | .error e => .error (.builtin e)
  | .ok res =>
    if res.returncode ≠ 0 then .ok none
    else
      match py.loads res.stdout with
      | none => .ok none
      | some obj =>
        match parseNftSetElementsJson py obj with
        | .error e => .error (.builtin e)
        | .ok r => .ok r

/-- `elements\s*=\s*\{(.*?)\}` at the start of a text: what stands between the braces. -/
def matchElements (s : Str) : Option Str :=
  if "elements".toList.isPrefixOf s then
    let s := (s.drop 8).dropWhile isSpace
    if s.head? = some '=' then
      let s := s.tail.dropWhile isSpace
      if s.head? = some '\x7b' ∧ '\x7d' ∈ s.tail then some (s.tail.takeWhile (· ≠ '\x7d')) else none
    else none
  else none

/-- `re.search`: the first place that matches. -/
def searchElements : Str → Option Str
  | [] => matchElements []
  | c :: s =>
    match matchElements (c :: s) with
    | some inside => some inside
    | none => searchElements s

/-- `_list_set_text`. -/
def listSetText (env : ListEnv) (set : Str) : Except Exc (Finset PyStr) :=
  match env.text set with
  | .error e => .error (.builtin e)
  | .ok res =>
    if res.returncode ≠ 0 then .error (.nft ("cannot list set ".toList ++ set))
    else
      match searchElements res.stdout with
      | none => .ok ∅
      | some inside =>
        .ok ((((strip inside).splitOn ',').filter fun p ↦ !isBlank p).map fun p ↦
          PyStr.ofStr (strip p)).toFinset

/-- `list_set`. -/
def listSet (env : ListEnv) (set : Str) : Except Exc (Finset PyStr) :=
  match listSetJson py env set with
  | .error e => .error e
  | .ok (some j) => .ok j
  | .ok none => listSetText env set

/-! ### `verify_sets` -/

/-- The error of a set that is not as expected. -/
def mismatch (what : String) (expected actual : Finset PyStr) : Exc :=
  let show' (s : Finset PyStr) := Python.repr py.unicode (.arr ((sorted s).map .str))
  .nft (what.toList ++ " mismatch: expected=".toList ++ show' expected ++ " actual=".toList ++
    show' actual)

/-- `{a.replace("/32", "") for a in list_set(…)}`. -/
def listedAddrs (env : ListEnv) (set : Str) : Except Exc (Finset PyStr) :=
  (listSet py env set).map fun s ↦ s.image dropHostMask

/-- `{str(int(p)) for p in list_set(…) if str(p).isdigit()}`. -/
def listedPorts (env : ListEnv) (set : Str) : Except Exc (Finset PyStr) := do
  let s ← listSet py env set
  convertPorts py (s.filter fun p ↦ Python.isDigitStr py.unicode p)

/-- One comparison of `verify_sets`. -/
def requireSame (what : String) (expected actual : Finset PyStr) : Except Exc Unit :=
  if actual ≠ expected then .error (mismatch py what expected actual) else .ok ()

/-- `verify_sets`. -/
def verifySets (cfg : NftConfig) (probe : Probe) (env : ListEnv) (expected : ActiveSets) :
    Except Exc Unit := do
  requireBaseline cfg probe
  let addrs ← listedAddrs py env cfg.setAllowV4
  let tcp ← listedPorts py env cfg.setTcpPorts
  let udp ← listedPorts py env cfg.setUdpPorts
  requireSame py "allow_v4" expected.addrs addrs
  requireSame py "tcp ports" expected.tcpPorts tcp
  requireSame py "udp ports" expected.udpPorts udp

/-! ### Proper listings -/

/-- How the values of a set are spelled in a listing. -/
structure Spelling (w : ℕ) where
  /-- The text of a value. -/
  text : Fin (2 ^ w) → Str
  /-- The JSON value is a spelling of the value. -/
  spells : Fin (2 ^ w) → Json PyChar → Prop
  /-- A spelling is a string or a number, and prints as the text. -/
  str_of_spells : ∀ {v j}, spells v j → j ≠ .null ∧ (∀ k, j.get? k = none) ∧
    ∀ db, Python.str db j = PyStr.ofStr (text v)
  /-- The text is not empty. -/
  text_ne_nil : ∀ v, text v ≠ []
  /-- The text contains no white space. -/
  text_visible : ∀ v, ∀ c ∈ text v, isSpace c = false

/-- Addresses are listed as strings. -/
def addrSpelling : Spelling 32 where
  text := render
  spells v j := j = .str (render v)
  str_of_spells := by
    rintro v j rfl
    exact ⟨by simp, fun _ ↦ rfl, fun _ ↦ rfl⟩
  text_ne_nil := render_ne_nil
  text_visible _ _ := isSpace_eq_false_of_mem_render

/-- Ports are listed as numbers, or as strings of digits. -/
def portSpelling : Spelling 16 where
  text v := decimal (v.val : ℤ)
  spells v j := j = .int v.val ∨ j = .str (PyStr.ofInt v.val)
  str_of_spells := by
    rintro v j (rfl | rfl)
    · exact ⟨by simp, fun _ ↦ rfl, fun _ ↦ rfl⟩
    · exact ⟨by simp, fun _ ↦ rfl, fun _ ↦ rfl⟩
  text_ne_nil v := decimal_ne_nil _
  text_visible v _ hc := isSpace_eq_false_of_mem_decimal hc

section Listing

variable {w : ℕ} (sp : Spelling w)

/-- The value that lists an element: its spelling, or a `prefix` or `range` object. -/
def ListsBare : Elem w → Json PyChar → Prop
  | .single v, j => sp.spells v j
  | .network v len, j => ∃ a, sp.spells (Elem.base v len) a ∧
      j = .obj [("prefix".toList, .obj [("addr".toList, a), ("len".toList, .int len.val)])]
  | .range lo hi, j => ∃ a b, sp.spells lo a ∧ sp.spells hi b ∧
      j = .obj [("range".toList, .arr [a, b])]

/-- The item that lists an element: the value, or the value as the `elem` of an object, or as the
`val` of the `elem` of an object. -/
def Lists (e : Elem w) (j : Json PyChar) : Prop :=
  ∃ v, ListsBare sp e v ∧
    (j = v ∨ (∃ ms, j = .obj ms ∧ ms.lookup (PyStr.lit "elem") = some v) ∨
      ∃ ms ms', j = .obj ms ∧ ms.lookup (PyStr.lit "elem") = some (.obj ms') ∧
        ms'.lookup (PyStr.lit "val") = some v)

/-- **A document that lists the elements of a set**: its second entry is the set, whose `elem`
member has an item for each element, and is left out when there are none. -/
def IsListing (es : List (Elem w)) (doc : Json PyChar) : Prop :=
  ∃ ms info set items, doc = .obj ms ∧
    ms.lookup (PyStr.lit "nftables") = some
      (.arr [.obj [("metainfo".toList, info)], .obj [("set".toList, .obj set)]]) ∧
    (set.lookup (PyStr.lit "elem") = some (.arr items) ∨
      set.lookup (PyStr.lit "elem") = none ∧ items = []) ∧
    List.Forall₂ (Lists sp) es items

/-- The text is how the element is read back: a single value as its text, everything else as some
text that starts with a brace. -/
def ReadsAs : Elem w → PyStr → Prop
  | .single v, s => s = PyStr.ofStr (sp.text v)
  | .network _ _, s | .range _ _, s => ∃ t, s = .char '\x7b' :: t

variable {sp}

/-- The value of a listed element has no members `elem` and `val`, and prints as it is read back. -/
theorem ListsBare.spec {e : Elem w} {v : Json PyChar} (h : ListsBare sp e v) :
    v.get? "elem".toList = none ∧ v.get? "val".toList = none ∧
      ∃ s, textOf py v = some s ∧ ReadsAs sp e s := by
  cases e with
  | single x =>
    obtain ⟨hnull, hget, hstr⟩ := sp.str_of_spells h
    refine ⟨hget _, hget _, PyStr.ofStr (sp.text x), ?_, rfl⟩
    cases v with
    | null => exact absurd rfl hnull
    | _ => exact congrArg some (hstr py.unicode)
  | network x len =>
    obtain ⟨a, -, rfl⟩ := h
    exact ⟨rfl, rfl, _, rfl, _, rfl⟩
  | range lo hi =>
    obtain ⟨a, b, -, -, rfl⟩ := h
    exact ⟨rfl, rfl, _, rfl, _, rfl⟩

/-- **How an item is read.** -/
theorem itemText_of_lists {e : Elem w} {j : Json PyChar} (h : Lists sp e j) :
    ∃ s, itemText py j = some s ∧ ReadsAs sp e s := by
  obtain ⟨v, hv, hj⟩ := h
  obtain ⟨helem, hval, s, hs, hreads⟩ := ListsBare.spec py hv
  refine ⟨s, ?_, hreads⟩
  rcases hj with rfl | ⟨ms, rfl, hms⟩ | ⟨ms, ms', rfl, hms, hms'⟩
  · rw [itemText, helem]
    exact hs
  · have hget : (Json.obj ms).get? "elem".toList = some v := hms
    rw [itemText, hget]
    simp only [unwrapVal, hval, Option.getD_none]
    exact hs
  · have hget : (Json.obj ms).get? "elem".toList = some (.obj ms') := hms
    have hget' : (Json.obj ms').get? "val".toList = some v := hms'
    rw [itemText, hget]
    simp only [unwrapVal, hget', Option.getD_some]
    exact hs

/-- A text that is read back is visible from its first character on, so stripping keeps it one. -/
theorem ReadsAs.strip {e : Elem w} {s : PyStr} (h : ReadsAs sp e s) :
    PyStr.isBlank s = false ∧ ReadsAs sp e (PyStr.strip s) := by
  have hbrace : ∀ t, PyStr.isBlank (.char '\x7b' :: t) = false := fun t ↦ by
    simp [PyStr.isBlank, show PyChar.isSpace (.char '\x7b') = false by decide]
  cases e with
  | single v =>
    obtain rfl := h
    refine ⟨(PyStr.isBlank_ofStr _).trans
      (isBlank_eq_false (sp.text_ne_nil v) (sp.text_visible v)), ?_⟩
    rw [PyStr.strip_ofStr, strip_eq_self (sp.text_visible v)]
    rfl
  | network v len =>
    obtain ⟨t, rfl⟩ := h
    exact ⟨hbrace t, PyStr.strip_cons (by decide) t⟩
  | range lo hi =>
    obtain ⟨t, rfl⟩ := h
    exact ⟨hbrace t, PyStr.strip_cons (by decide) t⟩

/-- **What a listing is parsed to**: one text for each element. -/
theorem parse_of_isListing {es : List (Elem w)} {doc : Json PyChar} (h : IsListing sp es doc) :
    ∃ texts, List.Forall₂ (ReadsAs sp) es texts ∧
      parseNftSetElementsJson py doc = .ok (some texts.toFinset) := by
  obtain ⟨ms, info, set, items, rfl, hdoc, hset, hitems⟩ := h
  have htexts : ∃ texts, List.Forall₂ (ReadsAs sp) es texts ∧
      ((items.filterMap (itemText py)).filter fun e ↦ !PyStr.isBlank e).map PyStr.strip =
        texts := by
    clear hset
    induction hitems with
    | nil => exact ⟨[], .nil, rfl⟩
    | @cons e j es items hj _ ih =>
      obtain ⟨texts, hes, htexts⟩ := ih
      obtain ⟨s, hs, hreads⟩ := itemText_of_lists py hj
      obtain ⟨hblank, hstrip⟩ := hreads.strip
      refine ⟨PyStr.strip s :: texts, .cons hstrip hes, ?_⟩
      rw [List.filterMap_cons_some hs, List.filter_cons_of_pos (by simp [hblank]), List.map_cons,
        htexts]
  obtain ⟨texts, hes, htexts⟩ := htexts
  refine ⟨texts, hes, ?_⟩
  have hnft : (Json.obj ms).get? "nftables".toList = some
      (.arr [.obj [("metainfo".toList, info)], .obj [("set".toList, .obj set)]]) := hdoc
  have hinfo : entryTexts py (.obj [("metainfo".toList, info)]) = [] := rfl
  have helems : entryTexts py (.obj [("set".toList, .obj set)]) =
      items.filterMap (itemText py) := by
    show (match set.lookup (PyStr.lit "elem") with
      | some (.arr raw) => raw.filterMap (itemText py)
      | _ => []) ++ [] = _
    rcases hset with hset | ⟨hset, rfl⟩
    · rw [hset, List.append_nil]
    · rw [hset]
      rfl
  have hentries : ([.obj [("metainfo".toList, info)], .obj [("set".toList, .obj set)]] :
      List (Json PyChar)).flatMap (entryTexts py) = items.filterMap (itemText py) := by
    rw [List.flatMap_cons, hinfo, List.nil_append, List.flatMap_singleton, helems]
  simp only [parseNftSetElementsJson, hnft, hentries, htexts]

/-- `nft -j` answers with a document that lists the elements. -/
def ListedBy (sp : Spelling w) (env : ListEnv) (set : Str) (es : List (Elem w)) : Prop :=
  ∃ out doc, env.json set = .ok ⟨0, out⟩ ∧ py.loads out = some doc ∧
    IsListing sp es doc

/-- What the JSON path returns: a text for each element. -/
theorem listSetJson_of_listedBy {env : ListEnv} {set : Str} {es : List (Elem w)}
    (h : ListedBy py sp env set es) :
    ∃ texts, List.Forall₂ (ReadsAs sp) es texts ∧
      listSetJson py env set = .ok (some texts.toFinset) := by
  obtain ⟨out, doc, hrun, hloads, hdoc⟩ := h
  obtain ⟨texts, hes, hparse⟩ := parse_of_isListing py hdoc
  refine ⟨texts, hes, ?_⟩
  simp only [listSetJson, hrun, hloads, hparse]
  rfl

theorem listSet_of_listedBy {env : ListEnv} {set : Str} {es : List (Elem w)}
    (h : ListedBy py sp env set es) :
    ∃ texts, List.Forall₂ (ReadsAs sp) es texts ∧ listSet py env set = .ok texts.toFinset := by
  obtain ⟨texts, hes, hjson⟩ := listSetJson_of_listedBy py h
  exact ⟨texts, hes, by simp only [listSet, hjson]⟩

/-- The listing of a set with given items, as `nft` prints it. -/
def listingDoc (items : List (Json PyChar)) : Json PyChar :=
  .obj [("nftables".toList, .arr [.obj [("metainfo".toList, .obj [])],
    .obj [("set".toList, .obj [("elem".toList, .arr items)])]])]

/-- `nft` as it lists three sets with given items. -/
def ListEnv.printing (cfg : NftConfig) (addrs tcp udp : List (Json PyChar)) : ListEnv where
  json set := .ok ⟨0, Json.dumps (listingDoc (if set = cfg.setAllowV4 then addrs
    else if set = cfg.setTcpPorts then tcp else udp))⟩
  text _ := .ok ⟨1, []⟩

/-- Items that are printed and read back. -/
def Printable (items : List (Json PyChar)) : Prop :=
  Json.PlainItems items ∧ Json.TidyItems items ∧ Json.FitsItems Runtime.ascii.reader 5 items

instance : DecidablePred Printable := fun _ ↦ inferInstanceAs (Decidable (_ ∧ _))

theorem loads_listingDoc {items : List (Json PyChar)} (h : Printable items) :
    Runtime.ascii.loads (Json.dumps (listingDoc items)) = some (listingDoc items) := by
  obtain ⟨hplain, htidy, hfits⟩ := h
  refine Json.read_dumps_of_tidy ?_ ?_ ?_
  · simp [listingDoc, Json.Tidy, Json.TidyItems, Json.TidyMembers, htidy, PyStr.normal_ofStr]
  · simp [listingDoc, Json.Plain, Json.PlainItems, Json.PlainMembers, hplain]
  · simp [listingDoc, Json.Fits, Json.FitsItems, Json.FitsMembers, hfits]
    decide

theorem isListing_listingDoc {es : List (Elem w)} {items : List (Json PyChar)}
    (h : List.Forall₂ (Lists sp) es items) : IsListing sp es (listingDoc items) :=
  ⟨_, _, _, items, rfl, rfl, Or.inl rfl, h⟩

end Listing

/-! ### What `verify_sets` compares -/

/-- **The addresses compared**: each single address as its dotted quad, each block and range as some
text that starts with a brace. -/
theorem listedAddrs_of_listedBy {env : ListEnv} {set : Str} {es : List (Elem 32)}
    (h : ListedBy py addrSpelling env set es) :
    ∃ texts, List.Forall₂ (ReadsAs addrSpelling) es texts ∧
      listedAddrs py env set = .ok texts.toFinset := by
  obtain ⟨texts, hes, hlist⟩ := listSet_of_listedBy py h
  refine ⟨texts.map dropHostMask, ?_, ?_⟩
  · rw [List.forall₂_map_right_iff]
    refine hes.imp fun e s hs ↦ ?_
    have hbrace : ∀ t, dropHostMask (.char '\x7b' :: t) = .char '\x7b' :: dropHostMask t := by
      have hslash : PyChar.char '/' ∉ [.char '\x7b'] := by decide
      exact replace_append_of_not_mem hslash
    cases e with
    | single v =>
      obtain rfl := hs
      exact replace_of_not_mem fun h ↦
        not_mem_render (by decide) (by decide) v (PyStr.mem_ofStr.1 h)
    | network v len =>
      obtain ⟨t, rfl⟩ := hs
      exact ⟨_, hbrace t⟩
    | range lo hi =>
      obtain ⟨t, rfl⟩ := hs
      exact ⟨_, hbrace t⟩
  · rw [listedAddrs, hlist, Except.map]
    refine congrArg _ (Finset.ext fun x ↦ ?_)
    simp

/-- Of the texts of listed elements, those that are digits are the single ports. -/
theorem mem_digits_iff {es : List (Elem 16)} {texts : List PyStr}
    (h : List.Forall₂ (ReadsAs portSpelling) es texts) (s : PyStr) :
    s ∈ texts ∧ Python.isDigitStr py.unicode s = true ↔
      ∃ n : Port, .single n ∈ es ∧ PyStr.ofInt n.val = s := by
  induction h with
  | nil => simp
  | @cons e s' es texts hs _ ih =>
    have hbrace : ∀ t, Python.isDigitStr py.unicode (.char '\x7b' :: t) = false := fun t ↦ by
      simp [Python.isDigitStr]
    rw [List.mem_cons, or_and_right, ih]
    cases e with
    | single v =>
      obtain rfl : s' = PyStr.ofInt v.val := hs
      have hdigits : Python.isDigitStr py.unicode (PyStr.ofInt v.val) = true :=
        Python.isDigitStr_toDigits _ v.val
      constructor
      · rintro (⟨rfl, -⟩ | ⟨n, hn, rfl⟩)
        · exact ⟨v, List.mem_cons_self, rfl⟩
        · exact ⟨n, List.mem_cons_of_mem _ hn, rfl⟩
      · rintro ⟨n, hn, rfl⟩
        rcases List.mem_cons.1 hn with hn | hn
        · obtain rfl := Elem.single.inj hn
          exact Or.inl ⟨rfl, hdigits⟩
        · exact Or.inr ⟨n, hn, rfl⟩
    | network v len =>
      obtain ⟨t, rfl⟩ := hs
      simp only [List.mem_cons, reduceCtorEq, false_or, or_iff_right_iff_imp]
      rintro ⟨rfl, hd⟩
      exact absurd hd (by simp [hbrace])
    | range lo hi =>
      obtain ⟨t, rfl⟩ := hs
      simp only [List.mem_cons, reduceCtorEq, false_or, or_iff_right_iff_imp]
      rintro ⟨rfl, hd⟩
      exact absurd hd (by simp [hbrace])

/-- **The ports compared**: the single ports. Blocks and ranges are not digits, and are dropped. -/
theorem listedPorts_of_listedBy {env : ListEnv} {set : Str} {es : List (Elem 16)}
    (h : ListedBy py portSpelling env set es) :
    ∃ ports, listedPorts py env set = .ok ports ∧
      ∀ s, s ∈ ports ↔ ∃ n : Port, .single n ∈ es ∧ PyStr.ofInt n.val = s := by
  obtain ⟨texts, hes, hlist⟩ := listSet_of_listedBy py h
  have hmem : ∀ s, s ∈ texts.toFinset.filter (fun p ↦ Python.isDigitStr py.unicode p) ↔
      ∃ n : Port, .single n ∈ es ∧ PyStr.ofInt n.val = s := by
    intro s
    rw [Finset.mem_filter, List.mem_toFinset]
    exact mem_digits_iff py hes s
  refine ⟨_, ?_, hmem⟩
  rw [listedPorts, hlist]
  exact convertPorts_of_numerals py fun p hp ↦ by
    obtain ⟨n, -, hn⟩ := (hmem p).1 hp
    exact ⟨_, hasNumeral_port n, hn⟩

end SourceOS.Gate
