import Mathlib.Tactic.IntervalCases
import SourceOS.Gate.Listing

/-!
# The plain listing

The other answer of `list_set`: what `_list_set_text` finds in the output of `nft list set`, where
the elements stand as `elements = \x7b e₁, e₂, … }`, over as many lines as it takes, a block as
`address/length` and a range as `lo-hi`. `PrintedBy` is such an output.

The regular expression finds this part (`searchElements_printed`), and cutting at commas and
stripping gives the texts of the elements, all of them (`listSetText_of_printedBy`). The JSON path
gives the same text for a single value and the `repr` of an object for everything else. So **the two
paths agree exactly on the sets of single values** (`listings_agree_iff`): one block is enough for
them to differ.
-/

namespace SourceOS.Gate

open Text Net

variable {w : ℕ} (sp : Spelling w)

/-! ### What is printed -/

/-- The values are spelled with digits and dots. -/
def Spelling.Numeric : Prop :=
  ∀ v, ∀ c ∈ sp.text v, c.isDigit = true ∨ c = '.'

theorem addrSpelling_numeric : addrSpelling.Numeric :=
  fun _ _ hc ↦ mem_render hc

theorem portSpelling_numeric : portSpelling.Numeric :=
  fun _ _ hc ↦ Or.inl (isDigit_of_mem_toDigits hc)

/-- The text of an element. -/
def elemText : Elem w → Str
  | .single v => sp.text v
  | .network v len => sp.text (Elem.base v len) ++ '/' :: numeral len
  | .range lo hi => sp.text lo ++ '-' :: sp.text hi

/-- The elements one after another, a comma and white space between them. -/
inductive Prints : List (Elem w) → Str → Prop
  | nil : Prints [] []
  | single (e : Elem w) : Prints [e] (elemText sp e)
  | cons (e : Elem w) {e' : Elem w} {es : List (Elem w)} {gap body : Str}
    (hgap : ∀ c ∈ gap, isSpace c = true) (hbody : Prints (e' :: es) body) :
    Prints (e :: e' :: es) (elemText sp e ++ ',' :: (gap ++ body))

/-- **`nft list set` answers with a listing of the elements.** What stands before the elements has
no `=` in it; a set without elements may be listed without that part. -/
def PrintedBy (env : ListEnv) (set : Str) (es : List (Elem w)) : Prop :=
  ∃ out, env.text set = .ok ⟨0, out⟩ ∧
    ((es = [] ∧ '=' ∉ out) ∨
      ∃ header l body r footer, '=' ∉ header ∧ (∀ c ∈ l, isSpace c = true) ∧
        (∀ c ∈ r, isSpace c = true) ∧ Prints sp es body ∧
        out = header ++ ("elements = \x7b".toList ++ (l ++ (body ++ r) ++ '\x7d' :: footer)))

/-! ### The texts of the elements -/

section ElemText

variable {sp}

/-- The characters of an element's text. -/
theorem mem_elemText (hsp : sp.Numeric) {e : Elem w} {c : Char} (hc : c ∈ elemText sp e) :
    c.isDigit = true ∨ c = '.' ∨ c = '/' ∨ c = '-' := by
  have htext : ∀ {v}, c ∈ sp.text v → c.isDigit = true ∨ c = '.' ∨ c = '/' ∨ c = '-' :=
    fun hc ↦ (hsp _ c hc).imp_right Or.inl
  cases e with
  | single v => exact htext hc
  | network v len =>
    rcases List.mem_append.1 hc with hc | hc
    · exact htext hc
    · rcases List.mem_cons.1 hc with rfl | hc
      · exact Or.inr (Or.inr (Or.inl rfl))
      · exact Or.inl (isDigit_of_mem_toDigits hc)
  | range lo hi =>
    rcases List.mem_append.1 hc with hc | hc
    · exact htext hc
    · rcases List.mem_cons.1 hc with rfl | hc
      · exact Or.inr (Or.inr (Or.inr rfl))
      · exact htext hc

/-- No other character is in it. -/
theorem not_mem_elemText (hsp : sp.Numeric) {c : Char} (hdigit : c.isDigit = false)
    (hother : c ∉ ['.', '/', '-']) (e : Elem w) : c ∉ elemText sp e := by
  intro hc
  rcases mem_elemText hsp hc with h | h
  · rw [hdigit] at h
    exact absurd h (by decide)
  · exact hother (by simpa using h)

theorem elemText_visible (hsp : sp.Numeric) (e : Elem w) :
    ∀ c ∈ elemText sp e, isSpace c = false := by
  intro c hc
  rcases mem_elemText hsp hc with h | rfl | rfl | rfl
  · exact isSpace_eq_false_of_isDigit h
  · decide
  · decide
  · decide

theorem elemText_ne_nil (e : Elem w) : elemText sp e ≠ [] := by
  cases e with
  | single v => exact sp.text_ne_nil v
  | network v len => exact List.append_ne_nil_of_right_ne_nil _ (List.cons_ne_nil _ _)
  | range lo hi => exact List.append_ne_nil_of_right_ne_nil _ (List.cons_ne_nil _ _)

theorem Prints.ne_nil {e : Elem w} {es : List (Elem w)} {body : Str}
    (h : Prints sp (e :: es) body) : body ≠ [] := by
  cases h with
  | single => exact elemText_ne_nil e
  | cons => exact List.append_ne_nil_of_right_ne_nil _ (List.cons_ne_nil _ _)

/-- A listing starts and ends visibly. -/
theorem Prints.strip_eq (hsp : sp.Numeric) {es : List (Elem w)} {body : Str}
    (h : Prints sp es body) : strip body = body := by
  refine strip_eq_self_of_ends ?_ ?_
  · intro c hc
    cases h with
    | nil => exact absurd hc (by simp)
    | single e => exact elemText_visible hsp e c (List.mem_of_mem_head? hc)
    | cons e _ _ =>
      rw [List.head?_append_of_ne_nil _ (elemText_ne_nil e)] at hc
      exact elemText_visible hsp e c (List.mem_of_mem_head? hc)
  · induction h with
    | nil => simp
    | single e => exact fun c hc ↦ elemText_visible hsp e c (List.mem_of_mem_getLast? hc)
    | @cons e e' es gap body _ hbody ih =>
      intro c hc
      rw [List.getLast?_append_of_ne_nil _ (List.cons_ne_nil _ _), ← List.cons_append,
        List.getLast?_append_of_ne_nil _ hbody.ne_nil] at hc
      exact ih c hc

/-- **Cutting at commas and stripping gives the texts of the elements.** -/
theorem Prints.split (hsp : sp.Numeric) {es : List (Elem w)} {body : Str} (h : Prints sp es body)
    {gap : Str} (hgap : ∀ c ∈ gap, isSpace c = true) :
    (((gap ++ body).splitOn ',').filter fun p ↦ !isBlank p).map strip = es.map (elemText sp) := by
  have hcomma : ∀ {gap : Str}, (∀ c ∈ gap, isSpace c = true) → ∀ e, ',' ∉ gap ++ elemText sp e := by
    intro gap hgap e hmem
    rcases List.mem_append.1 hmem with hmem | hmem
    · exact absurd (hgap _ hmem) (by decide)
    · exact not_mem_elemText hsp (by decide) (by decide) e hmem
  -- one piece, with the white space before it
  have hpiece : ∀ {gap : Str}, (∀ c ∈ gap, isSpace c = true) → ∀ e (ps : List Str),
      (((gap ++ elemText sp e) :: ps).filter fun p ↦ !isBlank p).map strip =
        elemText sp e :: (ps.filter fun p ↦ !isBlank p).map strip := by
    intro gap hgap e ps
    have hstrip : strip (gap ++ elemText sp e) = elemText sp e := by
      have hpad := @strip_pad gap (elemText sp e) [] hgap (by simp)
      rw [List.append_nil] at hpad
      rw [hpad, strip_eq_self (elemText_visible hsp e)]
    have hblank : isBlank (gap ++ elemText sp e) = false := by
      rw [← Bool.not_eq_true, ← strip_eq_nil_iff, hstrip]
      exact elemText_ne_nil e
    rw [List.filter_cons_of_pos (by simp [hblank]), List.map_cons, hstrip]
  induction h generalizing gap with
  | nil =>
    have hblank : isBlank gap = true := List.all_eq_true.2 hgap
    have hnot : ',' ∉ gap := fun hmem ↦ absurd (hgap _ hmem) (by decide)
    rw [List.append_nil, List.splitOn_eq_singleton hnot, List.filter_cons_of_neg (by simp [hblank])]
    rfl
  | single e =>
    rw [List.splitOn_eq_singleton (hcomma hgap e), hpiece hgap]
    rfl
  | cons e hgap' _ ih =>
    rw [← List.append_assoc, List.splitOn_append_cons_self_of_not_mem (hcomma hgap e), hpiece hgap,
      ih hgap']
    rfl

end ElemText

/-! ### What the regular expression finds -/

/-- There is no match in a text without `=`. -/
theorem matchElements_eq_none {s : Str} (h : '=' ∉ s) : matchElements s = none := by
  rw [matchElements]
  split
  · dsimp only
    split
    · rename_i hhead
      have hmem := List.mem_of_mem_head? hhead
      exact absurd ((List.drop_suffix _ _).mem ((List.dropWhile_suffix isSpace).mem hmem)) h
    · rfl
  · rfl

theorem searchElements_eq_none {s : Str} (h : '=' ∉ s) : searchElements s = none := by
  induction s with
  | nil => exact matchElements_eq_none h
  | cons c s ih =>
    rw [searchElements, matchElements_eq_none h]
    exact ih (List.not_mem_of_not_mem_cons h)

/-- The word `elements` does not overlap itself. -/
theorem length_le_of_elements {h s t : Str} (hne : h ≠ [])
    (heq : "elements".toList ++ t = h ++ ("elements".toList ++ s)) : 8 ≤ h.length := by
  by_contra hlt
  have hdrop : "elements".toList.drop h.length ++ t = "elements".toList ++ s := by
    rw [← List.drop_append_of_le_length (Nat.le_of_not_le hlt), heq, List.drop_left]
  have hpos := List.length_pos_of_ne_nil hne
  generalize h.length = k at hdrop hlt hpos
  interval_cases k <;> simp at hdrop

/-- White space and characters other than `=` before the word leave it at that. -/
theorem head?_dropWhile_ne {x : Str} (hx : '=' ∉ x) (s : Str) :
    ((x ++ ("elements".toList ++ s)).dropWhile isSpace).head? ≠ some '=' := by
  induction x with
  | nil =>
    show some 'e' ≠ some '='
    decide
  | cons c x ih =>
    rw [List.cons_append, List.dropWhile_cons]
    split
    · exact ih (List.not_mem_of_not_mem_cons hx)
    · exact fun h ↦ List.ne_of_not_mem_cons hx (Option.some.inj h).symm

/-- What follows a text without `=` does not make it start a match: the word `elements` does not
overlap itself, and behind it there is no `=`. -/
theorem matchElements_header {h : Str} (hne : h ≠ []) (heq : '=' ∉ h) (s : Str) :
    matchElements (h ++ ("elements".toList ++ s)) = none := by
  rw [matchElements]
  split
  · rename_i hpre
    obtain ⟨t, ht⟩ := List.isPrefixOf_iff_prefix.1 hpre
    rw [List.drop_append_of_le_length (length_le_of_elements hne ht)]
    exact if_neg (head?_dropWhile_ne (fun hmem ↦ heq ((List.drop_suffix _ _).mem hmem)) s)
  · rfl

theorem searchElements_of_match {s inside : Str} (h : matchElements s = some inside) :
    searchElements s = some inside := by
  cases s with
  | nil => exact h
  | cons c s => rw [searchElements, h]

/-- **The search skips a header without `=`.** -/
theorem searchElements_header {h : Str} (heq : '=' ∉ h) (s : Str) :
    searchElements (h ++ ("elements".toList ++ s)) = searchElements ("elements".toList ++ s) := by
  induction h with
  | nil => rfl
  | cons c h ih =>
    rw [List.cons_append, searchElements, ← List.cons_append,
      matchElements_header (List.cons_ne_nil _ _) heq]
    exact ih (List.not_mem_of_not_mem_cons heq)

/-- **What is found**: the text between the braces. -/
theorem searchElements_printed {header inside footer : Str} (heq : '=' ∉ header)
    (hinside : '\x7d' ∉ inside) :
    searchElements (header ++ ("elements = \x7b".toList ++ (inside ++ '\x7d' :: footer))) =
      some inside := by
  have hdrop : ("elements".toList ++ (" = \x7b".toList ++ (inside ++ '\x7d' :: footer))).drop 8 =
      " = \x7b".toList ++ (inside ++ '\x7d' :: footer) := rfl
  have hequals : (" = \x7b".toList ++ (inside ++ '\x7d' :: footer)).dropWhile isSpace =
      '=' :: ' ' :: '\x7b' :: (inside ++ '\x7d' :: footer) := rfl
  have hopen : (' ' :: '\x7b' :: (inside ++ '\x7d' :: footer)).dropWhile isSpace =
      '\x7b' :: (inside ++ '\x7d' :: footer) := rfl
  have htake : (inside ++ '\x7d' :: footer).takeWhile (· ≠ '\x7d') = inside := by
    rw [List.takeWhile_append_of_pos fun c hc ↦ ?_, List.takeWhile_cons_of_neg (by decide),
      List.append_nil]
    exact decide_eq_true fun h ↦ hinside (h ▸ hc)
  have hmatch : matchElements ("elements".toList ++ (" = \x7b".toList ++
      (inside ++ '\x7d' :: footer))) = some inside := by
    unfold matchElements
    rw [if_pos (List.isPrefixOf_iff_prefix.2 (List.prefix_append _ _))]
    dsimp only
    rw [hdrop, hequals, List.head?_cons, if_pos rfl, List.tail_cons, hopen, List.head?_cons,
      List.tail_cons, if_pos ⟨rfl, List.mem_append_right _ List.mem_cons_self⟩, htake]
  have hsplit : "elements = \x7b".toList = "elements".toList ++ " = \x7b".toList := rfl
  rw [hsplit, List.append_assoc, searchElements_header heq]
  exact searchElements_of_match hmatch

/-! ### The two paths -/

section Agree

variable {sp}

/-- A character that is in no element and in no white space is not in the listing. -/
theorem Prints.not_mem {c : Char} (hsp : ∀ e, c ∉ elemText sp e) (hcomma : c ≠ ',')
    (hspace : isSpace c = false) {es : List (Elem w)} {body : Str} (h : Prints sp es body) :
    c ∉ body := by
  induction h with
  | nil => exact List.not_mem_nil
  | single e => exact hsp e
  | cons e hgap _ ih =>
    intro hc
    rcases List.mem_append.1 hc with hc | hc
    · exact hsp e hc
    · rcases List.mem_append.1 ((List.mem_cons.1 hc).resolve_left hcomma) with hc | hc
      · exact absurd (hgap c hc) (by simp [hspace])
      · exact ih hc

/-- **What the text path returns**: the texts of the elements. -/
theorem listSetText_of_printedBy (hsp : sp.Numeric) {env : ListEnv} {set : Str}
    {es : List (Elem w)} (h : PrintedBy sp env set es) :
    listSetText env set = .ok (es.map fun e ↦ PyStr.ofStr (elemText sp e)).toFinset := by
  obtain ⟨out, hrun, ⟨rfl, hout⟩ | ⟨header, l, body, r, footer, hheader, hl, hr, hbody, rfl⟩⟩ := h
  · simp only [listSetText, hrun, searchElements_eq_none hout]
    rfl
  · have hspace : ∀ {s : Str}, (∀ c ∈ s, isSpace c = true) → '\x7d' ∉ s := fun hs hmem ↦
      absurd (hs _ hmem) (by decide)
    have hclose : '\x7d' ∉ body :=
      hbody.not_mem (not_mem_elemText hsp (by decide) (by decide)) (by decide) (by decide)
    have hinside : '\x7d' ∉ l ++ (body ++ r) := by
      simp only [List.mem_append, not_or]
      exact ⟨hspace hl, hclose, hspace hr⟩
    have hsplit := @Prints.split _ _ hsp _ _ hbody [] (by simp)
    rw [List.nil_append] at hsplit
    have htexts := congrArg (List.map PyStr.ofStr) hsplit
    rw [List.map_map, List.map_map] at htexts
    simp only [listSetText, hrun, searchElements_printed hheader hinside, strip_pad hl hr,
      hbody.strip_eq hsp]
    exact congrArg (fun l ↦ Except.ok (List.toFinset l)) htexts

/-- A text that starts with a brace is no element's text. -/
theorem brace_notMem_texts (hsp : sp.Numeric) {es : List (Elem w)} {t : PyStr} :
    .char '\x7b' :: t ∉ (es.map fun e ↦ PyStr.ofStr (elemText sp e)).toFinset := by
  intro hmem
  obtain ⟨e, -, he⟩ := List.mem_map.1 (List.mem_toFinset.1 hmem)
  have hbrace : .char '\x7b' ∈ PyStr.ofStr (elemText sp e) := he ▸ List.mem_cons_self
  exact not_mem_elemText hsp (by decide) (by decide) e (PyStr.mem_ofStr.1 hbrace)

/-- Single values are read back as their texts. -/
theorem texts_of_isSingle {es : List (Elem w)} {texts : List PyStr}
    (h : List.Forall₂ (ReadsAs sp) es texts) (hsingle : ∀ e ∈ es, e.IsSingle) :
    texts = es.map fun e ↦ PyStr.ofStr (elemText sp e) := by
  induction h with
  | nil => rfl
  | @cons e s es texts hs _ ih =>
    have he := hsingle e List.mem_cons_self
    rw [List.map_cons, ← ih fun e' he' ↦ hsingle e' (List.mem_cons_of_mem _ he')]
    cases e with
    | single v =>
      rw [show s = PyStr.ofStr (sp.text v) from hs]
      rfl
    | network v len => exact he.elim
    | range lo hi => exact he.elim

variable (py : Runtime)

/-- **When the JSON and the text listing agree.** Whatever a set of the kernel contains, if `nft -j`
lists it and `nft` prints it, both paths of `list_set` return; the two results are the same exactly
if the set contains single values only. -/
theorem listings_agree_iff (hsp : sp.Numeric) {env : ListEnv} {set : Str} {es : List (Elem w)}
    (hjson : ListedBy py sp env set es) (htext : PrintedBy sp env set es) :
    ∃ js ts, listSetJson py env set = .ok (some js) ∧ listSetText env set = .ok ts ∧
      (js = ts ↔ ∀ e ∈ es, e.IsSingle) := by
  obtain ⟨texts, hes, hjs⟩ := listSetJson_of_listedBy py hjson
  refine ⟨_, _, hjs, listSetText_of_printedBy hsp htext, fun hsame e he ↦ ?_, fun hsingle ↦ ?_⟩
  · -- the text of a block or a range starts with a brace on one side only
    obtain ⟨s, hs, hreads⟩ := (exists_of_forall₂ hes).2 e he
    have hmem := hsame ▸ List.mem_toFinset.2 hs
    cases e with
    | single v => trivial
    | network v len =>
      obtain ⟨t, rfl⟩ := hreads
      exact absurd hmem (brace_notMem_texts hsp)
    | range lo hi =>
      obtain ⟨t, rfl⟩ := hreads
      exact absurd hmem (brace_notMem_texts hsp)
  · rw [texts_of_isSingle hes hsingle]

end Agree

/-- `nft` as it lists and prints `frontier_allow_v4`. -/
def ListEnv.answering (items : List (Json PyChar)) (body : Str) : ListEnv where
  json _ := .ok ⟨0, Json.dumps (listingDoc items)⟩
  text _ := .ok ⟨0, "table inet sourceos \x7b\n\tset frontier_allow_v4 \x7b\n\t\t".toList ++
    ("elements = \x7b".toList ++ ([' '] ++ (body ++ [' ']) ++ '\x7d' :: "\n\t\x7d\n\x7d\n".toList))⟩

theorem printedBy_answering {sp : Spelling w} {es : List (Elem w)} {items : List (Json PyChar)}
    {body : Str} (h : Prints sp es body) (set : Str) :
    PrintedBy sp (.answering items body) set es :=
  have hspace : ∀ c ∈ [' '], isSpace c = true := List.forall_mem_singleton.2 (by decide)
  ⟨_, rfl, Or.inr ⟨_, [' '], body, [' '], "\n\t\x7d\n\x7d\n".toList, by decide, hspace, hspace, h,
    rfl⟩⟩

theorem listedBy_answering {sp : Spelling w} {es : List (Elem w)} {items : List (Json PyChar)}
    {body : Str} (hitems : Printable items) (h : List.Forall₂ (Lists sp) es items) (set : Str) :
    ListedBy .ascii sp (.answering items body) set es :=
  ⟨_, _, rfl, loads_listingDoc hitems, isListing_listingDoc h⟩

/-- Two hosts, the second one wrapped. -/
def hostItems : List (Json PyChar) :=
  [.str "10.0.0.1".toList, .obj [("elem".toList, .str "10.0.0.2".toList)]]

/-- Two hosts, printed over two lines. -/
theorem listings_agree_iff_of_hosts :
    ∃ js ts,
      listSetJson .ascii (.answering hostItems "10.0.0.1,\n10.0.0.2".toList)
        "frontier_allow_v4".toList = .ok (some js) ∧
      listSetText (.answering hostItems "10.0.0.1,\n10.0.0.2".toList)
        "frontier_allow_v4".toList = .ok ts ∧ js = ts := by
  have hprints : Prints addrSpelling [.single (ofOctets 10 0 0 1), .single (ofOctets 10 0 0 2)]
      "10.0.0.1,\n10.0.0.2".toList :=
    @Prints.cons _ addrSpelling (.single (ofOctets 10 0 0 1)) _ _ ['\n'] _
      (List.forall_mem_singleton.2 (by decide)) (.single (.single (ofOctets 10 0 0 2)))
  have hlists : List.Forall₂ (Lists addrSpelling)
      [.single (ofOctets 10 0 0 1), .single (ofOctets 10 0 0 2)] hostItems :=
    .cons ⟨_, rfl, Or.inl rfl⟩ (.cons ⟨_, rfl, Or.inr (Or.inl ⟨_, rfl, rfl⟩)⟩ .nil)
  obtain ⟨js, ts, hjs, hts, hsame⟩ := listings_agree_iff .ascii addrSpelling_numeric
    (listedBy_answering (by decide) hlists _) (printedBy_answering hprints _)
  exact ⟨js, ts, hjs, hts, hsame.2 (by simp [Elem.IsSingle])⟩

/-- The block `10.0.0.0/8`. -/
def blockItems : List (Json PyChar) :=
  [.obj [("prefix".toList, .obj [("addr".toList, .str "10.0.0.0".toList),
    ("len".toList, .int 8)])]]

/-- **One block is enough**: the text listing has `10.0.0.0/8` in it, and the JSON listing the
`repr` of an object. -/
theorem listings_disagree_on_block :
    ListedBy .ascii addrSpelling (.answering blockItems "10.0.0.0/8".toList)
        "frontier_allow_v4".toList [.network (ofOctets 10 0 0 0) 8] ∧
      PrintedBy addrSpelling (.answering blockItems "10.0.0.0/8".toList)
        "frontier_allow_v4".toList [.network (ofOctets 10 0 0 0) 8] ∧
      ∃ js ts,
        listSetJson .ascii (.answering blockItems "10.0.0.0/8".toList)
          "frontier_allow_v4".toList = .ok (some js) ∧
        listSetText (.answering blockItems "10.0.0.0/8".toList)
          "frontier_allow_v4".toList = .ok ts ∧
        PyStr.lit "10.0.0.0/8" ∈ ts ∧ PyStr.lit "10.0.0.0/8" ∉ js ∧ js ≠ ts := by
  have hlists : List.Forall₂ (Lists addrSpelling) [.network (ofOctets 10 0 0 0) 8] blockItems :=
    .cons ⟨_, ⟨_, rfl, rfl⟩, Or.inl rfl⟩ .nil
  have hlisted : ListedBy .ascii addrSpelling (.answering blockItems "10.0.0.0/8".toList)
      "frontier_allow_v4".toList [.network (ofOctets 10 0 0 0) 8] :=
    listedBy_answering (by decide) hlists _
  have hprinted : PrintedBy addrSpelling (.answering blockItems "10.0.0.0/8".toList)
      "frontier_allow_v4".toList [.network (ofOctets 10 0 0 0) 8] :=
    printedBy_answering (.single (.network (ofOctets 10 0 0 0) 8)) _
  obtain ⟨texts, htexts, hjs⟩ := listSetJson_of_listedBy .ascii hlisted
  have hmem : PyStr.lit "10.0.0.0/8" ∈ ([Elem.network (ofOctets 10 0 0 0) 8].map fun e ↦
      PyStr.ofStr (elemText addrSpelling e)).toFinset := by decide
  have hnot : PyStr.lit "10.0.0.0/8" ∉ texts.toFinset := by
    intro h
    obtain ⟨e, he, hreads⟩ := (exists_of_forall₂ htexts).1 _ (List.mem_toFinset.1 h)
    obtain rfl := List.mem_singleton.1 he
    obtain ⟨t, ht⟩ := hreads
    exact absurd (List.cons.inj ht).1 (by decide)
  exact ⟨hlisted, hprinted, _, _, hjs, listSetText_of_printedBy addrSpelling_numeric hprinted,
    hmem, hnot, fun hsame ↦ hnot (hsame ▸ hmem)⟩

end SourceOS.Gate
