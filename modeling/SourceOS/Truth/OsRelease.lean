import SourceOS.Truth.Attestation

/-!
# Reading os-release

`_read_os_release` of `tools/sourceos_truth_surface.py` takes the lines `KEY=value` of
`/etc/os-release`, with or without quotes and white space, and leaves out blank lines, comments and
lines without an equals sign. What it reads becomes part of every surface, and is signed with it.

* **What was written is read** (`os_release_reads_back`): of lines `KEY="value"` and `KEY=value`,
  between any lines that are left out, exactly the keys and values, and of several values for a key
  the last one.
* **What is read can be written** (`os_release_normalises`): whatever the text, the keys and values
  that are read have the form that reads back, so that writing them as `KEY="value"` and reading
  again changes nothing.
-/

namespace SourceOS.Truth

open Text Json

/-! ### Lines -/

/-- A line without line breaks. -/
def OneLine (line : Str) : Prop :=
  ∀ c ∈ line, isLineBreak c = false

instance : DecidablePred OneLine := fun line ↦
  inferInstanceAs (Decidable (∀ c ∈ line, isLineBreak c = false))

theorem splitLines_cons {c : Char} (hc : isLineBreak c = false) (line s : Str) :
    splitLines line (c :: s) = splitLines (c :: line) s := by
  have hreturn : c ≠ '\r' := by
    intro heq
    rw [heq] at hc
    exact absurd hc (by decide)
  rw [splitLines.eq_3 line c s fun _ heq ↦ absurd heq hreturn, if_neg (by simp [hc])]

/-- A line and its end. -/
theorem splitLines_append {l : Str} (hl : OneLine l) (line s : Str) :
    splitLines line (l ++ '\n' :: s) = (line.reverse ++ l) :: splitLines [] s := by
  induction l generalizing line with
  | nil =>
    rw [List.nil_append, List.append_nil, splitLines.eq_3 line '\n' s nofun]
    rfl
  | cons c l ih =>
    obtain ⟨hc, hl⟩ := List.forall_mem_cons.1 hl
    rw [List.cons_append, splitLines_cons hc, ih hl, List.reverse_cons, List.append_assoc,
      List.singleton_append]

/-- **Lines that were written are told apart.** -/
theorem splitLines_flatMap {ls : List Str} (h : ∀ l ∈ ls, OneLine l) :
    splitLines [] (ls.flatMap (· ++ ['\n'])) = ls := by
  induction ls with
  | nil => rfl
  | cons l ls ih =>
    obtain ⟨hl, hls⟩ := List.forall_mem_cons.1 h
    rw [List.flatMap_cons, List.append_assoc, List.singleton_append, splitLines_append hl, ih hls]
    rfl

/-- **Lines that are told apart have no line breaks.** -/
theorem oneLine_of_mem_splitLines {line s l : Str} (hline : OneLine line)
    (hl : l ∈ splitLines line s) : OneLine l := by
  have hreverse : ∀ {line : Str}, OneLine line → OneLine line.reverse :=
    fun h c hc ↦ h c (List.mem_reverse.1 hc)
  have hnil : OneLine [] := by simp [OneLine]
  fun_induction splitLines line s with
  | case1 => cases hl
  | case2 line hne =>
    rw [List.mem_singleton.1 hl]
    exact hreverse hline
  | case3 line s ih =>
    rcases List.mem_cons.1 hl with rfl | hl
    · exact hreverse hline
    · exact ih hnil hl
  | case4 line c s _ hbreak ih =>
    rcases List.mem_cons.1 hl with rfl | hl
    · exact hreverse hline
    · exact ih hnil hl
  | case5 line c s _ hbreak ih =>
    refine ih (List.forall_mem_cons.2 ⟨?_, hline⟩) hl
    simpa using hbreak

/-! ### Entries -/

/-- A key and a value as they are read: on one line, the key trimmed, not a comment and without an
equals sign, the value without a quote at either end. -/
structure OsEntry where
  key : Str
  value : Str
  oneLine_key : OneLine key
  oneLine_value : OneLine value
  strip_key : strip key = key
  hash_notMem : '#' ∉ key.head?
  equals_notMem : '=' ∉ key
  quote_notMem_head : '"' ∉ value.head?
  quote_notMem_last : '"' ∉ value.getLast?

namespace OsEntry

/-- `KEY="value"`. -/
def line (e : OsEntry) : Str :=
  e.key ++ '=' :: '"' :: (e.value ++ ['"'])

/-- The member that it becomes. -/
def member (e : OsEntry) : Str × Json :=
  (e.key, .str e.value)

theorem oneLine_line (e : OsEntry) : OneLine e.line := by
  have hequals : isLineBreak '=' = false := by decide
  have hquote : isLineBreak '"' = false := by decide
  intro c hc
  simp only [line, List.mem_append, List.mem_cons, List.not_mem_nil, or_false] at hc
  rcases hc with hc | rfl | rfl | hc | rfl
  exacts [e.oneLine_key c hc, hequals, hquote, e.oneLine_value c hc, hquote]

/-- A value within quotes loses the quotes only. -/
theorem stripQuotes_value (e : OsEntry) : stripQuotes ('"' :: (e.value ++ ['"'])) = e.value := by
  rcases hvalue : e.value with _ | ⟨c, v⟩
  · rfl
  · have hhead : (c == '"') = false := by
      have hnot := e.quote_notMem_head
      rw [hvalue] at hnot
      rw [beq_eq_false_iff_ne]
      exact fun heq ↦ hnot (heq ▸ rfl)
    obtain ⟨w, d, hlast⟩ : ∃ w d, c :: v = w ++ [d] :=
      ⟨_, _, (List.dropLast_append_getLast (List.cons_ne_nil c v)).symm⟩
    have hd : (d == '"') = false := by
      have hnot := e.quote_notMem_last
      rw [hvalue, hlast, List.getLast?_concat] at hnot
      rw [beq_eq_false_iff_ne]
      exact fun heq ↦ hnot (heq ▸ rfl)
    have hdrop : ∀ t : Str, ('"' :: t).dropWhile (· == '"') = t.dropWhile (· == '"') := fun _ ↦ rfl
    have hstop : ∀ (x : Char) (t : Str), (x == '"') = false →
        (x :: t).dropWhile (· == '"') = x :: t := fun x t hx ↦
      List.dropWhile_cons_of_neg (by simp [hx])
    rw [stripQuotes, hdrop, List.cons_append, hstop c _ hhead, ← List.cons_append,
      List.reverse_append, List.reverse_singleton, List.singleton_append, hdrop, hlast,
      List.reverse_append, List.reverse_singleton, List.singleton_append, hstop d _ hd,
      List.reverse_cons, List.reverse_reverse]

/-- `KEY=value`. -/
def bareLine (e : OsEntry) : Str :=
  e.key ++ '=' :: e.value

theorem oneLine_bareLine (e : OsEntry) : OneLine e.bareLine := by
  have hequals : isLineBreak '=' = false := by decide
  intro c hc
  simp only [bareLine, List.mem_append, List.mem_cons] at hc
  rcases hc with hc | rfl | hc
  exacts [e.oneLine_key c hc, hequals, e.oneLine_value c hc]

/-- A value without quotes at its ends loses nothing. -/
theorem stripQuotes_bare (e : OsEntry) : stripQuotes e.value = e.value := by
  have hhead : e.value.dropWhile (· == '"') = e.value := by
    rcases hvalue : e.value with _ | ⟨c, v⟩
    · rfl
    · refine List.dropWhile_cons_of_neg ?_
      have hnot := e.quote_notMem_head
      rw [hvalue] at hnot
      rw [beq_iff_eq]
      exact fun heq ↦ hnot (heq ▸ rfl)
  show (e.value.dropWhile (· == '"')).rdropWhile (· == '"') = e.value
  rw [hhead, List.rdropWhile_eq_self_iff]
  intro hne hlast
  refine e.quote_notMem_last ?_
  rw [List.getLast?_eq_some_getLast hne, beq_iff_eq.1 hlast]
  rfl

section Reading

variable {q : Str}

/-- Nothing is trimmed of a key, an equals sign and a trimmed text. -/
theorem strip_append (e : OsEntry) (hq : strip q = q) :
    strip (e.key ++ '=' :: q) = e.key ++ '=' :: q := by
  refine strip_eq_self_of_ends (fun c hc ↦ ?_) fun c hc ↦ ?_
  · rcases hkey : e.key with _ | ⟨d, k⟩
    · rw [hkey] at hc
      obtain rfl := Option.some.inj hc
      decide
    · rw [hkey] at hc
      obtain rfl := Option.some.inj hc
      have hhead : d ∈ (strip e.key).head? := by
        rw [e.strip_key, hkey]
        rfl
      exact head?_trim hhead
  · rcases List.eq_nil_or_concat' q with rfl | ⟨t, d, rfl⟩
    · rw [List.getLast?_concat] at hc
      obtain rfl := Option.some.inj hc
      decide
    · rw [← List.cons_append, ← List.append_assoc, List.getLast?_concat] at hc
      obtain rfl := Option.some.inj hc
      have hlast : d ∈ (strip (t ++ [d])).getLast? := by
        rw [hq, List.getLast?_concat]
        rfl
      exact getLast?_trim hlast

/-- What is read from a key, an equals sign and a text that comes to the value. -/
theorem readOsReleaseLine_append (e : OsEntry) (hq : strip q = q)
    (hvalue : stripQuotes q = e.value) :
    readOsReleaseLine (e.key ++ '=' :: q) = some e.member := by
  have hne : e.key ++ '=' :: q ≠ [] := by simp
  have hhash : (e.key ++ '=' :: q).head? ≠ some '#' := by
    intro hhead
    rcases hkey : e.key with _ | ⟨d, k⟩
    · rw [hkey] at hhead
      cases hhead
    · rw [hkey] at hhead
      refine e.hash_notMem ?_
      rw [hkey]
      exact hhead
  have hequals : '=' ∈ e.key ++ '=' :: q := by simp
  have hbefore : ∀ c ∈ e.key, decide (c ≠ '=') = true := by
    intro c hc
    rw [decide_eq_true_eq]
    exact fun heq ↦ e.equals_notMem (heq ▸ hc)
  have htake : (e.key ++ '=' :: q).takeWhile (· ≠ '=') = e.key := by
    rw [List.takeWhile_append_of_pos hbefore]
    simp
  have hdrop : ((e.key ++ '=' :: q).dropWhile (· ≠ '=')).tail = q := by
    rw [List.dropWhile_append_of_pos hbefore]
    simp
  rw [readOsReleaseLine, e.strip_append hq]
  dsimp only
  rw [if_neg (not_or.2 ⟨hne, not_or.2 ⟨hhash, not_not.2 hequals⟩⟩), htake, hdrop, hq, hvalue,
    e.strip_key, member]

end Reading

/-- **An entry is read from its line.** -/
theorem readOsReleaseLine_line (e : OsEntry) : readOsReleaseLine e.line = some e.member := by
  refine e.readOsReleaseLine_append (strip_eq_self_of_ends (fun c hc ↦ ?_) fun c hc ↦ ?_)
    e.stripQuotes_value
  · obtain rfl := Option.some.inj hc
    decide
  · rw [← List.cons_append, List.getLast?_concat] at hc
    obtain rfl := Option.some.inj hc
    decide

/-- **What is read from a line is an entry.** -/
theorem exists_of_readOsReleaseLine {l : Str} (hl : OneLine l) {m : Str × Json}
    (h : readOsReleaseLine l = some m) : ∃ e : OsEntry, e.member = m := by
  rw [readOsReleaseLine] at h
  split at h
  · cases h
  · rename_i hline
    obtain rfl := Option.some.inj h
    simp only [not_or, not_not] at hline
    obtain ⟨hne, hhash, -⟩ := hline
    -- everything in the key and in the value is in the line
    have hmem : ∀ c ∈ strip l, isLineBreak c = false := fun c hc ↦ hl c (mem_of_mem_strip hc)
    have hkey : ∀ c ∈ strip ((strip l).takeWhile (· ≠ '=')), c ∈ strip l ∧ c ≠ '=' := by
      intro c hc
      have htake := mem_of_mem_strip hc
      exact ⟨(List.takeWhile_prefix _).mem htake, by simpa using List.mem_takeWhile_imp htake⟩
    have hquotes : ∀ s : Str, stripQuotes s = (s.dropWhile (· == '"')).rdropWhile (· == '"') :=
      fun _ ↦ rfl
    have hvalue : ∀ c ∈ stripQuotes (strip ((strip l).dropWhile (· ≠ '=')).tail), c ∈ strip l := by
      intro c hc
      rw [hquotes] at hc
      have htail := mem_of_mem_strip ((List.dropWhile_suffix _).mem
        ((List.rdropWhile_prefix _ _).mem hc))
      exact (List.dropWhile_suffix _).mem (List.mem_of_mem_tail htail)
    refine ⟨⟨_, _, fun c hc ↦ hmem c (hkey c hc).1, fun c hc ↦ hmem c (hvalue c hc), strip_strip _,
      ?_, fun hc ↦ (hkey _ hc).2 rfl, ?_, ?_⟩, rfl⟩
    · -- the key starts as the line does, and the line is not a comment
      rcases hstrip : strip l with _ | ⟨d, t⟩
      · exact absurd hstrip hne
      · have hd : isSpace d = false := by
          have hhead : d ∈ (strip l).head? := by
            rw [hstrip]
            rfl
          exact head?_trim hhead
        by_cases hequals : d = '='
        · rw [hequals, List.takeWhile_cons_of_neg (by simp)]
          simp [strip]
        · rw [List.takeWhile_cons_of_pos (by simpa using hequals)]
          obtain ⟨u, hu⟩ := strip_cons hd (t.takeWhile (· ≠ '='))
          rw [hu]
          intro hc
          rw [hstrip] at hhash
          exact hhash hc
    · intro hc
      rw [hquotes] at hc
      exact absurd (head?_trim hc) (by decide)
    · intro hc
      rw [hquotes] at hc
      exact absurd (getLast?_trim hc) (by decide)

end OsEntry

/-- A line of the file: an entry, with quotes around the value or without, or one that is left
out. -/
inductive OsLine
  | entry (e : OsEntry)
  | bare (e : OsEntry) (h : strip e.value = e.value)
  | other (l : Str) (hl : OneLine l)
    (h : isBlank l = true ∨ (strip l).head? = some '#' ∨ '=' ∉ l)

namespace OsLine

/-- The text of a line. -/
def text : OsLine → Str
  | .entry e => e.line
  | .bare e _ => e.bareLine
  | .other l _ _ => l

/-- The entry of a line, if it is one. -/
def entry? : OsLine → Option OsEntry
  | .entry e | .bare e _ => some e
  | .other _ _ _ => none

theorem oneLine_text (l : OsLine) : OneLine l.text := by
  cases l with
  | entry e => exact e.oneLine_line
  | bare e h => exact e.oneLine_bareLine
  | other l hl h => exact hl

/-- **What is read from a line.** -/
theorem readOsReleaseLine_text (l : OsLine) :
    readOsReleaseLine l.text = l.entry?.map OsEntry.member := by
  cases l with
  | entry e => exact e.readOsReleaseLine_line
  | bare e h => exact e.readOsReleaseLine_append h e.stripQuotes_bare
  | other l hl h =>
    have hout : strip l = [] ∨ (strip l).head? = some '#' ∨ '=' ∉ strip l := by
      rcases h with hblank | hhash | hequals
      · exact Or.inl (strip_eq_nil_iff.2 hblank)
      · exact Or.inr (Or.inl hhash)
      · exact Or.inr (Or.inr fun hmem ↦ hequals (mem_of_mem_strip hmem))
    rw [text, readOsReleaseLine]
    exact if_pos hout

end OsLine

/-- A file of some lines. -/
def osText (ls : List Str) : Str :=
  ls.flatMap (· ++ ['\n'])

/-- What is read from a file of lines. -/
theorem readOsRelease_osText (ls : List OsLine) :
    readOsRelease (some (osText (ls.map OsLine.text))) =
      ofMembers ((ls.filterMap OsLine.entry?).map OsEntry.member) := by
  have hlines : ∀ l ∈ ls.map OsLine.text, OneLine l := by
    intro l hl
    obtain ⟨x, -, rfl⟩ := List.mem_map.1 hl
    exact x.oneLine_text
  rw [readOsRelease, osText, splitLines_flatMap hlines, List.filterMap_map, List.map_filterMap]
  exact congrArg ofMembers (List.filterMap_congr fun l _ ↦ l.readOsReleaseLine_text)

/-- **What was written is read.** From a file of entries, and of lines that are left out, in any
order, the value that is read for a key is that of its last entry, and for other keys there is
none. -/
theorem os_release_reads_back (ls : List OsLine) (k : Str) :
    (readOsRelease (some (osText (ls.map OsLine.text)))).lookup k =
      ((ls.filterMap OsLine.entry?).reverse.find? fun e ↦ e.key = k).map fun e ↦ .str e.value := by
  have hlookup : ∀ es : List OsEntry, (es.map OsEntry.member).lookup k =
      (es.find? fun e ↦ e.key = k).map fun e ↦ .str e.value := by
    intro es
    induction es with
    | nil => rfl
    | cons e es ih =>
      rw [List.map_cons, OsEntry.member, List.lookup_cons]
      by_cases hk : e.key = k
      · rw [List.find?_cons_of_pos (by simpa using hk), hk, beq_self_eq_true]
        rfl
      · rw [List.find?_cons_of_neg (by simpa using hk), beq_eq_false_iff_ne.2 (Ne.symm hk)]
        exact ih
  rw [readOsRelease_osText, lookup_ofMembers, ← List.map_reverse, hlookup]

/-- **What is read can be written.** Whatever the text, what is read from it are entries, with
different keys, and from the file of these entries the same is read. -/
theorem os_release_normalises (text : Option Str) : ∃ entries : List OsEntry,
    readOsRelease text = entries.map OsEntry.member ∧ (entries.map OsEntry.key).Nodup ∧
      readOsRelease (some (osText (entries.map OsEntry.line))) = readOsRelease text := by
  have hentries : ∀ ms : Dict, (∀ m ∈ ms, ∃ e : OsEntry, e.member = m) →
      ∃ entries : List OsEntry, entries.map OsEntry.member = ms := by
    intro ms h
    induction ms with
    | nil => exact ⟨[], rfl⟩
    | cons m ms ih =>
      obtain ⟨⟨e, rfl⟩, hms⟩ := List.forall_mem_cons.1 h
      obtain ⟨es, rfl⟩ := ih hms
      exact ⟨e :: es, rfl⟩
  obtain ⟨entries, hread⟩ := hentries (readOsRelease text) (by
    intro m hm
    cases text with
    | none => cases hm
    | some s =>
      obtain ⟨l, hl, hline⟩ := List.mem_filterMap.1 (mem_of_mem_ofMembers hm)
      have hnil : OneLine [] := by simp [OneLine]
      exact OsEntry.exists_of_readOsReleaseLine (oneLine_of_mem_splitLines hnil hl) hline)
  have hkeys : (entries.map OsEntry.key).Nodup := by
    have hnodup := nodup_readOsRelease text
    rw [← hread, List.map_map] at hnodup
    exact hnodup
  have htext := readOsRelease_osText (entries.map OsLine.entry)
  have hlines : (entries.map OsLine.entry).map OsLine.text = entries.map OsEntry.line := by
    rw [List.map_map]
    rfl
  have hfilter : (entries.map OsLine.entry).filterMap OsLine.entry? = entries := by
    rw [List.filterMap_map]
    exact List.filterMap_some
  rw [hlines, hfilter, hread, ofMembers_of_nodup (nodup_readOsRelease text)] at htext
  exact ⟨entries, hread.symm, hkeys, htext⟩

end SourceOS.Truth
