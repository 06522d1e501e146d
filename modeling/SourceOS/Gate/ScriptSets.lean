import SourceOS.Gate.NftGrammar

/-!
# The sets that a taken script loads

A script that `nft` has taken has put elements into the three allowlist sets, and which ones is read
off the script itself, command by command: `scriptSets`. A line of `apply_sets` ends in two closing
braces, at which `nft` stops; where it has taken the script all the same, the two must have been one
to it, so that is how `readTaken` reads them.

What it loads are the elements as `nft` tells them apart, and these are not the strings that
`apply_sets` was given: `1.1.1.1, 2.2.2.2` is one string and two elements. The two are the same if
every address is written as an address, a block or a range, and every port as a port number
(`scriptSets_loadScript`).
-/

namespace SourceOS.Gate

open Text Net

/-! ### Elements -/

/-- The addresses from `a` to `b` that a text `a-b` names. -/
def readRange (s : Str) : Option (Elem 32) :=
  match s.splitOn '-' with
  | [a, b] => do
    let lo ← Net.read a
    let hi ← Net.read b
    if lo ≤ hi then return .range lo hi else none
  | _ => none

/-- The element of the address set that a text is: an address, a block or a range. -/
def readAddrs (e : PyStr) : Option (Elem 32) :=
  match Target.readPy e with
  | some t => some t.elem
  | none => e.toStr?.bind readRange

/-- The characters of elements. -/
def isElementChar (c : Char) : Bool :=
  c.isDigit || c == '.' || c == '/' || c == '-'

/-- A text of such characters. -/
def IsElementText (e : PyStr) : Prop :=
  ∃ s : Str, s ≠ [] ∧ (∀ c ∈ s, isElementChar c = true) ∧ PyStr.ofStr s = e

theorem isElementChar_of_isDigit {c : Char} (h : c.isDigit = true) : isElementChar c = true := by
  simp [isElementChar, h]

theorem isElementChar_of_mem_render {c : Char} {ip : IPv4} (h : c ∈ render ip) :
    isElementChar c = true := by
  rcases mem_render h with hd | rfl
  · exact isElementChar_of_isDigit hd
  · rfl

theorem isElementChar_of_mem_numeral {c : Char} {n : ℕ} (h : c ∈ numeral n) :
    isElementChar c = true :=
  isElementChar_of_isDigit (isDigit_of_mem_toDigits h)

theorem isElementChar_of_mem_text {c : Char} {t : Target} (h : c ∈ t.text) :
    isElementChar c = true := by
  cases t with
  | host ip => exact isElementChar_of_mem_render h
  | block ip len =>
    rcases List.mem_append.1 h with hip | hlen
    · exact isElementChar_of_mem_render hip
    · rcases List.mem_cons.1 hlen with rfl | hlen
      · rfl
      · exact isElementChar_of_mem_numeral hlen

/-- Only a range is read as one. -/
theorem eq_of_readRange {s : Str} {x : Elem 32} (h : readRange s = some x) :
    ∃ lo hi, s = render lo ++ '-' :: render hi := by
  have hjoin : ['-'].intercalate (s.splitOn '-') = s := List.intercalate_splitOn '-'
  unfold readRange at h
  split at h
  · rename_i a b hsplit
    obtain ⟨lo, hlo, h⟩ := Option.bind_eq_some_iff.1 h
    obtain ⟨hi, hhi, -⟩ := Option.bind_eq_some_iff.1 h
    refine ⟨lo, hi, ?_⟩
    rw [hsplit, ← render_of_read hlo, ← render_of_read hhi] at hjoin
    rw [← hjoin]
    simp [List.intercalate_cons_cons]
  · exact absurd h (by simp)

/-- What is read as addresses is the text of an element. -/
theorem isElementText_of_readAddrs {e : PyStr} (h : (readAddrs e).isSome = true) :
    IsElementText e := by
  obtain ⟨x, hx⟩ := Option.isSome_iff_exists.1 h
  unfold readAddrs at hx
  split at hx
  · rename_i t ht
    refine ⟨t.text, fun hnil ↦ ?_, fun c hc ↦ isElementChar_of_mem_text hc,
      Target.text_of_readPy ht⟩
    have hblank := Target.isBlank_text t
    rw [hnil] at hblank
    exact absurd hblank (by decide)
  · obtain ⟨s, hs, hrange⟩ := Option.bind_eq_some_iff.1 hx
    obtain ⟨lo, hi, rfl⟩ := eq_of_readRange hrange
    refine ⟨_, by simp, fun c hc ↦ ?_, (PyStr.toStr?_eq_some_iff.1 hs).symm⟩
    rcases List.mem_append.1 hc with hlo | hhi
    · exact isElementChar_of_mem_render hlo
    · rcases List.mem_cons.1 hhi with rfl | hhi
      · rfl
      · exact isElementChar_of_mem_render hhi

/-- What is read as a port is the text of an element. -/
theorem isElementText_of_readPort {e : PyStr} (h : (readPort e).isSome = true) :
    IsElementText e := by
  obtain ⟨n, hn⟩ := Option.isSome_iff_exists.1 h
  obtain ⟨s, hs, hread⟩ := Option.bind_eq_some_iff.1 hn
  obtain rfl := numeral_of_readNumeral hread
  exact ⟨_, Nat.toDigits_ne_nil, fun c hc ↦ isElementChar_of_mem_numeral hc,
    (PyStr.toStr?_eq_some_iff.1 hs).symm⟩

/-- No character of an element separates anything. -/
theorem separates_nothing {c : Char} (h : isElementChar c = true) :
    isBlankChar (.char c) = false ∧ punctuation (.char c) = none ∧
      endsCommand (.char c) = false := by
  have hne : ∀ d, isElementChar d = false → c ≠ d := by
    rintro d hd rfl
    rw [h] at hd
    exact absurd hd (by decide)
  simp [isBlankChar, punctuation, endsCommand, hne ' ' rfl, hne '\t' rfl, hne '\n' rfl, hne ';' rfl,
    hne '\x7b' rfl, hne '\x7d' rfl, hne ',' rfl]

theorem IsElementText.isName {e : PyStr} (h : IsElementText e) : IsName e := by
  obtain ⟨s, hne, hs, rfl⟩ := h
  refine ⟨by simpa [PyStr.ofStr] using hne, fun c hc ↦ ?_⟩
  obtain ⟨d, hd, rfl⟩ := List.mem_map.1 hc
  exact ⟨(separates_nothing (hs d hd)).1, (separates_nothing (hs d hd)).2.1⟩

theorem IsElementText.oneLine {e : PyStr} (h : IsElementText e) : OneLine e := by
  obtain ⟨s, -, hs, rfl⟩ := h
  intro c hc
  obtain ⟨d, hd, rfl⟩ := List.mem_map.1 hc
  exact (separates_nothing (hs d hd)).2.2

/-! ### What a script loads -/

/-- A command of a script that was taken: two closing braces at its end were read as one. -/
def readTaken (cmd : PyStr) : Option Command :=
  if [.char '\x7d', .char '\x7d'] <:+ cmd then readCommand cmd.dropLast else readCommand cmd

/-- A change of the set of that name. -/
def ActiveSets.modify (cfg : NftConfig) (s : ActiveSets) (set : PyStr)
    (addrs ports : Finset PyStr → Option (Finset PyStr)) : Option ActiveSets :=
  if set = ↑cfg.setAllowV4 then (addrs s.addrs).map fun es ↦ { s with addrs := es }
  else if set = ↑cfg.setTcpPorts then (ports s.tcpPorts).map fun es ↦ { s with tcpPorts := es }
  else if set = ↑cfg.setUdpPorts then (ports s.udpPorts).map fun es ↦ { s with udpPorts := es }
  else none

/-- Elements added to a set, if all of them are read. -/
def addElems {β : Type} (read : PyStr → Option β) (elems : List PyStr) (es : Finset PyStr) :
    Option (Finset PyStr) :=
  if elems.all fun e ↦ (read e).isSome then some (es ∪ elems.toFinset) else none

/-- What a command leaves in the three sets. -/
def loadCommand (cfg : NftConfig) (s : ActiveSets) : Command → Option ActiveSets
  | .flushSet f t set =>
    if f = ↑cfg.tableFamily ∧ t = ↑cfg.tableName then
      s.modify cfg set (fun _ ↦ some ∅) (fun _ ↦ some ∅)
    else none
  | .addElement f t set elems =>
    if f = ↑cfg.tableFamily ∧ t = ↑cfg.tableName then
      s.modify cfg set (addElems readAddrs elems) (addElems readPort elems)
    else none

/-- What a script leaves in the three sets. -/
def scriptSets (cfg : NftConfig) (script : PyStr) (s : ActiveSets) : Option ActiveSets :=
  ((commands script).mapM readTaken).bind (·.foldlM (loadCommand cfg) s)

-- one string with a comma in it is two elements
example :
    scriptSets .default (scriptText (scriptLines .default
      ["1.1.1.1, 2.2.2.2".toList, "10.0.0.0/8".toList, "1.1.2.1-1.1.2.9".toList] [] ["53".toList]))
        ⟨{PyStr.lit "9.9.9.9"}, ∅, ∅⟩ =
      some ⟨{PyStr.lit "1.1.1.1", PyStr.lit "2.2.2.2", PyStr.lit "10.0.0.0/8",
        PyStr.lit "1.1.2.1-1.1.2.9"}, ∅, {PyStr.lit "53"}⟩ := by
  decide +kernel

/-! ### Sets that are loaded as they are -/

/-- The script that loads exactly these sets. -/
def ActiveSets.loadScript (cfg : NftConfig) (s : ActiveSets) : PyStr :=
  scriptText (scriptLines cfg (sorted s.addrs) (sorted s.tcpPorts) (sorted s.udpPorts))

/-- Every address is an address, a block or a range, and every port is a port number. -/
structure ActiveSets.Readable (s : ActiveSets) : Prop where
  addrs : ∀ e ∈ s.addrs, (readAddrs e).isSome = true
  ports : ∀ proto, ∀ e ∈ s.ports proto, (readPort e).isSome = true

/-- The names of a configuration are words, and the three sets have three names. -/
structure NftConfig.Proper (cfg : NftConfig) : Prop where
  words : cfg.Words
  names : cfg.Names
  distinct : cfg.allowlist.Nodup

theorem NftConfig.proper_default : NftConfig.default.Proper :=
  ⟨words_default, names_default, by decide⟩

variable {cfg : NftConfig}

/-- A flush line is what it is. -/
theorem readTaken_flushLine (hcfg : cfg.Names) {set : Str} (hset : set ∈ cfg.allowlist) :
    readTaken (flushLine cfg set) = some (.flushSet cfg.tableFamily cfg.tableName set) := by
  rw [readTaken, if_neg, readCommand_flushLine hcfg hset]
  intro hbraces
  have hcount := count_rbrace_of_readCommand (readCommand_flushLine hcfg hset)
  have htwo := hbraces.sublist.count_le (.char '\x7d')
  rw [List.count_cons_self, List.count_cons_self] at htwo
  omega

/-- An `add element` line is read as the command that it was meant to be. -/
theorem readTaken_addLine (hcfg : cfg.Names) {set : Str} (hset : set ∈ cfg.allowlist)
    {elems : List PyStr} (hne : elems ≠ []) (h : ∀ e ∈ elems, IsName e) :
    readTaken (addLine cfg set elems) =
      some (.addElement cfg.tableFamily cfg.tableName set elems) := by
  have hbraces : [.char '\x7d', .char '\x7d'] <:+ addLine cfg set elems :=
    ⟨PyStr.ofStr (addHead cfg set) ++ ((PyStr.lit ", ").intercalate elems ++ [.char ' ']), by
      rw [addLine, List.append_assoc, List.append_assoc]
      rfl⟩
  rw [readTaken, if_pos hbraces, addLine_eq, List.dropLast_concat,
    readCommand_addText hcfg hset hne h]

/-- The `add element` command of a set, when there is anything to add. -/
def addCommands (cfg : NftConfig) (set : Str) (elems : List PyStr) : List Command :=
  if elems = [] then [] else [.addElement cfg.tableFamily cfg.tableName set elems]

theorem mapM_readTaken_addLines (hcfg : cfg.Names) {set : Str} (hset : set ∈ cfg.allowlist)
    {elems : List PyStr} (h : ∀ e ∈ elems, IsName e) :
    (addLines cfg set elems).mapM readTaken = some (addCommands cfg set elems) := by
  rw [addLines, addCommands]
  split
  · rfl
  · rename_i hne
    rw [List.mapM_cons, readTaken_addLine hcfg hset hne h]
    rfl

/-- The flush commands. -/
def flushCommands (cfg : NftConfig) : List Command :=
  cfg.allowlist.map fun set : Str ↦ .flushSet cfg.tableFamily cfg.tableName set

/-- The commands of the script. -/
theorem mapM_readTaken_scriptLines (hcfg : cfg.Names) {a t u : List PyStr}
    (h : ∀ e ∈ a ++ t ++ u, IsName e) :
    (scriptLines cfg a t u).mapM readTaken =
      some (flushCommands cfg ++ addCommands cfg cfg.setAllowV4 a ++
        addCommands cfg cfg.setTcpPorts t ++ addCommands cfg cfg.setUdpPorts u) := by
  have hflush : ∀ sets : List Str, sets ⊆ cfg.allowlist →
      (sets.map (flushLine cfg)).mapM readTaken =
        some (sets.map fun set : Str ↦ .flushSet cfg.tableFamily cfg.tableName set) := by
    intro sets hsets
    induction sets with
    | nil => rfl
    | cons set sets ih =>
      obtain ⟨hset, hsets⟩ := List.cons_subset.1 hsets
      rw [List.map_cons, List.mapM_cons, readTaken_flushLine hcfg hset, ih hsets]
      rfl
  have haddrs := @mapM_readTaken_addLines cfg hcfg cfg.setAllowV4 (by simp [NftConfig.allowlist]) a
    fun e he ↦ h e (by simp [he])
  have htcp := @mapM_readTaken_addLines cfg hcfg cfg.setTcpPorts (by simp [NftConfig.allowlist]) t
    fun e he ↦ h e (by simp [he])
  have hudp := @mapM_readTaken_addLines cfg hcfg cfg.setUdpPorts (by simp [NftConfig.allowlist]) u
    fun e he ↦ h e (by simp [he])
  rw [scriptLines, List.mapM_append, List.mapM_append, List.mapM_append, haddrs, htcp, hudp,
    hflush _ (List.Subset.refl _)]
  rfl

section Modify

variable (s : ActiveSets) (addrs ports : Finset PyStr → Option (Finset PyStr))

theorem ActiveSets.modify_addrs :
    s.modify cfg cfg.setAllowV4 addrs ports = (addrs s.addrs).map fun es ↦ { s with addrs := es } :=
  if_pos rfl

theorem ActiveSets.modify_tcpPorts (hcfg : cfg.allowlist.Nodup) :
    s.modify cfg cfg.setTcpPorts addrs ports =
      (ports s.tcpPorts).map fun es ↦ { s with tcpPorts := es } := by
  have hne : cfg.setAllowV4 ≠ cfg.setTcpPorts := by
    rintro heq
    simp [NftConfig.allowlist, heq] at hcfg
  rw [modify, if_neg (PyStr.ofStr_injective.ne hne.symm), if_pos rfl]

theorem ActiveSets.modify_udpPorts (hcfg : cfg.allowlist.Nodup) :
    s.modify cfg cfg.setUdpPorts addrs ports =
      (ports s.udpPorts).map fun es ↦ { s with udpPorts := es } := by
  have hne : cfg.setAllowV4 ≠ cfg.setUdpPorts := by
    rintro heq
    simp [NftConfig.allowlist, heq] at hcfg
  have hne' : cfg.setTcpPorts ≠ cfg.setUdpPorts := by
    rintro heq
    simp [NftConfig.allowlist, heq] at hcfg
  rw [modify, if_neg (PyStr.ofStr_injective.ne hne.symm),
    if_neg (PyStr.ofStr_injective.ne hne'.symm), if_pos rfl]

end Modify

/-- A command on the table of the configuration. -/
theorem loadCommand_addElement (s : ActiveSets) (set : PyStr) (elems : List PyStr) :
    loadCommand cfg s (.addElement cfg.tableFamily cfg.tableName set elems) =
      s.modify cfg set (addElems readAddrs elems) (addElems readPort elems) :=
  if_pos ⟨rfl, rfl⟩

theorem loadCommand_flushSet (s : ActiveSets) (set : PyStr) :
    loadCommand cfg s (.flushSet cfg.tableFamily cfg.tableName set) =
      s.modify cfg set (fun _ ↦ some ∅) (fun _ ↦ some ∅) :=
  if_pos ⟨rfl, rfl⟩

/-- The flush lines leave nothing. -/
theorem foldlM_flush (hcfg : cfg.allowlist.Nodup) (s : ActiveSets) :
    (flushCommands cfg).foldlM (loadCommand cfg) s = some ⟨∅, ∅, ∅⟩ := by
  simp only [flushCommands, NftConfig.allowlist, List.map_cons, List.map_nil, List.foldlM_cons,
    List.foldlM_nil, loadCommand_flushSet, ActiveSets.modify_addrs,
    ActiveSets.modify_tcpPorts _ _ _ hcfg, ActiveSets.modify_udpPorts _ _ _ hcfg, Option.map_some,
    Option.bind_eq_bind, Option.bind_some]
  rfl

/-- Elements that are read are added to an empty set. -/
theorem addElems_sorted {β : Type} {read : PyStr → Option β} {es : Finset PyStr}
    (h : ∀ e ∈ es, (read e).isSome = true) : addElems read (sorted es) ∅ = some es := by
  have hall : ((sorted es).all fun e ↦ (read e).isSome) = true :=
    List.all_eq_true.2 fun e he ↦ h e ((Finset.mem_sort _).1 he)
  rw [addElems, if_pos hall, Finset.empty_union, sorted, Finset.sort_toFinset]

/-- With nothing to add there is no command. -/
theorem foldlM_addCommands {set : Str} {es : Finset PyStr} {s s' : ActiveSets}
    (h : loadCommand cfg s (.addElement cfg.tableFamily cfg.tableName set (sorted es)) = some s')
    (hnil : es = ∅ → s = s') :
    (addCommands cfg set (sorted es)).foldlM (loadCommand cfg) s = some s' := by
  rw [addCommands]
  split
  · rename_i hempty
    rw [hnil ((sorted_eq_nil_iff es).1 hempty)]
    rfl
  · rw [List.foldlM_cons, h]
    rfl

/-- **Readable sets are what their script loads**, whatever was in the kernel's sets before. -/
theorem scriptSets_loadScript (hcfg : cfg.Proper) {sets : ActiveSets} (h : sets.Readable)
    (s : ActiveSets) : scriptSets cfg (sets.loadScript cfg) s = some sets := by
  have htext : ∀ e ∈ sorted sets.addrs ++ sorted sets.tcpPorts ++ sorted sets.udpPorts,
      IsElementText e := by
    intro e he
    simp only [sorted, List.mem_append, Finset.mem_sort] at he
    rcases he with (he | he) | he
    · exact isElementText_of_readAddrs (h.addrs e he)
    · exact isElementText_of_readPort (h.ports .tcp e he)
    · exact isElementText_of_readPort (h.ports .udp e he)
  rw [scriptSets, ActiveSets.loadScript,
    commands_applyScript hcfg.words fun e he ↦ (htext e he).oneLine,
    mapM_readTaken_scriptLines hcfg.names fun e he ↦ (htext e he).isName, Option.bind_some,
    List.foldlM_append, List.foldlM_append, List.foldlM_append, foldlM_flush hcfg.distinct]
  -- the three sets are filled one after the other
  have haddrs : (addCommands cfg cfg.setAllowV4 (sorted sets.addrs)).foldlM (loadCommand cfg)
      ⟨∅, ∅, ∅⟩ = some ⟨sets.addrs, ∅, ∅⟩ := by
    refine foldlM_addCommands ?_ fun hempty ↦ by rw [hempty]
    rw [loadCommand_addElement, ActiveSets.modify_addrs, addElems_sorted h.addrs, Option.map_some]
  have htcp : (addCommands cfg cfg.setTcpPorts (sorted sets.tcpPorts)).foldlM (loadCommand cfg)
      ⟨sets.addrs, ∅, ∅⟩ = some ⟨sets.addrs, sets.tcpPorts, ∅⟩ := by
    have hread : addElems readPort (sorted sets.tcpPorts) ∅ = some sets.tcpPorts :=
      addElems_sorted (h.ports .tcp)
    refine foldlM_addCommands ?_ fun hempty ↦ by rw [hempty]
    rw [loadCommand_addElement, ActiveSets.modify_tcpPorts _ _ _ hcfg.distinct, hread,
      Option.map_some]
  have hudp : (addCommands cfg cfg.setUdpPorts (sorted sets.udpPorts)).foldlM (loadCommand cfg)
      ⟨sets.addrs, sets.tcpPorts, ∅⟩ = some sets := by
    have hread : addElems readPort (sorted sets.udpPorts) ∅ = some sets.udpPorts :=
      addElems_sorted (h.ports .udp)
    refine foldlM_addCommands ?_ fun hempty ↦ by rw [← hempty]
    rw [loadCommand_addElement, ActiveSets.modify_udpPorts _ _ _ hcfg.distinct, hread,
      Option.map_some]
  simp only [Option.bind_eq_bind, Option.bind_some, haddrs, htcp, hudp]

end SourceOS.Gate
