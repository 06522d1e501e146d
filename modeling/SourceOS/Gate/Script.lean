import SourceOS.Gate.GrantLog
import SourceOS.Gate.Nft

/-!
# What the script can say

The script of `apply_sets` as `nft` reads it: cut into commands at newlines and semicolons, each
command a list of words. `Allowed` is the promise of the module's header — only the allowlist sets
are mutated, the ruleset is never flushed — as a decidable property of one command.

Whatever the sets hold, the six lines are allowed commands *as lines* (`allowed_flushLine`,
`allowed_addLine`): nothing in an element reaches the first five words. What an element can do is
end the line. So the commands are the lines (`commands_applyScript`) as long as no element contains
a separator, and the elements are targets of accepted grants, which the store takes as they come:
**one newline or semicolon in a target is the only way out**, and a target that has one gets
whatever follows it executed (`flush_ruleset_smuggled`).
-/

namespace SourceOS.Gate

open Text

/-! ### Commands -/

/-- The characters `nft` ends a command at. -/
def endsCommand (c : PyChar) : Bool :=
  c == .char '\n' || c == .char ';'

/-- The characters between words. -/
def isBlankChar (c : PyChar) : Bool :=
  c == .char ' ' || c == .char '\t'

/-- The words of a command. -/
def words (s : PyStr) : List PyStr :=
  (s.splitOnP isBlankChar).filter fun w ↦ !w.isEmpty

/-- The commands of a script; a piece without words is none. -/
def commands (script : PyStr) : List PyStr :=
  (script.splitOnP endsCommand).filter fun cmd ↦ !(words cmd).isEmpty

/-- The command flushes an allowlist set or adds elements to one. -/
def Allowed (cfg : NftConfig) (cmd : PyStr) : Prop :=
  ∃ set ∈ cfg.allowlist,
    words cmd =
        [PyStr.lit "flush", PyStr.lit "set", ↑cfg.tableFamily, ↑cfg.tableName, ↑set] ∨
      [PyStr.lit "add", PyStr.lit "element", ↑cfg.tableFamily, ↑cfg.tableName, ↑set] <+: words cmd

instance (cfg : NftConfig) (cmd : PyStr) : Decidable (Allowed cfg cmd) :=
  inferInstanceAs (Decidable (∃ set ∈ _, _))

/-- A name that is one word of one command. -/
def IsWord (w : PyStr) : Prop :=
  w ≠ [] ∧ ∀ c ∈ w, isBlankChar c = false ∧ endsCommand c = false

instance (w : PyStr) : Decidable (IsWord w) :=
  @instDecidableAnd _ _ _ (List.decidableBAll _ w)

/-- The configured names are words. -/
structure NftConfig.Words (cfg : NftConfig) : Prop where
  family : IsWord cfg.tableFamily
  table : IsWord cfg.tableName
  sets : ∀ s ∈ cfg.allowlist, IsWord s

theorem NftConfig.words_default : NftConfig.default.Words :=
  ⟨by decide, by decide, by decide⟩

/-! ### The lines are allowed commands -/

/-- A word before a space is the first word. -/
theorem words_append_space {w : PyStr} (hw : IsWord w) (rest : PyStr) :
    words (w ++ .char ' ' :: rest) = w :: words rest := by
  rw [words, List.splitOnP_append_cons_of_forall_mem (fun x hx ↦ (hw.2 x hx).1) (.char ' ') rfl,
    List.filter_cons_of_pos (by simpa using hw.1), words]

/-- A word at the end is the only one. -/
theorem words_of_isWord {w : PyStr} (hw : IsWord w) : words w = [w] := by
  rw [words, List.splitOnP_eq_singleton fun x hx ↦ (hw.2 x hx).1,
    List.filter_cons_of_pos (by simpa using hw.1), List.filter_nil]

variable {cfg : NftConfig}

/-- A flush line, word by word. -/
theorem flushLine_eq (set : Str) :
    flushLine cfg set = PyStr.lit "flush" ++ .char ' ' :: (PyStr.lit "set" ++
      .char ' ' :: (PyStr.ofStr cfg.tableFamily ++ .char ' ' :: (PyStr.ofStr cfg.tableName ++
        .char ' ' :: PyStr.ofStr set))) := by
  have hwords : PyStr.ofStr "flush set ".toList =
      PyStr.lit "flush" ++ .char ' ' :: (PyStr.lit "set" ++ [.char ' ']) := rfl
  simp only [flushLine, hwords, PyStr.ofStr_append, PyStr.ofStr_cons, List.append_assoc,
    List.cons_append, List.nil_append]

/-- The first half of an `add element` line, word by word. -/
theorem addHead_eq (set : Str) :
    (PyStr.ofStr (addHead cfg set) : PyStr) = (PyStr.lit "add" ++ .char ' ' ::
      (PyStr.lit "element" ++ .char ' ' :: (PyStr.ofStr cfg.tableFamily ++ .char ' ' ::
        (PyStr.ofStr cfg.tableName ++ .char ' ' :: (PyStr.ofStr set ++ .char ' ' ::
          PyStr.lit "\x7b ")))) : PyStr) := by
  have hwords : PyStr.ofStr "add element ".toList =
      PyStr.lit "add" ++ .char ' ' :: (PyStr.lit "element" ++ [.char ' ']) := rfl
  have hopen : PyStr.ofStr " \x7b ".toList = .char ' ' :: PyStr.lit "\x7b " := rfl
  unfold addHead
  rw [PyStr.ofStr_append, hwords, PyStr.ofStr_append, PyStr.ofStr_cons, PyStr.ofStr_append,
    PyStr.ofStr_cons, PyStr.ofStr_append, hopen]
  simp only [List.append_assoc, List.cons_append, List.nil_append]

theorem words_flushLine (hcfg : cfg.Words) {set : Str} (hset : set ∈ cfg.allowlist) :
    words (flushLine cfg set) =
      [PyStr.lit "flush", PyStr.lit "set", ↑cfg.tableFamily, ↑cfg.tableName, ↑set] := by
  rw [flushLine_eq, words_append_space (by decide), words_append_space (by decide),
    words_append_space hcfg.family, words_append_space hcfg.table,
    words_of_isWord (hcfg.sets set hset)]

theorem words_addLine (hcfg : cfg.Words) {set : Str} (hset : set ∈ cfg.allowlist)
    (elems : List PyStr) :
    ∃ more, words (addLine cfg set elems) =
      [PyStr.lit "add", PyStr.lit "element", ↑cfg.tableFamily, ↑cfg.tableName, ↑set] ++ more := by
  rw [addLine, addHead_eq]
  simp only [List.append_assoc, List.cons_append]
  rw [words_append_space (by decide), words_append_space (by decide),
    words_append_space hcfg.family, words_append_space hcfg.table,
    words_append_space (hcfg.sets set hset)]
  exact ⟨_, rfl⟩

/-- **Every line is an allowed command**, whatever the elements are. -/
theorem allowed_of_mem_scriptLines (hcfg : cfg.Words) {a t u : List PyStr} {line : PyStr}
    (h : line ∈ scriptLines cfg a t u) : Allowed cfg line := by
  have hadd : ∀ {set : Str} {elems : List PyStr}, set ∈ cfg.allowlist →
      line ∈ addLines cfg set elems → Allowed cfg line := by
    intro set elems hset hmem
    unfold addLines at hmem
    split at hmem
    · exact absurd hmem List.not_mem_nil
    · obtain ⟨more, hmore⟩ := words_addLine hcfg hset elems
      rw [List.mem_singleton.1 hmem]
      exact ⟨set, hset, Or.inr ⟨more, hmore.symm⟩⟩
  simp only [scriptLines, List.mem_append] at h
  rcases h with ((h | h) | h) | h
  · obtain ⟨set, hset, rfl⟩ := List.mem_map.1 h
    exact ⟨set, hset, Or.inl (words_flushLine hcfg hset)⟩
  · exact hadd (by simp [NftConfig.allowlist]) h
  · exact hadd (by simp [NftConfig.allowlist]) h
  · exact hadd (by simp [NftConfig.allowlist]) h

/-! ### The lines are the commands -/

/-- A text without separators. -/
def OneLine (s : PyStr) : Prop :=
  ∀ c ∈ s, endsCommand c = false

instance (s : PyStr) : Decidable (OneLine s) :=
  List.decidableBAll _ s

theorem oneLine_append {s t : PyStr} : OneLine (s ++ t) ↔ OneLine s ∧ OneLine t :=
  List.forall_mem_append

theorem oneLine_cons {c : PyChar} {s : PyStr} :
    OneLine (c :: s) ↔ endsCommand c = false ∧ OneLine s :=
  List.forall_mem_cons

/-- Lines without separators come back as they are. -/
theorem splitOnP_scriptText {lines : List PyStr} (h : ∀ line ∈ lines, OneLine line)
    (hne : lines ≠ []) :
    (scriptText lines).splitOnP endsCommand = lines ++ [[]] := by
  induction lines with
  | nil => exact absurd rfl hne
  | cons line lines ih =>
    have hline := h line List.mem_cons_self
    rcases lines with - | ⟨next, rest⟩
    · rw [scriptText, List.intercalate_singleton,
        List.splitOnP_append_cons_of_forall_mem hline (.char '\n') rfl]
      rfl
    · rw [scriptText, List.intercalate_cons_of_ne_nil (List.cons_ne_nil _ _), List.append_assoc,
        List.append_assoc, List.singleton_append,
        List.splitOnP_append_cons_of_forall_mem hline (.char '\n') rfl, ← scriptText,
        ih (fun l hl ↦ h l (List.mem_cons_of_mem _ hl)) (List.cons_ne_nil _ _)]
      rfl

theorem oneLine_intercalate {sep : PyStr} (hsep : OneLine sep) {elems : List PyStr}
    (h : ∀ e ∈ elems, OneLine e) : OneLine (sep.intercalate elems) := by
  induction elems with
  | nil => exact fun _ hc ↦ absurd hc List.not_mem_nil
  | cons e es ih =>
    have he := h e List.mem_cons_self
    rcases es with - | ⟨e', es⟩
    · rwa [List.intercalate_singleton]
    · rw [List.intercalate_cons_of_ne_nil (List.cons_ne_nil _ _)]
      exact oneLine_append.2 ⟨oneLine_append.2 ⟨he, hsep⟩,
        ih fun e'' h'' ↦ h e'' (List.mem_cons_of_mem _ h'')⟩

theorem IsWord.oneLine {w : PyStr} (h : IsWord w) : OneLine w :=
  fun c hc ↦ (h.2 c hc).2

theorem oneLine_flushLine (hcfg : cfg.Words) {set : Str} (hset : set ∈ cfg.allowlist) :
    OneLine (flushLine cfg set) := by
  unfold flushLine
  simp only [PyStr.ofStr_append, PyStr.ofStr_cons, oneLine_append, oneLine_cons]
  exact ⟨by decide, hcfg.family.oneLine, rfl, hcfg.table.oneLine, rfl,
    (hcfg.sets set hset).oneLine⟩

theorem oneLine_addLine (hcfg : cfg.Words) {set : Str} (hset : set ∈ cfg.allowlist)
    {elems : List PyStr} (h : ∀ e ∈ elems, OneLine e) : OneLine (addLine cfg set elems) := by
  unfold addLine addHead
  simp only [PyStr.ofStr_append, PyStr.ofStr_cons, oneLine_append, oneLine_cons]
  exact ⟨⟨by decide, hcfg.family.oneLine, rfl, hcfg.table.oneLine, rfl,
    (hcfg.sets set hset).oneLine, by decide⟩, oneLine_intercalate (by decide) h, by decide⟩

/-- No line contains a separator if no element does. -/
theorem oneLine_of_mem_scriptLines (hcfg : cfg.Words) {a t u : List PyStr}
    (h : ∀ e ∈ a ++ t ++ u, OneLine e) {line : PyStr} (hline : line ∈ scriptLines cfg a t u) :
    OneLine line := by
  have hadd : ∀ {set : Str} {elems : List PyStr}, set ∈ cfg.allowlist →
      (∀ e ∈ elems, OneLine e) → line ∈ addLines cfg set elems → OneLine line := by
    intro set elems hset helems hmem
    unfold addLines at hmem
    split at hmem
    · exact absurd hmem List.not_mem_nil
    · rw [List.mem_singleton.1 hmem]
      exact oneLine_addLine hcfg hset helems
  simp only [scriptLines, List.mem_append] at hline h
  rcases hline with ((hline | hline) | hline) | hline
  · obtain ⟨set, hset, rfl⟩ := List.mem_map.1 hline
    exact oneLine_flushLine hcfg hset
  · exact hadd (by simp [NftConfig.allowlist]) (fun e he ↦ h e (Or.inl (Or.inl he))) hline
  · exact hadd (by simp [NftConfig.allowlist]) (fun e he ↦ h e (Or.inl (Or.inr he))) hline
  · exact hadd (by simp [NftConfig.allowlist]) (fun e he ↦ h e (Or.inr he)) hline

/-- **The commands of the script are its lines**, if no element contains a separator. -/
theorem commands_applyScript (hcfg : cfg.Words) {a t u : List PyStr}
    (h : ∀ e ∈ a ++ t ++ u, OneLine e) :
    commands (scriptText (scriptLines cfg a t u)) = scriptLines cfg a t u := by
  have hwords : ∀ line ∈ scriptLines cfg a t u, (!(words line).isEmpty) = true := by
    intro line hline
    obtain ⟨set, -, hset | ⟨more, hset⟩⟩ := allowed_of_mem_scriptLines hcfg hline
    · rw [hset]
      rfl
    · rw [← hset]
      rfl
  rw [commands, splitOnP_scriptText (fun line ↦ oneLine_of_mem_scriptLines hcfg h)
    (by simp [scriptLines, NftConfig.allowlist]), List.filter_append, List.filter_eq_self.2 hwords]
  exact List.append_nil _

/-- **A script whose elements contain no separator has allowed commands only.** -/
theorem allowed_of_mem_commands (hcfg : cfg.Words) {a t u : List PyStr}
    (h : ∀ e ∈ a ++ t ++ u, OneLine e) {cmd : PyStr}
    (hcmd : cmd ∈ commands (scriptText (scriptLines cfg a t u))) : Allowed cfg cmd := by
  rw [commands_applyScript hcfg h] at hcmd
  exact allowed_of_mem_scriptLines hcfg hcmd

/-! ### Every script of every run -/

section Numerals

variable {gs : List Grant} (h : ∀ g ∈ gs, ∀ n ∈ g.ports, Python.HasNumeral n)

include h

/-- A member of the port unions is a numeral. -/
theorem numeral_of_mem_ports {p : Grant → Bool} {e : PyStr}
    (he : e ∈ ((gs.filter p).flatMap fun g ↦ g.ports.map PyStr.ofInt).toFinset) :
    ∃ n : ℤ, Python.HasNumeral n ∧ PyStr.ofInt n = e := by
  obtain ⟨g, hg, hge⟩ := List.mem_flatMap.1 (List.mem_toFinset.1 he)
  obtain ⟨n, hn, hne⟩ := List.mem_map.1 hge
  exact ⟨n, h g (List.mem_filter.1 hg).1 n hn, hne⟩

/-- The ports of the unions are numerals, so `apply_sets` always gets to its script. -/
theorem elementSets_union (py : Runtime) :
    elementSets py (ActiveSets.union gs) =
      .ok { ActiveSets.union gs with addrs := elementAddrs (ActiveSets.union gs).addrs } :=
  elementSets_of_numerals py (fun _ hp ↦ numeral_of_mem_ports h hp) fun _ hp ↦
    numeral_of_mem_ports h hp

theorem applyScript_union (py : Runtime) (cfg : NftConfig) :
    applyScript py cfg (ActiveSets.union gs) =
      .ok (scriptText (scriptLines cfg (sorted (elementAddrs (ActiveSets.union gs).addrs))
        (sorted (ActiveSets.union gs).tcpPorts) (sorted (ActiveSets.union gs).udpPorts))) := by
  rw [applyScript, elementSets_union h]
  rfl

end Numerals

/-- **Every set that is computed has a script.** -/
theorem applyScript_of_computed {py : Runtime} (cfg : NftConfig) {calls : List StoreCall}
    {env : ReadEnv} {sets : ActiveSets}
    (hsets : computeActiveSets py env ((store py).after Db.empty calls) = .ok sets) :
    applyScript py cfg sets =
      .ok (scriptText (scriptLines cfg (sorted (elementAddrs sets.addrs)) (sorted sets.tcpPorts)
        (sorted sets.udpPorts))) := by
  obtain rfl := computeActiveSets_ok_of_stands py (stands_after py calls) hsets
  exact applyScript_union
    (fun g hg ↦ numerals_accepted py (mem_accepted_of_mem_unexpired py hg)) py cfg

/-- A target that is no danger to the script: it is blank without the host mask, and then it is left
out, or it contains no separator. -/
def SafeTarget (x : PyStr) : Prop :=
  PyStr.isBlank (dropHostMask x) = true ∨ OneLine x

instance (x : PyStr) : Decidable (SafeTarget x) :=
  inferInstanceAs (Decidable (_ ∨ _))

/-- The elements that come from safe targets contain no separator. -/
theorem oneLine_of_mem_elementAddrs {gs : List Grant}
    (h : ∀ g ∈ gs, ∀ x ∈ g.targets, SafeTarget x.val) {e : PyStr}
    (he : e ∈ elementAddrs (ActiveSets.union gs).addrs) : OneLine e := by
  obtain ⟨y, hy, rfl⟩ := Finset.mem_image.1 he
  obtain ⟨hy, hblank⟩ := Finset.mem_filter.1 hy
  obtain ⟨g, hg, hgy⟩ := List.mem_flatMap.1 (List.mem_toFinset.1 hy)
  obtain ⟨x, hx, rfl⟩ := List.mem_map.1 hgy
  rcases h g hg x hx with hsafe | hsafe
  · rw [hsafe] at hblank
    exact absurd hblank (by decide)
  · exact fun c hc ↦ hsafe c (mem_of_mem_replace_nil (mem_of_mem_replace_nil hc))

theorem oneLine_ofInt (n : ℤ) : OneLine (PyStr.ofInt n) := by
  intro c hc
  obtain ⟨d, hd, rfl⟩ := List.mem_map.1 hc
  have hnl : d ≠ '\n' := fun h ↦ not_mem_decimal (by decide) (by decide) n (h ▸ hd)
  have hsemi : d ≠ ';' := fun h ↦ not_mem_decimal (by decide) (by decide) n (h ▸ hd)
  simp [endsCommand, hnl, hsemi]

theorem oneLine_of_mem_ports {gs : List Grant} {e : PyStr}
    (he : e ∈ (gs.flatMap fun g ↦ g.ports.map PyStr.ofInt).toFinset) : OneLine e := by
  obtain ⟨g, -, hge⟩ := List.mem_flatMap.1 (List.mem_toFinset.1 he)
  obtain ⟨n, -, rfl⟩ := List.mem_map.1 hge
  exact oneLine_ofInt n

variable (py : Runtime)

/-- **The gate only ever touches its three allowlist sets**, in every run whose accepted grants have
safe targets: whenever such a run is followed by an `apply`, at any time, the sets it computes have
a script, and every command of the script flushes or adds to one of the three. -/
theorem apply_touches_allowlist_only (hcfg : cfg.Words) {calls : List StoreCall}
    (htargets : ∀ g ∈ accepted ((store py).trace Db.empty calls),
      ∀ x ∈ g.targets, SafeTarget x.val)
    {env : ReadEnv} {sets : ActiveSets}
    (hsets : computeActiveSets py env ((store py).after Db.empty calls) = .ok sets) :
    ∃ script, applyScript py cfg sets = .ok script ∧ ∀ cmd ∈ commands script, Allowed cfg cmd := by
  refine ⟨_, applyScript_of_computed cfg hsets,
    fun cmd hcmd ↦ allowed_of_mem_commands hcfg ?_ hcmd⟩
  obtain rfl := computeActiveSets_ok_of_stands py (stands_after py calls) hsets
  intro e he
  simp only [sorted, List.mem_append, Finset.mem_sort] at he
  rcases he with (he | he) | he
  · exact oneLine_of_mem_elementAddrs
      (fun g hg ↦ htargets g (mem_accepted_of_mem_unexpired py hg)) he
  · exact oneLine_of_mem_ports he
  · exact oneLine_of_mem_ports he

/-- One host, and one target that is only a host mask. -/
theorem apply_touches_allowlist_only_of_host :
    ∃ sets script,
      computeActiveSets .ascii (.quiet 2) ((store .ascii).after Db.empty
        [.install (.quiet 1)
          ⟨"a".toList, "1".toList, 90, ["1.1.1.1/32".toList, "/32".toList], [443], "tcp".toList⟩]) =
        .ok sets ∧
      applyScript .ascii .default sets = .ok script ∧
      ∀ cmd ∈ commands script, Allowed .default cmd := by
  have hsets := computeActiveSets_after .ascii (@ClockUpTo.prunedUpTo 2
    [.install (.quiet 1)
      ⟨"a".toList, "1".toList, 90, ["1.1.1.1/32".toList, "/32".toList], [443], "tcp".toList⟩]
    (by decide))
  obtain ⟨script, hscript, hallowed⟩ :=
    apply_touches_allowlist_only .ascii NftConfig.words_default (by decide) hsets
  exact ⟨_, script, hsets, hscript, hallowed⟩

/-- **A newline in a target is a command of its own.** The store accepts the target, the script is
built, and one of its commands flushes the whole ruleset. -/
theorem flush_ruleset_smuggled :
    ∃ sets script,
      computeActiveSets .ascii (.quiet 2) ((store .ascii).after Db.empty
        [.install (.quiet 1)
          ⟨"a".toList, "1".toList, 90, ["1.1.1.1 \x7d\nflush ruleset\n#".toList], [],
            "tcp".toList⟩]) = .ok sets ∧
      applyScript .ascii .default sets = .ok script ∧
      PyStr.lit "flush ruleset" ∈ commands script ∧
      ¬ Allowed .default (PyStr.lit "flush ruleset") := by
  have hsets := computeActiveSets_after .ascii (@ClockUpTo.prunedUpTo 2
    [.install (.quiet 1)
      ⟨"a".toList, "1".toList, 90, ["1.1.1.1 \x7d\nflush ruleset\n#".toList], [],
        "tcp".toList⟩] (by decide))
  refine ⟨_, _, hsets, applyScript_union (by decide) _ _, ?_, by decide⟩
  -- the three sets, which `sort` can be evaluated on
  have haddrs : elementAddrs (ActiveSets.union (unexpired 2 (accepted ((store .ascii).trace Db.empty
      [.install (.quiet 1)
        ⟨"a".toList, "1".toList, 90, ["1.1.1.1 \x7d\nflush ruleset\n#".toList], [],
          "tcp".toList⟩])))).addrs =
        {PyStr.lit "1.1.1.1 \x7d\nflush ruleset\n#"} := by decide
  have hports : sorted ∅ = [] := Finset.sort_empty _
  rw [haddrs]
  simp only [sorted, Finset.sort_singleton]
  show PyStr.lit "flush ruleset" ∈
    commands (scriptText (scriptLines .default _ (sorted ∅) (sorted ∅)))
  rw [hports]
  decide

end SourceOS.Gate
