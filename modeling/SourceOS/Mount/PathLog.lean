import SourceOS.Mount.MountRun

/-!
# What the log says about the tree

Whether the receipts of a run name every path whose entry the run has changed.

The log is written in **names**, the strings that callers pass; the tree is changed at **paths**. A
`Layout` relates the two for a backend: what stands at a path of a tree, and which path a name
denotes on a file system. `Layout.Local` is what a backend promises about it: creating and opening a
file changes the entry of its path, and of the directories above it that were missing; removing
changes the entry of its path.

A receipt carries the one name its call was gated on, as that call's file system reads it. The log
therefore misses the new path of a `Rename`, the directories a new file brings along, and the place
of everything that is done through a `Chroot` child. `Plain` excludes exactly these calls, and
`changed_paths_receipted` says that in a run without them nothing is missed.
-/

namespace SourceOS.Mount

open Go

/-- A reading of a backend's trees as entries at paths. -/
structure Layout (B : Billy) where
  /-- What can stand at a path. -/
  Entry : Type
  /-- What stands at a path of a tree. -/
  entry : B.Tree → List GoString → Option Entry
  /-- The path a name denotes on a file system. -/
  resolve : B.Fs → GoString → Option (List GoString)

/-- What a backend promises about where it changes the tree. -/
structure Layout.Local {B : Billy} (L : Layout B) : Prop where
  /-- `Create`. -/
  create : ∀ fs name t p, L.entry ((B.create fs name).run t).2 p ≠ L.entry t p →
    ∃ q, L.resolve fs name = some q ∧ (p = q ∨ p <+: q ∧ L.entry t p = none)
  /-- `OpenFile`. -/
  openFile : ∀ fs name flag perm t p,
    L.entry ((B.openFile fs name flag perm).run t).2 p ≠ L.entry t p →
      ∃ q, L.resolve fs name = some q ∧ (p = q ∨ p <+: q ∧ L.entry t p = none)
  /-- `Remove`. -/
  remove : ∀ fs name t p, L.entry ((B.remove fs name).run t).2 p ≠ L.entry t p →
    L.resolve fs name = some p

variable {B : Billy} {α : Type} {isPrint : ℕ → Bool} {f : InceptionFS B} {now : Clock}
  (L : Layout B)

/-- The name denotes on the wrapper what it denotes on the root of the space. -/
def Layout.Same (root : B.Fs) (f : InceptionFS B) (name : GoString) : Prop :=
  L.resolve f.filesystem name = L.resolve root name

/-- The directories above the path are there. -/
def Layout.Housed (root : B.Fs) (t : B.Tree) (name : GoString) : Prop :=
  ∀ q, L.resolve root name = some q → ∀ d, d <+: q → d ≠ q → L.entry t d ≠ none

/-- A request whose effect the name in its receipt tells. -/
def Plain (root : B.Fs) (f : InceptionFS B) (t : B.Tree) : Request → Prop
  | .method (.create name) => L.Same root f name ∧ L.Housed root t name
  | .method (.openFile name flag _) =>
    asksToWrite flag = true → L.Same root f name ∧ L.Housed root t name
  | .method (.remove name) => L.Same root f name
  | .method (.rename _ _) => False
  | _ => True

/-- A receipt of an allowed write whose path denotes `p` on the root of the space. -/
def Names (root : B.Fs) (p : List GoString) (r : Receipt) : Prop :=
  r.op = opWrite ∧ r.verdict = ascii "allow".toList ∧ L.resolve root r.path = some p

/-- The entry of a path was created, replaced or removed by one of the calls. -/
def ChangedIn (isPrint : ℕ → Bool) (w : World B) (calls : List Call) (p : List GoString) : Prop :=
  ∃ earlier c, earlier ++ [c] <+: calls ∧
    L.entry ((mount isPrint B).after w (earlier ++ [c])).seam.tree p ≠
      L.entry ((mount isPrint B).after w earlier).seam.tree p

variable {L}

/-- What a gated method has changed, the backend has changed, and the receipt says `allow`. -/
theorem changed_gated {op : Op} {path : GoString} {m : Method} {x : Effect GoString B.Tree α}
    {s : Seam B} {p : List GoString}
    (h : L.entry ((f.gated isPrint now op path m x).run s).2.tree p ≠ L.entry s.tree p) :
    L.entry (x.run s.tree).2 p ≠ L.entry s.tree p ∧
    ∃ r, ((f.gated isPrint now op path m x).run s).2.receipts.entries = s.receipts.entries ++ [r] ∧
      r.op = op ∧ r.verdict = ascii "allow".toList ∧ r.path = path := by
  rcases f.gated_cases op path m x s with ⟨reason, -, hrun⟩ | ⟨-, hrun⟩
  · rw [hrun] at h
    exact absurd rfl h
  · rw [hrun] at h ⊢
    exact ⟨h, _, rfl, rfl, rfl, rfl⟩

/-- Where the directories above a path are there, what a creation changes is the path itself. -/
private theorem eq_of_housed {root : B.Fs} {t : B.Tree} {name : GoString} {p q : List GoString}
    (hhoused : L.Housed root t name) (hq : L.resolve root name = some q)
    (hpq : p = q ∨ p <+: q ∧ L.entry t p = none) : p = q := by
  rcases hpq with hpq | ⟨hpre, hnone⟩
  · exact hpq
  · exact by_contra fun hne ↦ hhoused q hq p hpre hne hnone

/-- **One call.** If a plain call changes the entry of a path, it leaves a receipt that names it. -/
theorem changed_exec (hB : B.ReadsPurely) (hL : L.Local) {root : B.Fs} {s : Seam B} {m : Method}
    (hm : m.unguarded = false) (hplain : Plain L root f s.tree (.method m)) {p : List GoString}
    (h : L.entry ((f.exec isPrint now m).run s).2.tree p ≠ L.entry s.tree p) :
    ∃ r, ((f.exec isPrint now m).run s).2.receipts.entries = s.receipts.entries ++ [r] ∧
      Names L root p r := by
  -- A method that does not mutate has changed nothing, so one of the four gated ones is left.
  rcases hmut : m.mutates with _ | _
  · exact absurd (congrArg (L.entry · p) (frames_tree_exec_of_reads hB hmut s)) h
  cases m with
  | create name =>
    rw [InceptionFS.exec, Effect.run_bind_pure_snd] at h ⊢
    obtain ⟨hx, r, hr, hop, hverdict, hpath⟩ := changed_gated h
    obtain ⟨q, hq, hpq⟩ := hL.create _ _ _ _ hx
    rw [hplain.1] at hq
    exact ⟨r, hr, hop, hverdict, by rw [hpath, hq, eq_of_housed hplain.2 hq hpq]⟩
  | openFile name flag perm =>
    have hflag : asksToWrite flag = true := hmut
    rw [InceptionFS.exec, Effect.run_bind_pure_snd, InceptionFS.openFile, hflag] at h ⊢
    obtain ⟨hx, r, hr, hop, hverdict, hpath⟩ := changed_gated h
    obtain ⟨q, hq, hpq⟩ := hL.openFile _ _ _ _ _ _ hx
    obtain ⟨hsame, hhoused⟩ := hplain hflag
    rw [hsame] at hq
    exact ⟨r, hr, hop, hverdict, by rw [hpath, hq, eq_of_housed hhoused hq hpq]⟩
  | remove name =>
    rw [InceptionFS.exec, Effect.run_bind_pure_snd] at h ⊢
    obtain ⟨hx, r, hr, hop, hverdict, hpath⟩ := changed_gated h
    have hq := hL.remove _ _ _ _ hx
    rw [hplain] at hq
    exact ⟨r, hr, hop, hverdict, by rw [hpath, hq]⟩
  | rename oldpath newpath => exact hplain.elim
  | tempFile dir pre => exact absurd hm (by simp [Method.unguarded])
  | mkdirAll filename perm => exact absurd hm (by simp [Method.unguarded])
  | symlink target link => exact absurd hm (by simp [Method.unguarded])
  | _ => exact absurd hmut (by simp [Method.mutates])

/-- **One step.** -/
theorem changed_step (hB : B.ReadsPurely) (hL : L.Local) {root : B.Fs} {w : World B} {c : Call}
    (hguard : c.request.unguarded = false)
    (hplain : ∀ f, w.mounts[c.on]? = some f → Plain L root f w.seam.tree c.request)
    {p : List GoString}
    (h : L.entry ((mount isPrint B).step w c).1.seam.tree p ≠ L.entry w.seam.tree p) :
    ∃ r ∈ ((mount isPrint B).step w c).1.seam.receipts.entries, Names L root p r := by
  rcases @mount_step_cases B isPrint w c with ⟨-, hstep⟩ | ⟨f, hf, hstep⟩
  · rw [hstep] at h
    exact absurd rfl h
  · have hp := hplain f hf
    rw [hstep] at h ⊢
    rcases hreq : c.request with m | ⟨purpose, answer⟩ | snap
    · rw [hreq] at h hp hguard
      obtain ⟨r, hr, hnames⟩ := changed_exec hB hL hguard hp h
      refine ⟨r, ?_, hnames⟩
      show r ∈ ((f.exec isPrint c.now m).run w.seam).2.receipts.entries
      rw [hr]
      exact List.mem_append_right _ (List.mem_singleton_self r)
    · rw [hreq] at h
      exact absurd (congrArg (L.entry · p)
        (frames_tree_value (frames_tree_commit purpose answer) Value.version w.seam)) h
    · rw [hreq] at h
      exact absurd rfl h

/-- **The receipts name every changed path, in runs of plain calls.** Take a run of calls, none of
them an unguarded method, each of which is plain in the state it is made in: no `Rename`, every name
denoting on its wrapper what it denotes on the root of the space, and the directories above a file
that is created or opened for writing in place. Then every path whose entry the run has created,
replaced or removed is named by a receipt of an allowed write. -/
theorem changed_paths_receipted (isPrint : ℕ → Bool) {B : Billy} (hB : B.ReadsPurely)
    {L : Layout B} (hL : L.Local) (tree : B.Tree) (fs : B.Fs) (space : GoString)
    (lease : Option Lease) {calls : List Call}
    (hguard : ∀ c ∈ calls, c.request.unguarded = false)
    (hplain : ∀ earlier c, earlier ++ [c] <+: calls → ∀ f,
      ((mount isPrint B).after (World.mounted tree fs space lease) earlier).mounts[c.on]? = some f →
        Plain L fs f ((mount isPrint B).after (World.mounted tree fs space lease) earlier).seam.tree
          c.request) :
    ∀ p, ChangedIn L isPrint (World.mounted tree fs space lease) calls p →
      ∃ r ∈ ((mount isPrint B).after (World.mounted tree fs space lease)
        calls).seam.receipts.entries, Names L fs p r := by
  rintro p ⟨earlier, c, hpre, hchanged⟩
  have hmem : c ∈ calls := hpre.subset (by simp)
  rw [Machine.after_append, Machine.after_cons, Machine.after_nil] at hchanged
  obtain ⟨r, hr, hnames⟩ := changed_step hB hL (hguard c hmem) (hplain earlier c hpre) hchanged
  -- The log only grows, so the receipt is still there at the end of the run.
  refine ⟨r, ?_, hnames⟩
  obtain ⟨later, rfl⟩ := hpre
  rw [Machine.after_append, Machine.after_append, Machine.after_cons, Machine.after_nil]
  exact (grows_after _ later).2.subset hr

/-! ### The backend in memory -/

/-- The layout of the backend in memory. -/
def Memory.layout : Layout Memory.memory where
  Entry := Memory.Node
  entry := Memory.entry
  resolve fs name := (Memory.resolve fs name).toOption

/-- An entry that differs is not the root's. -/
private theorem get_ne_of_entry_ne {t u : Memory.Tree} {p : List GoString}
    (h : Memory.entry t p ≠ Memory.entry u p) :
    Memory.get t p ≠ Memory.get u p ∧ Memory.entry u p = Memory.get u p := by
  by_cases hp : p = []
  · rw [hp] at h
    exact absurd rfl h
  · have hentry : ∀ v, Memory.entry v p = Memory.get v p := fun v ↦ if_neg hp
    rw [hentry, hentry] at h
    exact ⟨h, hentry u⟩

private theorem open_local (fs : Memory.Path) (name : GoString) (flag : Flag) (t : Memory.Tree)
    (p : List GoString)
    (h : Memory.entry ((Memory.modify fs name (Memory.openAt name flag)).run t).2 p ≠
      Memory.entry t p) :
    ∃ q, (Memory.resolve fs name).toOption = some q ∧
      (p = q ∨ p <+: q ∧ Memory.entry t p = none) := by
  obtain ⟨hget, hentry⟩ := get_ne_of_entry_ne h
  obtain ⟨q, hq, hopen⟩ := Memory.resolve_of_modify hget
  refine ⟨q, by rw [hq]; rfl, ?_⟩
  rw [hentry]
  exact Memory.get_openAt hopen

/-- **The backend in memory keeps its promises.** -/
theorem Memory.layout_local : Memory.layout.Local where
  create fs name t p h := open_local fs name _ t p h
  openFile fs name flag _ t p h := open_local fs name flag t p h
  remove fs name t p h := by
    obtain ⟨hget, -⟩ := get_ne_of_entry_ne h
    obtain ⟨q, hq, hremove⟩ := Memory.resolve_of_modify hget
    show (Memory.resolve fs name).toOption = some p
    rw [hq, Memory.get_removeAt hremove]
    rfl

/-- The lease of an editor, for the space `demo-space`. -/
def editor : Lease :=
  readWriteLease (ascii "editor".toList) (ascii "demo-space".toList) (ascii "edit".toList)

/-- Above a path of one component there is only the root. -/
theorem housed_of_resolve {t : Memory.Tree} {name x : GoString}
    (h : (Memory.resolve [] name).toOption = some [x]) : Memory.layout.Housed [] t name := by
  intro q hq d hd hne
  obtain rfl : [x] = q := Option.some.inj (h.symm.trans hq)
  rcases List.prefix_cons_iff.1 hd with rfl | ⟨u, rfl, hu⟩
  · show (some Memory.Node.dir) ≠ none
    simp
  · rw [List.prefix_nil.1 hu] at hne
    exact absurd rfl hne

/-- Two files are made on the root of the space, one of them is removed again, and the receipts name
both. -/
theorem changed_paths_receipted_thrice :
    let start := World.mounted (B := Memory.memory) [] [] (ascii "demo-space".toList) (some editor)
    let calls := [Call.at 0 (.create (ascii "f".toList)),
      Call.at 0 (.openFile (ascii "g".toList) (oWronly ||| oCreate) 0o644),
      Call.at 0 (.remove (ascii "f".toList))]
    ∀ name ∈ ["f", "g"], ChangedIn Memory.layout (fun _ ↦ false) start calls [ascii name.toList] ∧
      ∃ r ∈ ((mount (fun _ ↦ false) Memory.memory).after start calls).seam.receipts.entries,
        Names Memory.layout [] [ascii name.toList] r := by
  intro start calls
  have hplain : (mount (fun _ ↦ false) Memory.memory).Along
      (fun w c ↦ ∀ f, w.mounts[c.on]? = some f → Plain Memory.layout [] f w.seam.tree c.request)
      start calls := by
    refine ⟨fun f hf ↦ ?_, fun f hf ↦ ?_, fun f hf ↦ ?_, trivial⟩
    · obtain rfl := Option.some.inj hf
      exact ⟨rfl, housed_of_resolve rfl⟩
    · obtain rfl := Option.some.inj hf
      exact fun _ ↦ ⟨rfl, housed_of_resolve rfl⟩
    · obtain rfl := Option.some.inj hf
      exact rfl
  have hchanged : ∀ name ∈ ["f", "g"],
      ChangedIn Memory.layout (fun _ ↦ false) start calls [ascii name.toList] := by
    rw [List.forall_mem_cons, List.forall_mem_singleton]
    constructor
    · refine ⟨[], _, ⟨_, rfl⟩, ?_⟩
      show (some (Memory.Node.file [])) ≠ none
      simp
    · refine ⟨[Call.at 0 (.create (ascii "f".toList))], _, ⟨_, rfl⟩, ?_⟩
      show (some (Memory.Node.file [])) ≠ none
      simp
  intro name hname
  refine ⟨hchanged name hname, changed_paths_receipted (fun _ ↦ false) Memory.readsPurely
    Memory.layout_local _ _ _ _ ?_ (fun earlier c hpre ↦ hplain.of_prefix hpre) _
    (hchanged name hname)⟩
  simp [calls, Call.at, Request.unguarded, Method.unguarded]

/-- **A renamed file: its new path is not named.** The only receipt names the old path. -/
theorem renamed_path_unnamed :
    let start := World.mounted (B := Memory.memory) [([ascii "a".toList], .file [])] []
      (ascii "demo-space".toList) (some editor)
    let calls := [Call.at 0 (.rename (ascii "a".toList) (ascii "b".toList))]
    ChangedIn Memory.layout (fun _ ↦ false) start calls [ascii "b".toList] ∧
      ∀ r ∈ ((mount (fun _ ↦ false) Memory.memory).after start calls).seam.receipts.entries,
        r.path = ascii "a".toList ∧ ¬ Names Memory.layout [] [ascii "b".toList] r := by
  intro start calls
  refine ⟨⟨[], _, List.prefix_rfl, ?_⟩, fun r hr ↦ ?_⟩
  · show (some (Memory.Node.file [])) ≠ none
    simp
  · rw [List.mem_singleton.1 hr]
    refine ⟨rfl, fun h ↦ ?_⟩
    have hpath : (some [ascii "a".toList]) = some [ascii "b".toList] := h.2.2
    exact absurd hpath (by decide)

end SourceOS.Mount
