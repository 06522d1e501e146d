import SourceOS.Mount.Replicate

/-!
# The hash of a frozen version

`DevSnapshotter.Snapshot` hashes the **working tree** and freezes a read-only **copy** of it. The
hash takes in the mode of every file, and the copy gives every file the mode 0444 less the umask. So
the hash of what was frozen is the hash of the working tree *with this mode throughout*; it is the
ID of the version exactly when the files of the working tree had this mode already:
`frozen_hash_is_id_iff`.

The entries of both trees stand under the same paths, and under the same paths nothing can be
regrouped (`LineFormat.eq_of_listing_eq_of_names`): the two texts that are digested differ whenever
a mode does.
-/

namespace SourceOS.Mount

open Go Filepath Os Sha256

/-! ### Paths of places -/

/-- The absolute path of a place. -/
def pathOf (x : Location) : GoString :=
  0x2f :: [0x2f].intercalate x.reverse

/-- The place of an absolute path. -/
def placeOf (path : GoString) : Location :=
  target [] path

/-- **A path leads to its place.** -/
theorem placeOf_pathOf {x : Location} (hx : ∀ c ∈ x, IsFileName c) : placeOf (pathOf x) = x := by
  rcases eq_or_ne x [] with rfl | hne
  · decide
  · have hsplit : (pathOf x).splitOn 0x2f = [] :: x.reverse := by
      rcases hrev : x.reverse with _ | ⟨c, cs⟩
      · exact absurd (List.reverse_eq_nil_iff.1 hrev) hne
      · have hpath : pathOf x = [0x2f].intercalate ([] :: c :: cs) := by
          rw [pathOf, hrev]
          rfl
        rw [hpath]
        refine List.splitOn_intercalate _ (fun b hb ↦ ?_) (by simp)
        rcases List.mem_cons.1 hb with rfl | hb
        · exact List.not_mem_nil
        · exact (hx b (List.mem_reverse.1 (hrev ▸ hb))).1.2.2.2
    have hnames : ∀ c ∈ x.reverse, IsName c := fun c hc ↦ (hx c (List.mem_reverse.1 hc)).1
    rw [placeOf, target, hsplit, List.reverse_nil, List.nil_append, cleanParts,
      if_pos (Or.inl rfl), ← List.append_nil x.reverse, cleanParts_append_of_names hnames]
    simp [cleanParts]

/-! ### Snapshots on a disk -/

/-- The process may read what a walk comes past. -/
def MayRead (p : Process) : Location × Entry → Prop
  | (_, .dir) => True
  | (_, .file mode _) => p.Permits 0o400 mode

instance (p : Process) : DecidablePred (MayRead p)
  | (_, .dir) => inferInstanceAs (Decidable True)
  | (_, .file mode _) => inferInstanceAs (Decidable (p.Permits 0o400 mode))

/-- `hashTree` of what is at a place. -/
def hashTreeOnDisk (p : Process) (root : Location) : Effect Errno Disk GoString := fun d ↦
  if d.stat root = none then (.error .ENOENT, d)
  else if ∀ e ∈ d.walk root, MayRead p e then (.ok (hashTree (workTree d root)), d)
  else (.error .EACCES, d)

/-- The version of a hash in a store. -/
def versionIn (store : Location) (h : GoString) : Version :=
  ⟨h, pathOf (h :: store), ascii "dev".toList⟩

/-- `Snapshot` of the tree at a place, into a store that is not below it. The errors are those of
the calls, without the texts that are put before them. -/
def snapshotOnDisk (p : Process) (root store : Location) : Effect Errno Disk Version :=
  hashTreeOnDisk p root >>= fun h ↦ fun d ↦
    if d.stat (h :: store) ≠ none then (.ok (versionIn store h), d)
    else (copyTreeReadOnlyOnDisk p root (h :: store) >>= fun _ ↦ pure (versionIn store h)).run d

/-! ### One mode for all files -/

/-- A file with another mode. -/
def File.withMode (mode : UInt32) (f : File) : File :=
  { f with mode := mode }

/-- What a walk comes past, with another mode if it is a file. -/
def Item.withMode (mode : UInt32) : Item → Item
  | .dir rel => .dir rel
  | .file f => .file (f.withMode mode)

theorem filterMap_map_withMode (mode : UInt32) (items : List Item) :
    (items.map (Item.withMode mode)).filterMap Item.file? =
      (items.filterMap Item.file?).map (File.withMode mode) := by
  rw [List.filterMap_map, List.map_filterMap]
  refine List.filterMap_congr fun i _ ↦ ?_
  cases i <;> rfl

namespace WorkTree

/-- The tree with one mode for all its files. -/
def withMode (T : WorkTree) (mode : UInt32) : WorkTree where
  walk := T.walk.map (Item.withMode mode)
  nodup := by
    rw [filterMap_map_withMode, List.map_map]
    exact T.nodup
  isRel := by
    rw [filterMap_map_withMode]
    intro g hg
    obtain ⟨f, hf, rfl⟩ := List.mem_map.1 hg
    exact T.isRel f hf

theorem files_withMode (T : WorkTree) (mode : UInt32) :
    (T.withMode mode).files = T.files.map (File.withMode mode) :=
  filterMap_map_withMode mode T.walk

end WorkTree

/-- The entries of the tree with one mode are the entries with that mode. -/
theorem ents_withMode (T : WorkTree) (mode : UInt32) :
    ents (T.withMode mode) = (ents T).map fun e ↦ (e.1, mode, e.2.2) := by
  rw [ents, ents, List.map_insertionSort ByRel ByRel (fun e : Ent ↦ (e.1, mode, e.2.2)) _
    (fun _ _ _ _ ↦ Iff.rfl), WorkTree.files_withMode, List.map_map, List.map_map]
  rfl

/-- **The text shows every mode.** -/
theorem treeText_withMode_iff (T : WorkTree) (mode : UInt32) :
    treeText (T.withMode mode) = treeText T ↔ ∀ f ∈ T.files, f.mode = mode := by
  have hents : ents (T.withMode mode) = ents T ↔ ∀ f ∈ T.files, f.mode = mode := by
    rw [ents_withMode]
    conv_lhs => rhs; rw [← List.map_id (ents T)]
    rw [List.map_inj_left]
    constructor
    · intro h f hf
      have hent := h (ent f) ((perm_ents T).mem_iff.2 (List.mem_map_of_mem hf))
      exact (Prod.mk.inj (Prod.mk.inj hent).2).1.symm
    · intro h e he
      obtain ⟨f, hf, rfl⟩ := List.mem_map.1 ((perm_ents T).mem_iff.1 he)
      rw [ent, h f hf, id]
  rw [← hents]
  refine ⟨fun h ↦ LineFormat.eq_of_listing_eq_of_names ?_ h, fun h ↦ by rw [treeText, h, treeText]⟩
  rw [ents_withMode, List.map_map]
  rfl

section Runs

variable {p : Process} {d d' : Disk} {root ref store : Location}

theorem hashTreeOnDisk_ok_iff {h : GoString} :
    (hashTreeOnDisk p root).run d = (.ok h, d') ↔
      d.stat root ≠ none ∧ (∀ e ∈ d.walk root, MayRead p e) ∧ h = hashTree (workTree d root) ∧
        d' = d := by
  show (if d.stat root = none then (.error .ENOENT, d)
    else if ∀ e ∈ d.walk root, MayRead p e then (.ok (hashTree (workTree d root)), d)
    else (.error .EACCES, d) : Except Errno GoString × Disk) = _ ↔ _
  split
  case isTrue hnone => simp [hnone]
  case isFalse hsome =>
    split
    case isTrue hread =>
      rw [Prod.mk.injEq, Except.ok.injEq, eq_comm (a := hashTree _), eq_comm (a := d)]
      exact ⟨fun h ↦ ⟨hsome, hread, h⟩, fun h ↦ h.2.2⟩
    case isFalse hread =>
      exact iff_of_false (fun h ↦ absurd (Prod.mk.inj h).1 (by simp)) fun h ↦ hread h.2.1

/-- **What a snapshot does on an empty store**: it hashes the tree and freezes it. -/
theorem froze_of_snapshotOnDisk {v : Version} (hroot : d.stat root = some .dir)
    (hstore : Vacant d store) (hrun : (snapshotOnDisk p root store).run d = (.ok v, d')) :
    (∀ e ∈ d.walk root, MayRead p e) ∧ v = versionIn store (hashTree (workTree d root)) ∧
      Froze p d root (hashTree (workTree d root) :: store) d' := by
  obtain ⟨h, d₁, hhash, hrest⟩ := Effect.exists_of_run_bind_ok hrun
  obtain ⟨-, hread, rfl, rfl⟩ := hashTreeOnDisk_ok_iff.1 hhash
  have hfresh : d₁.stat (hashTree (workTree d₁ root) :: store) = none :=
    hstore.empty [_] (List.cons_ne_nil _ _)
  change (if d₁.stat (hashTree (workTree d₁ root) :: store) ≠ none then _ else _) = _ at hrest
  rw [if_neg (not_not.2 hfresh)] at hrest
  obtain ⟨_, d₂, hcopy, hret⟩ := Effect.exists_of_run_bind_ok hrest
  obtain ⟨hv, rfl⟩ := Prod.mk.inj hret
  refine ⟨hread, (Except.ok.inj hv).symm, hroot, fun c hc ↦ ?_, hfresh, hcopy⟩
  rcases List.mem_cons.1 hc with rfl | hc
  · exact ⟨isName_hashTree _, zero_notMem_hexEncode _⟩
  · exact hstore.room.isFileName c hc

/-- The files of what is frozen in an empty store are those of the tree, with the mode of a frozen
file. -/
theorem Froze.perm_files {h : GoString} (hfroze : Froze p d root (h :: store) d')
    (hstore : Vacant d store) (hread : ∀ e ∈ d.walk root, MayRead p e) :
    (workTree d' (h :: store)).files.Perm
      ((workTree d root).withMode (0o444 &&& ~~~p.umask)).files := by
  have hroom : Room d (h :: store) := by
    refine ⟨hfroze.isFileName, fun y hy ↦ ?_⟩
    rcases List.suffix_cons_iff.1 hy with rfl | hy
    · exact Or.inl hfroze.fresh
    · exact hstore.room.free y hy
  obtain ⟨d₁, hrun, hfiles⟩ := copyTreeReadOnlyOnDisk_spec (p := p) hfroze.dir hroom hfroze.fresh
    fun r m content hstat ↦ hread (r, .file m content) (Disk.mem_walk.2 hstat)
  obtain rfl : d₁ = d' := (Prod.mk.inj (hrun.symm.trans hfroze.copied)).2
  refine (List.perm_ext_iff_of_nodup (WorkTree.nodup_files _) (WorkTree.nodup_files _)).2
    fun f ↦ ?_
  rw [mem_files_workTree, WorkTree.files_withMode, List.mem_map]
  simp only [hfiles, mem_files_workTree]
  constructor
  · rintro ⟨r, m, content, ⟨rfl, mode, hstat⟩, rfl⟩
    exact ⟨_, ⟨r, mode, content, hstat, rfl⟩, rfl⟩
  · rintro ⟨_, ⟨r, mode, content, hstat, rfl⟩, rfl⟩
    exact ⟨r, _, content, ⟨rfl, mode, hstat⟩, rfl⟩

/-- **What is found at the path of a version** that was frozen in an empty store. -/
theorem frozen_at_ref {v : Version} (hroot : d.stat root = some .dir) (hstore : Vacant d store)
    (hrun : (snapshotOnDisk p root store).run d = (.ok v, d')) :
    v.id = hashTree (workTree d root) ∧ d'.stat (placeOf v.ref) = some .dir ∧
      (workTree d' (placeOf v.ref)).files.Perm
        ((workTree d root).withMode (0o444 &&& ~~~p.umask)).files := by
  obtain ⟨hread, rfl, hfroze⟩ := froze_of_snapshotOnDisk hroot hstore hrun
  have hplace : placeOf (versionIn store (hashTree (workTree d root))).ref =
      hashTree (workTree d root) :: store := placeOf_pathOf hfroze.isFileName
  rw [hplace]
  exact ⟨rfl, hfroze.isVersion.dir, hfroze.perm_files hstore hread⟩

/-- **What checking a version finds**, of files that may be read. -/
theorem hashTreeOnDisk_of_snapshot {v : Version} (hroot : d.stat root = some .dir)
    (hstore : Vacant d store) (hrun : (snapshotOnDisk p root store).run d = (.ok v, d'))
    (hread : ∀ f ∈ (workTree d root).files, p.Permits 0o400 (0o444 &&& ~~~p.umask)) :
    (hashTreeOnDisk p (placeOf v.ref)).run d' =
      (.ok (hashTree ((workTree d root).withMode (0o444 &&& ~~~p.umask))), d') := by
  obtain ⟨-, hdir, hfiles⟩ := frozen_at_ref hroot hstore hrun
  refine hashTreeOnDisk_ok_iff.2 ⟨?_, ?_, (hashTree_eq_of_perm hfiles).symm, rfl⟩
  · rw [hdir]
    exact Option.some_ne_none _
  · rintro ⟨r, _ | ⟨m, content⟩⟩ he
    · trivial
    · have hmem := hfiles.mem_iff.1 (mem_files_workTree.2 ⟨r, m, content, Disk.mem_walk.1 he, rfl⟩)
      rw [WorkTree.files_withMode] at hmem
      obtain ⟨f, hf, heq⟩ := List.mem_map.1 hmem
      obtain rfl : 0o444 &&& ~~~p.umask = m := congrArg File.mode heq
      exact hread f hf

/-- **Checking a frozen version against its ID.** After a `Snapshot` on an empty store, the hash of
what was frozen is the hash of the working tree with the mode of a frozen file throughout. It is the
ID if the files of the working tree have this mode already; and, unless the two texts collide, only
then. -/
theorem frozen_hash_is_id_iff {v : Version} (hroot : d.stat root = some .dir)
    (hstore : Vacant d store) (hrun : (snapshotOnDisk p root store).run d = (.ok v, d')) :
    let T := workTree d root
    let mode := 0o444 &&& ~~~p.umask
    let check := ((hashTreeOnDisk p (placeOf v.ref)).run d').1
    (p.Permits 0o400 mode → check = .ok (hashTree (T.withMode mode))) ∧
    ((∀ f ∈ T.files, f.mode = mode) → check = .ok v.id) ∧
    (Set.InjOn sum256 {treeText T, treeText (T.withMode mode)} → check = .ok v.id →
      ∀ f ∈ T.files, f.mode = mode) := by
  intro T mode check
  obtain ⟨hid, -, hfiles⟩ := frozen_at_ref hroot hstore hrun
  have hcheck := hashTreeOnDisk_of_snapshot hroot hstore hrun
  refine ⟨fun hpermits ↦ congrArg Prod.fst (hcheck fun _ _ ↦ hpermits), fun hmodes ↦ ?_,
    fun hsum hok ↦ ?_⟩
  · -- The files of the working tree were read, and the frozen ones have the same mode.
    have hread : ∀ f ∈ T.files, p.Permits 0o400 mode := by
      intro f hf
      obtain ⟨r, m, content, hstat, rfl⟩ := mem_files_workTree.1 hf
      exact hmodes _ hf ▸ (froze_of_snapshotOnDisk hroot hstore hrun).1 (r, .file m content)
        (Disk.mem_walk.2 hstat)
    refine (congrArg Prod.fst (hcheck hread)).trans (congrArg Except.ok ?_)
    rw [hid, hashTree, (treeText_withMode_iff T mode).2 hmodes, hashTree]
  · obtain ⟨-, -, heq, -⟩ := hashTreeOnDisk_ok_iff.1 (Effect.run_eq_of_result hok)
    rw [hid, hashTree_eq_of_perm hfiles] at heq
    have htext := hsum (Or.inl rfl) (Or.inr rfl) (hexEncode_injective heq)
    exact (treeText_withMode_iff T mode).1 htext.symm

end Runs

/-- The ID of the tree `w` of the sample, and its version in the store `m`. -/
def sampleVersion : Version :=
  versionIn (samplePlace "m") (hashTree (workTree sampleNode (samplePlace "w")))

/-- The sample node after a `Snapshot` into the empty directory `m`. -/
def snapshotNode : Disk :=
  ((snapshotOnDisk sampleProcess (samplePlace "w") (samplePlace "m")).run sampleNode).2

/-- The `Snapshot` returns this version. -/
theorem run_snapshot_sample :
    (snapshotOnDisk sampleProcess (samplePlace "w") (samplePlace "m")).run sampleNode =
      (.ok sampleVersion, snapshotNode) :=
  Effect.run_eq_of_result (by decide +kernel)

theorem vacant_sample : Vacant sampleNode (samplePlace "m") :=
  (EmptyDir.of_entries (by decide +kernel) (by decide +kernel)).vacant

/-- The hash of the frozen sample. -/
theorem frozen_hash_of_sample :
    ((hashTreeOnDisk sampleProcess (placeOf sampleVersion.ref)).run snapshotNode).1 =
      .ok (hashTree ((workTree sampleNode (samplePlace "w")).withMode 0o444)) :=
  (frozen_hash_is_id_iff (by decide +kernel) vacant_sample run_snapshot_sample).1 (by decide)

/-- The files of the sample have the mode 0644: the version does not have the hash that is its
ID. -/
theorem frozen_hash_is_not_id :
    (snapshotOnDisk sampleProcess (samplePlace "w") (samplePlace "m")).run sampleNode =
        (.ok sampleVersion, snapshotNode) ∧
      ((hashTreeOnDisk sampleProcess (placeOf sampleVersion.ref)).run snapshotNode).1 ≠
        .ok sampleVersion.id := by
  refine ⟨run_snapshot_sample, fun h ↦ ?_⟩
  rw [hashTreeOnDisk_of_snapshot (by decide +kernel) vacant_sample run_snapshot_sample
    fun _ _ ↦ by decide] at h
  have hne : hashTree ((workTree sampleNode (samplePlace "w")).withMode 0o444) ≠
      hashTree (workTree sampleNode (samplePlace "w")) := by decide +kernel
  exact hne (Except.ok.inj h)

end SourceOS.Mount
