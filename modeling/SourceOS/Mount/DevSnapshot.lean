import SourceOS.Foundation.Effect
import SourceOS.Foundation.Filepath
import SourceOS.Foundation.Run
import SourceOS.Mount.InceptionFS
import SourceOS.Mount.TreeHash

/-!
# The portable snapshotter

`DevSnapshotter` of `backend/dev.go`: a version of a working tree is a read-only copy of it, in a
directory of the version store that is named by the hash of the tree. If there is a directory of
that name already, nothing is copied.

Every input of a call is written out in `SnapshotCall`: the working tree at that moment, the time,
and what goes wrong — hashing may fail, and a copy may break off at any item of the walk, with any
number of bytes of that item written (`Break`). **A copy that breaks off is not undone.** What it
leaves is a directory with the name of the whole tree, which the next call takes for the whole tree:
`broken_copy_returned`. `returned_version_complete` says what holds: a version that is returned is
the working tree of that call if and only if no earlier call on the same files has left a part of
them behind; and it is never changed afterwards. A symbolic link is copied as the file it leads to,
so all of this is about trees without links.
-/

namespace SourceOS.Mount

open Go Sha256 Filepath

/-! ### The version store -/

/-- The files of a frozen tree, path and content. They are regular files with the mode 0444. -/
abbrev Frozen := List (GoString × List UInt8)

/-- A directory of the version store. -/
structure VersionDir where
  /-- The name. -/
  name : GoString
  /-- The modification time, in nanoseconds: when its content was copied. -/
  mtime : ℤ
  /-- The files in it. -/
  files : Frozen
deriving DecidableEq

/-- The version store. -/
structure Shelf where
  /-- Its directories. -/
  dirs : List VersionDir
  /-- Different directories have different names. -/
  nodup : (dirs.map VersionDir.name).Nodup
  /-- The names are plain names. -/
  isName : ∀ d ∈ dirs, IsName d.name

namespace Shelf

/-- A store that was not used yet. -/
def empty : Shelf where
  dirs := []
  nodup := List.nodup_nil
  isName _ h := absurd h List.not_mem_nil

/-- The names of the directories. -/
def names (s : Shelf) : List GoString :=
  s.dirs.map VersionDir.name

/-- The store with one more directory. -/
def add (s : Shelf) (d : VersionDir) (hfresh : d.name ∉ s.names) (hname : IsName d.name) :
    Shelf where
  dirs := d :: s.dirs
  nodup := List.nodup_cons.2 ⟨hfresh, s.nodup⟩
  isName e he := by
    rcases List.mem_cons.1 he with rfl | he
    · exact hname
    · exact s.isName e he

@[simp] theorem dirs_add (s : Shelf) (d : VersionDir) (hfresh : d.name ∉ s.names)
    (hname : IsName d.name) : (s.add d hfresh hname).dirs = d :: s.dirs := rfl

/-- Directories of one name are one directory. -/
theorem eq_of_name_eq {s : Shelf} {d e : VersionDir} (hd : d ∈ s.dirs) (he : e ∈ s.dirs)
    (h : d.name = e.name) : d = e :=
  List.inj_on_of_nodup_map s.nodup hd he h

end Shelf

/-! ### Copying -/

/-- Where a copy breaks off. -/
inductive Break where
  /-- Before the directory of the version is made. -/
  | start
  /-- After so many items. Of the next one, if it is a file, nothing was made, or a file with so
  many bytes of the content. -/
  | item (done : ℕ) (written : Option ℕ)
deriving DecidableEq

/-- What is copied for an item. -/
def copyItem : Item → Frozen
  | .dir _ => []
  | .file f => [(f.rel, f.content)]

/-- What is there of an item at which the copy broke off. -/
def copyPart (written : Option ℕ) : Item → Frozen
  | .dir _ => []
  | .file f => (written.map fun n ↦ (f.rel, f.content.take n)).toList

/-- The walk of a copy: what it has made, up to the item at which it breaks off. -/
def copyWalk : List Item → Option (ℕ × Option ℕ) → Frozen
  | [], _ => []
  | i :: items, none => copyItem i ++ copyWalk items none
  | i :: _, some (0, written) => copyPart written i
  | i :: items, some (done + 1, written) => copyItem i ++ copyWalk items (some (done, written))

/-- `copyTreeReadOnly` into a directory that does not exist: its error, and what is there
afterwards. The text of the error is the operating system's. -/
def copyTreeReadOnly (T : WorkTree) :
    Option (Break × GoString) → Except GoString Unit × Option Frozen
  | none => (.ok (), some (copyWalk T.walk none))
  | some (.start, err) => (.error err, none)
  | some (.item done written, err) => (.error err, some (copyWalk T.walk (some (done, written))))

/-- Path and content of the files. -/
def WorkTree.frozen (T : WorkTree) : Frozen :=
  T.files.map fun f ↦ (f.rel, f.content)

/-- Path and content of the regular files. -/
def WorkTree.regular (T : WorkTree) : Frozen :=
  (T.files.filter fun f ↦ f.IsRegular).map fun f ↦ (f.rel, f.content)

theorem WorkTree.regular_eq_frozen {T : WorkTree} (h : ∀ f ∈ T.files, f.IsRegular) :
    T.regular = T.frozen := by
  rw [regular, frozen, List.filter_eq_self.2 fun f hf ↦ decide_eq_true (h f hf)]

/-- A copy that breaks off has made some of the files, the last one perhaps in part. -/
theorem prefix_copyWalk (items : List Item) (stop : Option (ℕ × Option ℕ)) :
    (copyWalk items stop).map Prod.fst <+: (items.filterMap Item.file?).map File.rel := by
  fun_induction copyWalk items stop with
  | case1 => exact List.nil_prefix
  | case2 i items ih =>
    cases i with
    | dir rel => exact ih
    | file f => exact List.cons_prefix_cons.2 ⟨rfl, ih⟩
  | case3 i items written =>
    cases i with
    | dir rel => exact List.nil_prefix
    | file f =>
      cases written with
      | none => exact List.nil_prefix
      | some n => exact List.cons_prefix_cons.2 ⟨rfl, List.nil_prefix⟩
  | case4 i items done written ih =>
    cases i with
    | dir rel => exact ih
    | file f => exact List.cons_prefix_cons.2 ⟨rfl, ih⟩

/-- **A part is told from the whole** in whatever order the files are listed. -/
theorem eq_frozen_of_perm {T : WorkTree} {stop : Option (ℕ × Option ℕ)}
    (h : (copyWalk T.walk stop).Perm T.frozen) : copyWalk T.walk stop = T.frozen := by
  have hrels : T.frozen.map Prod.fst = T.files.map File.rel := by
    rw [WorkTree.frozen, List.map_map]
    rfl
  have hpaths : (copyWalk T.walk stop).map Prod.fst = T.frozen.map Prod.fst := by
    rw [hrels]
    refine (prefix_copyWalk T.walk stop).eq_of_length ?_
    rw [List.length_map, h.length_eq, WorkTree.frozen, List.length_map, List.length_map]
    rfl
  -- so the entries at one place have one path, and of one path there is one entry
  refine List.ext_getElem h.length_eq fun n hn hn' ↦ ?_
  have hnodup : (T.frozen.map Prod.fst).Nodup := hrels ▸ T.nodup
  have hpath : ((copyWalk T.walk stop)[n]).1 = (T.frozen[n]).1 := by
    have hget := List.getElem_of_eq hpaths (by rwa [List.length_map] : n < _)
    rwa [List.getElem_map, List.getElem_map] at hget
  exact List.inj_on_of_nodup_map hnodup (h.mem_iff.1 (List.getElem_mem hn)) (List.getElem_mem hn')
    hpath

/-- A copy that does not break off is complete. -/
theorem copyWalk_none (T : WorkTree) : copyWalk T.walk none = T.frozen := by
  rw [WorkTree.frozen, WorkTree.files]
  induction T.walk with
  | nil => rfl
  | cons i items ih =>
    rw [copyWalk, ih]
    cases i with
    | dir rel => rfl
    | file f => rfl

/-! ### `Snapshot` -/

/-- `DevSnapshotter`; the working tree comes with each call. -/
structure DevSnapshotter where
  /-- The path of the version store. -/
  store : GoString

/-- A call of `Snapshot`, with what it finds. -/
structure SnapshotCall where
  /-- The working tree. -/
  tree : WorkTree
  /-- The time. -/
  now : ℤ
  /-- An error of hashing. -/
  hashErr : Option GoString
  /-- Where the copy breaks off, if it is made, with the error. -/
  fault : Option (Break × GoString)

/-- The hash of a tree is a plain name. -/
theorem isName_hashTree (T : WorkTree) : IsName (hashTree T) := by
  have hlen : (hashTree T).length = 64 := by
    rw [hashTree, length_hexEncode, length_sum256]
  refine ⟨?_, ?_, ?_, slash_notMem_hexEncode _⟩ <;>
  · intro h
    rw [h] at hlen
    exact absurd hlen (by decide)

namespace DevSnapshotter

variable (d : DevSnapshotter)

/-- The version of a directory of the store. -/
def version (name : GoString) : Version :=
  ⟨name, join d.store name, ascii "dev".toList⟩

/-- `Snapshot`. -/
def snapshot (c : SnapshotCall) : Effect GoString Shelf Version := fun s ↦
  match c.hashErr with
  | some err => (.error (ascii "hash tree: ".toList ++ err), s)
  | none =>
    let h := hashTree c.tree
    -- A directory of that name is taken for a content-identical version.
    if hmem : h ∈ s.names then (.ok (d.version h), s)
    else
      let copy := copyTreeReadOnly c.tree c.fault
      let after := match copy.2 with
        | none => s
        | some files => s.add ⟨h, c.now, files⟩ hmem (isName_hashTree c.tree)
      match copy.1 with
      | .error err => (.error (ascii "freeze: ".toList ++ err), after)
      | .ok () => (.ok (d.version h), after)

/-- The directory at a path. -/
def treeAt (s : Shelf) (ref : GoString) : Option VersionDir :=
  s.dirs.find? fun e ↦ join d.store e.name = ref

/-- Calls of `Snapshot`, one after the other. -/
def snapshots : Machine Shelf SnapshotCall (Except GoString Version) where
  step s c := ((d.snapshot c).run s |>.2, (d.snapshot c).run s |>.1)

end DevSnapshotter

/-- The copy does not break off, or not after it has made the directory of the version. -/
def SnapshotCall.Unbroken (c : SnapshotCall) : Prop :=
  ∀ done written err, c.fault ≠ some (.item done written, err)

/-- The tree is hashed, there is no directory of the hash, and the copy that is made breaks off when
its directory has these files in it. -/
def SnapshotCall.Leaves (c : SnapshotCall) (s : Shelf) (files : Frozen) : Prop :=
  c.hashErr = none ∧ hashTree c.tree ∉ s.names ∧ ∃ done written err,
    c.fault = some (.item done written, err) ∧ files = copyWalk c.tree.walk (some (done, written))

theorem SnapshotCall.Unbroken.not_leaves {c : SnapshotCall} (h : c.Unbroken) {s : Shelf}
    {files : Frozen} : ¬ c.Leaves s files := by
  rintro ⟨-, -, done, written, err, hfault, -⟩
  exact h done written err hfault

namespace DevSnapshotter

variable {d : DevSnapshotter}

/-- **What a `Snapshot` does.** It fails and leaves the store alone; it finds a directory of the
name and returns it; it freezes the tree; or it fails with a directory left behind. -/
theorem snapshot_cases (c : SnapshotCall) (s : Shelf) :
    (∃ err, (d.snapshot c).run s = (.error err, s)) ∨
    (hashTree c.tree ∈ s.names ∧ (d.snapshot c).run s = (.ok (d.version (hashTree c.tree)), s)) ∨
    (∃ hfresh : hashTree c.tree ∉ s.names,
      (d.snapshot c).run s = (.ok (d.version (hashTree c.tree)),
        s.add ⟨hashTree c.tree, c.now, c.tree.frozen⟩ hfresh (isName_hashTree c.tree))) ∨
    ∃ (hfresh : hashTree c.tree ∉ s.names) (files : Frozen) (err : GoString), c.Leaves s files ∧
      (d.snapshot c).run s = (.error err,
        s.add ⟨hashTree c.tree, c.now, files⟩ hfresh (isName_hashTree c.tree)) := by
  rcases hhash : c.hashErr with _ | err
  · by_cases hmem : hashTree c.tree ∈ s.names
    · exact Or.inr (Or.inl ⟨hmem, by simp [Effect.run, snapshot, hhash, hmem]⟩)
    · rcases hfault : c.fault with _ | ⟨_ | ⟨done, written⟩, err⟩
      · refine Or.inr (Or.inr (Or.inl ⟨hmem, ?_⟩))
        simp [Effect.run, snapshot, hhash, hmem, hfault, copyTreeReadOnly, copyWalk_none]
      · refine Or.inl ⟨ascii "freeze: ".toList ++ err, ?_⟩
        simp [Effect.run, snapshot, hhash, hmem, hfault, copyTreeReadOnly]
      · refine Or.inr (Or.inr (Or.inr ⟨hmem, copyWalk c.tree.walk (some (done, written)),
          ascii "freeze: ".toList ++ err, ⟨hhash, hmem, done, written, err, hfault, rfl⟩, ?_⟩))
        simp [Effect.run, snapshot, hhash, hmem, hfault, copyTreeReadOnly]
  · refine Or.inl ⟨ascii "hash tree: ".toList ++ err, ?_⟩
    simp only [Effect.run, snapshot, hhash]

/-- What a copy leaves when it breaks off is what is there then. -/
theorem snapshot_of_leaves {c : SnapshotCall} {s : Shelf} {files : Frozen} (h : c.Leaves s files) :
    ⟨hashTree c.tree, c.now, files⟩ ∈ ((d.snapshot c).run s).2.dirs := by
  obtain ⟨hhash, hmem, done, written, err, hfault, rfl⟩ := h
  simp [Effect.run, snapshot, hhash, hmem, hfault, copyTreeReadOnly]

/-- **Directories stay.** -/
theorem mem_dirs_snapshot {c : SnapshotCall} {s : Shelf} {e : VersionDir} (he : e ∈ s.dirs) :
    e ∈ ((d.snapshot c).run s).2.dirs := by
  rcases @snapshot_cases d c s with ⟨_, h⟩ | ⟨-, h⟩ | ⟨_, h⟩ | ⟨_, _, _, -, h⟩
  · rwa [h]
  · rwa [h]
  · rw [h]
    exact List.mem_cons_of_mem _ he
  · rw [h]
    exact List.mem_cons_of_mem _ he

theorem mem_dirs_after {s : Shelf} {e : VersionDir} (he : e ∈ s.dirs) (calls : List SnapshotCall) :
    e ∈ (d.snapshots.after s calls).dirs :=
  d.snapshots.inv_after (I := fun t ↦ e ∈ t.dirs) he (fun _ _ ↦ mem_dirs_snapshot) calls

/-- A directory is found at its path. -/
theorem treeAt_version {s : Shelf} {e : VersionDir} (he : e ∈ s.dirs) :
    d.treeAt s (d.version e.name).ref = some e := by
  rw [treeAt, version]
  rcases hfind : s.dirs.find? fun x ↦ join d.store x.name = join d.store e.name with _ | x
  · exact absurd (List.find?_eq_none.1 hfind e he) (by simp)
  · have hx : x ∈ s.dirs := List.mem_of_find?_eq_some hfind
    have hjoin : join d.store x.name = join d.store e.name := by
      simpa using List.find?_some hfind
    rw [hfind, Shelf.eq_of_name_eq hx he (join_inj (s.isName x hx) (s.isName e he) hjoin)]

/-- **What a `Snapshot` adds** is a directory for its tree, made at that moment, and it is complete
or what the copy has left. -/
theorem mem_dirs_of_mem_snapshot {c : SnapshotCall} {s : Shelf} {e : VersionDir}
    (he : e ∈ ((d.snapshot c).run s).2.dirs) : e ∈ s.dirs ∨
      e.name = hashTree c.tree ∧ e.mtime = c.now ∧
        (e.files = c.tree.frozen ∨ c.Leaves s e.files) := by
  rcases @snapshot_cases d c s with ⟨_, h⟩ | ⟨-, h⟩ | ⟨_, h⟩ | ⟨_, _, _, hleaves, h⟩
  · rw [h] at he
    exact Or.inl he
  · rw [h] at he
    exact Or.inl he
  · rw [h] at he
    rcases List.mem_cons.1 he with rfl | he
    · exact Or.inr ⟨rfl, rfl, Or.inl rfl⟩
    · exact Or.inl he
  · rw [h] at he
    rcases List.mem_cons.1 he with rfl | he
    · exact Or.inr ⟨rfl, rfl, Or.inr hleaves⟩
    · exact Or.inl he

/-- A version that is returned has its directory. -/
theorem exists_dir_of_ok {c : SnapshotCall} {s : Shelf} {v : Version}
    (hv : ((d.snapshot c).run s).1 = .ok v) : v = d.version (hashTree c.tree) ∧
      ∃ e ∈ ((d.snapshot c).run s).2.dirs, e.name = hashTree c.tree ∧
        (e ∈ s.dirs ∨ e.mtime = c.now ∧ e.files = c.tree.frozen) := by
  rcases @snapshot_cases d c s with ⟨_, h⟩ | ⟨hmem, h⟩ | ⟨_, h⟩ | ⟨_, _, _, -, h⟩
  · rw [h] at hv
    exact absurd hv (by simp)
  · rw [h] at hv ⊢
    obtain ⟨e, he, hname⟩ := List.mem_map.1 hmem
    exact ⟨(Except.ok.inj hv).symm, e, he, hname, Or.inl he⟩
  · rw [h] at hv ⊢
    exact ⟨(Except.ok.inj hv).symm, _, List.mem_cons_self, rfl, Or.inr ⟨rfl, rfl⟩⟩
  · rw [h] at hv
    exact absurd hv (by simp)

end DevSnapshotter

/-- **A returned version is complete and stays.** What is at the path of a version that is returned
is the regular files of the working tree, which has no links, if and only if no earlier call on the
same files has left a part of them behind; and no later call changes it. -/
theorem returned_version_complete (d : DevSnapshotter) (calls : List SnapshotCall)
    (c : SnapshotCall) (hregular : ∀ f ∈ c.tree.files, f.IsRegular)
    (hsum : Set.InjOn sum256 {t | ∃ x ∈ calls ++ [c], t ∈ x.tree.hashed})
    (hnames : ∀ x ∈ calls ++ [c], ∀ f ∈ x.tree.files, newline ∉ f.rel) (v : Version)
    (hv : ((d.snapshot c).run (d.snapshots.after .empty calls)).1 = .ok v) :
    ∃ e, d.treeAt (d.snapshots.after .empty (calls ++ [c])) v.ref = some e ∧
      (e.files.Perm c.tree.regular ↔ ∀ before x after files, calls = before ++ x :: after →
        x.tree.files.Perm c.tree.files → x.Leaves (d.snapshots.after .empty before) files →
          files = x.tree.frozen) ∧
      ∀ later, d.treeAt (d.snapshots.after .empty (calls ++ [c] ++ later)) v.ref = some e := by
  obtain ⟨rfl, e, he, hname, hfrom⟩ := DevSnapshotter.exists_dir_of_ok hv
  have he : e ∈ (d.snapshots.after .empty (calls ++ [c])).dirs := by
    rw [Machine.after_append]
    exact he
  rw [← hname, WorkTree.regular_eq_frozen hregular]
  refine ⟨e, DevSnapshotter.treeAt_version he, ⟨?_, fun hwhole ↦ ?_⟩, fun later ↦ ?_⟩
  · -- What an earlier call has left under this name is what is there.
    rintro hcomplete before x after files rfl hperm hleaves
    have hhash : hashTree x.tree = hashTree c.tree := hashTree_eq_of_perm hperm
    have hleft : ⟨hashTree x.tree, x.now, files⟩ ∈
        (d.snapshots.after .empty (before ++ x :: after ++ [c])).dirs := by
      rw [List.append_assoc, Machine.after_append]
      exact DevSnapshotter.mem_dirs_after (DevSnapshotter.snapshot_of_leaves hleaves) _
    rw [← Shelf.eq_of_name_eq hleft he (hhash.trans hname.symm)] at hcomplete
    have hfiles : files.Perm x.tree.frozen := hcomplete.trans (hperm.symm.map _)
    obtain ⟨-, -, done, written, err, -, rfl⟩ := hleaves
    exact eq_frozen_of_perm hfiles
  · rcases hfrom with hold | ⟨-, hfiles⟩
    · -- The directory was there: an earlier call on a tree of that hash has made it.
      obtain ⟨before, x, after, rfl, hnew, hmade⟩ := Machine.exists_place_of_after
        (M := d.snapshots) (P := fun t ↦ e ∈ t.dirs) List.not_mem_nil hold
      obtain ⟨hxname, -, hxfiles⟩ :=
        (DevSnapshotter.mem_dirs_of_mem_snapshot hmade).resolve_left hnew
      have hx : x ∈ before ++ x :: after ++ [c] := by simp
      have hc : c ∈ before ++ x :: after ++ [c] := by simp
      have hinj : Set.InjOn sum256 {t | t ∈ x.tree.hashed ∨ t ∈ c.tree.hashed} := by
        refine hsum.mono fun t ht ↦ ?_
        exact ht.elim (fun ht ↦ ⟨x, hx, ht⟩) fun ht ↦ ⟨c, hc, ht⟩
      have hperm : x.tree.files.Perm c.tree.files :=
        perm_files_of_newline_notMem hinj (hnames x hx) (hnames c hc) (hxname.symm.trans hname)
      rw [hxfiles.elim id fun hleaves ↦ hwhole before x after e.files rfl hperm hleaves]
      exact hperm.map _
    · rw [hfiles]
  · rw [Machine.after_append]
    exact DevSnapshotter.treeAt_version (DevSnapshotter.mem_dirs_after he later)

/-- A call of `Snapshot` in which nothing goes wrong. -/
def SnapshotCall.plain (tree : WorkTree) (now : ℤ) : SnapshotCall :=
  ⟨tree, now, none, none⟩

theorem SnapshotCall.unbroken_plain (tree : WorkTree) (now : ℤ) :
    (SnapshotCall.plain tree now).Unbroken :=
  fun _ _ _ h ↦ nomatch h

/-- A call in which nothing goes wrong returns. -/
theorem DevSnapshotter.snapshot_plain (d : DevSnapshotter) (tree : WorkTree) (now : ℤ) (s : Shelf) :
    ((d.snapshot (.plain tree now)).run s).1 = .ok (d.version (hashTree tree)) := by
  by_cases hmem : hashTree tree ∈ s.names
  · simp [Effect.run, snapshot, SnapshotCall.plain, hmem]
  · simp [Effect.run, snapshot, SnapshotCall.plain, hmem, copyTreeReadOnly]

/-- A snapshotter. -/
def devSnapshotter : DevSnapshotter :=
  ⟨ascii "/store".toList⟩

/-- A tree of one file. -/
def aloneFile : WorkTree where
  walk := [.file ⟨ascii "c".toList, 0o644, [0x7a]⟩]
  nodup := List.nodup_singleton _
  isRel := by decide

/-- A call on one file that breaks off when it has been created. -/
def brokenAlone : SnapshotCall :=
  ⟨aloneFile, 1, none, some (.item 0 (some 0), ascii "no space left on device".toList)⟩

/-- Two files frozen twice, walked either way round, in a store in which another tree has been left
in part: the second call returns the first copy. -/
theorem returned_version_complete_twice :
    ∃ e, devSnapshotter.treeAt (devSnapshotter.snapshots.after .empty
        [brokenAlone, .plain twoFiles 2, .plain twoFilesBack 3])
        (devSnapshotter.version (hashTree twoFilesBack)).ref = some e ∧
      e.files.Perm twoFilesBack.regular := by
  have hnames : ∀ x ∈ [brokenAlone, .plain twoFiles 2, .plain twoFilesBack 3],
      ∀ f ∈ x.tree.files, newline ∉ f.rel := by
    simp only [List.forall_mem_cons]
    exact ⟨by decide, by decide, by decide, nofun⟩
  have hsum : Set.InjOn sum256 {t | ∃ x ∈ [brokenAlone, .plain twoFiles 2, .plain twoFilesBack 3],
      t ∈ x.tree.hashed} := by
    have hnodup : ((aloneFile.hashed ++ twoFiles.hashed).map sum256).Nodup := by decide +kernel
    have hmem : ∀ t, (∃ x ∈ [brokenAlone, .plain twoFiles 2, .plain twoFilesBack 3],
        t ∈ x.tree.hashed) → t ∈ aloneFile.hashed ++ twoFiles.hashed := by
      rintro t ⟨x, hx, ht⟩
      rw [List.mem_append]
      rcases List.mem_cons.1 hx with rfl | hx
      · exact Or.inl ht
      · rcases List.mem_pair.1 hx with rfl | rfl
        · exact Or.inr ht
        · exact Or.inr (mem_hashed_of_twoFilesBack ht)
    exact fun s hs t ht hst ↦ List.inj_on_of_nodup_map hnodup (hmem s hs) (hmem t ht) hst
  obtain ⟨e, he, hiff, -⟩ := returned_version_complete devSnapshotter
    [brokenAlone, .plain twoFiles 2] (.plain twoFilesBack 3) (by decide) hsum hnames _
    (devSnapshotter.snapshot_plain _ _ _)
  refine ⟨e, he, hiff.2 fun before x after files hcalls hperm hleaves ↦ ?_⟩
  have hx : x ∈ [brokenAlone, .plain twoFiles 2] := hcalls ▸ by simp
  rcases List.mem_pair.1 hx with rfl | rfl
  · exact absurd hperm.length_eq (by decide)
  · exact absurd hleaves (SnapshotCall.unbroken_plain twoFiles 2).not_leaves

/-- A call on two files whose copy breaks off when the second one has been created. -/
def brokenCall : SnapshotCall :=
  ⟨twoFiles, 1, none, some (.item 1 (some 0), ascii "no space left on device".toList)⟩

/-- What it leaves. -/
def leftBehind : VersionDir :=
  ⟨hashTree twoFiles, 1, [(ascii "a".toList, [0x78]), (ascii "b".toList, [])]⟩

/-- **A broken copy is returned.** The first call fails, with the second file still empty; the same
call again succeeds, and returns what the first one left. -/
theorem broken_copy_returned :
    Set.InjOn sum256 {t | t ∈ twoFiles.hashed} ∧
    (∀ f ∈ twoFiles.files, f.IsRegular ∧ newline ∉ f.rel) ∧
    ∃ v e, ((devSnapshotter.snapshot (.plain twoFiles 2)).run
        (devSnapshotter.snapshots.after .empty [brokenCall])).1 = .ok v ∧
      devSnapshotter.treeAt (devSnapshotter.snapshots.after .empty
        [brokenCall, .plain twoFiles 2]) v.ref = some e ∧ ¬ e.files.Perm twoFiles.regular := by
  have hmem : leftBehind ∈ (devSnapshotter.snapshots.after .empty [brokenCall]).dirs :=
    List.mem_cons_self
  have hlater := DevSnapshotter.mem_dirs_after (d := devSnapshotter) hmem [.plain twoFiles 2]
  rw [← Machine.after_append] at hlater
  refine ⟨injOn_twoFiles fun _ h ↦ h, by decide, devSnapshotter.version (hashTree twoFiles),
    leftBehind, devSnapshotter.snapshot_plain _ _ _, ?_, ?_⟩
  · have hname : hashTree twoFiles = leftBehind.name := by rw [leftBehind]
    rw [hname]
    exact DevSnapshotter.treeAt_version hlater
  · decide

end SourceOS.Mount
