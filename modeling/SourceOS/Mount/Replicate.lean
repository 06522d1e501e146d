import SourceOS.Foundation.Disk
import SourceOS.Mount.DevSnapshot

/-!
# Moving a version between nodes

`DevReplicator` of `backend/replicate.go`: `Send` writes the regular files of a frozen version to a
stream, each with its path relative to the version, and `Receive` makes the files of a stream under
a directory, with the directories they are in. A version comes from `copyTreeReadOnly` of
`backend/dev.go`, which makes the files of a working tree the same way.

Both makers write what they make with the permissions 0444 less the umask, and both are runs of one
step, `make`. A run that has room everywhere returns, and **the files that are there afterwards are
those from before and those of the run** (`makeAll_spec`); for a copy this is what the abstract
`copyTreeReadOnly` says (`copyTreeReadOnlyOnDisk_refines`). A version is sent as files no two of
which are one below the other, so there is room for them in an empty directory
(`DevReplicator.receive_spec`), and as the modes agree too, the hash of the directory is the hash of
the version: `replication_preserves_version`, along any chain of nodes.

The stream is what a reader of the archive finds in it: the names, modes and contents as they were
written. A `Send` that meets a file it may not read breaks off; where all may be read its output is
complete (`DevReplicator.send_ok`).
-/

namespace SourceOS.Mount

open Go Filepath Os

/-! ### Relative paths -/

/-- `filepath.Rel`: the path of a place as seen from a directory above it. -/
def relPath (r : Location) : GoString :=
  if r = [] then [0x2e] else [0x2f].intercalate r.reverse

/-- `filepath.Join` of a directory and a relative path, as a place. -/
def target (dst : Location) (name : GoString) : Location :=
  (cleanParts true [] (dst.reverse ++ name.splitOn 0x2f)).reverse

theorem splitOn_relPath {r : Location} (hr : ∀ c ∈ r, IsFileName c) (hne : r ≠ []) :
    (relPath r).splitOn 0x2f = r.reverse := by
  rw [relPath, if_neg hne]
  exact List.splitOn_intercalate _ (fun c hc ↦ (hr c (List.mem_reverse.1 hc)).1.2.2.2)
    (by simpa using hne)

/-- **A relative path leads back to its place**, seen from any directory. -/
theorem target_relPath {dst r : Location} (hdst : ∀ c ∈ dst, IsFileName c)
    (hr : ∀ c ∈ r, IsFileName c) : target dst (relPath r) = r ++ dst := by
  have hnames : ∀ {cs : Location}, (∀ c ∈ cs, IsFileName c) → ∀ c ∈ cs.reverse, IsName c :=
    fun hcs c hc ↦ (hcs c (List.mem_reverse.1 hc)).1
  rcases eq_or_ne r [] with rfl | hne
  · have hdot : (relPath []).splitOn 0x2f = [[0x2e]] := by decide
    rw [target, hdot, cleanParts_append_of_names (hnames hdst)]
    simp [cleanParts]
  · rw [target, splitOn_relPath hr hne, cleanParts_append_of_names (hnames hdst),
      ← List.append_nil r.reverse, cleanParts_append_of_names (hnames hr)]
    simp [cleanParts]

/-- Different places have different relative paths. -/
theorem relPath_inj {r s : Location} (hr : ∀ c ∈ r, IsFileName c) (hs : ∀ c ∈ s, IsFileName c)
    (h : relPath r = relPath s) : r = s := by
  have hplace : ∀ {r : Location}, (∀ c ∈ r, IsFileName c) → target [] (relPath r) = r := by
    intro r hr
    rw [target_relPath (by simp) hr, List.append_nil]
  rw [← hplace hr, h, hplace hs]

theorem isRel_relPath {r : Location} (hr : ∀ c ∈ r, IsFileName c) : IsRel (relPath r) := by
  rcases eq_or_ne r [] with rfl | hne
  · decide
  · refine ⟨fun h ↦ ?_, fun h ↦ ?_⟩
    · rw [relPath, if_neg hne] at h
      rcases mem_intercalate h with h | ⟨c, hc, h⟩
      · exact absurd h (by decide)
      · exact (hr c (List.mem_reverse.1 hc)).2 h
    · rw [splitOn_relPath hr hne, List.mem_reverse] at h
      exact (hr [] h).1.1 rfl

/-! ### The tree at a place -/

/-- What the walks of `hashTree` and of a copy come past, by its relative path. -/
def itemAt : Location × Entry → Item
  | (r, .dir) => .dir (relPath r)
  | (r, .file mode content) => .file ⟨relPath r, mode, content⟩

theorem rel_itemAt {e : Location × Entry} {f : File} (h : (itemAt e).file? = some f) :
    f.rel = relPath e.1 := by
  obtain ⟨r, _ | ⟨mode, content⟩⟩ := e
  · cases h
  · cases h
    rfl

/-- The names that a walk comes past are names of files. -/
theorem isFileName_of_mem_walk {d : Disk} {x : Location} {e : Location × Entry}
    (he : e ∈ d.walk x) : ∀ c ∈ e.1 ++ x, IsFileName c :=
  Disk.isFileName_of_stat (Disk.mem_walk.1 (show (e.1, e.2) ∈ d.walk x from he))

/-- The working tree at a place. -/
def workTree (d : Disk) (x : Location) : WorkTree where
  walk := (d.walk x).map itemAt
  nodup := by
    have hplaces := List.pairwise_map.1 (d.nodup_walk x)
    refine List.pairwise_map.2 (List.pairwise_filterMap.2 (List.pairwise_map.2
      (hplaces.imp_of_mem fun {e e'} he he' hne f hf f' hf' hrel ↦ hne ?_)))
    rw [rel_itemAt hf, rel_itemAt hf'] at hrel
    exact relPath_inj (fun c hc ↦ isFileName_of_mem_walk he c (List.mem_append_left _ hc))
      (fun c hc ↦ isFileName_of_mem_walk he' c (List.mem_append_left _ hc)) hrel
  isRel := by
    intro f hf
    obtain ⟨i, hi, hfile⟩ := List.mem_filterMap.1 hf
    obtain ⟨e, he, rfl⟩ := List.mem_map.1 hi
    rw [rel_itemAt hfile]
    exact isRel_relPath fun c hc ↦ isFileName_of_mem_walk he c (List.mem_append_left _ hc)

/-- The files of the tree at a place are those below it. -/
theorem mem_files_workTree {d : Disk} {x : Location} {f : File} :
    f ∈ (workTree d x).files ↔
      ∃ r m content, d.stat (r ++ x) = some (.file m content) ∧ f = ⟨relPath r, m, content⟩ := by
  constructor
  · intro hf
    obtain ⟨i, hi, hfile⟩ := List.mem_filterMap.1 hf
    obtain ⟨⟨r, _ | ⟨m, content⟩⟩, he, rfl⟩ := List.mem_map.1 hi
    · cases hfile
    · exact ⟨r, m, content, Disk.mem_walk.1 he, (Option.some.inj hfile).symm⟩
  · rintro ⟨r, m, content, hstat, rfl⟩
    exact List.mem_filterMap.2 ⟨_, List.mem_map_of_mem (Disk.mem_walk.2 hstat), rfl⟩

/-- Path and content of the files at a place. -/
theorem mem_frozen_workTree {d : Disk} {x : Location} {f : GoString × List UInt8} :
    f ∈ (workTree d x).frozen ↔
      ∃ r m content, d.stat (r ++ x) = some (.file m content) ∧ f = (relPath r, content) := by
  rw [WorkTree.frozen, List.mem_map]
  constructor
  · rintro ⟨g, hg, rfl⟩
    obtain ⟨r, m, content, hstat, rfl⟩ := mem_files_workTree.1 hg
    exact ⟨r, m, content, hstat, rfl⟩
  · rintro ⟨r, m, content, hstat, rfl⟩
    exact ⟨_, mem_files_workTree.2 ⟨r, m, content, hstat, rfl⟩, rfl⟩

theorem nodup_frozen (T : WorkTree) : T.frozen.Nodup := by
  refine List.Nodup.of_map Prod.fst ?_
  rw [WorkTree.frozen, List.map_map]
  exact T.nodup

/-! ### `Send` -/

/-- An entry of the archive. -/
structure TarEntry where
  /-- The name in the header. -/
  name : GoString
  /-- The permissions in the header. -/
  mode : UInt32
  /-- The content. -/
  content : List UInt8
deriving DecidableEq

namespace DevReplicator

/-- Write an entry: its header and then its content. -/
def writeEntry (hdr : TarEntry) : Effect Errno (List TarEntry) Unit := fun w ↦
  (.ok (), w ++ [hdr])

/-- Write the files that a walk comes past. A file is opened for reading. -/
def sendWalk (p : Process) : List (Location × Entry) → Effect Errno (List TarEntry) Unit
  | [] => pure ()
  | (_, .dir) :: es => sendWalk p es
  | (r, .file mode content) :: es =>
    if p.Permits 0o400 mode then
      writeEntry ⟨relPath r, mode, content⟩ >>= fun _ ↦ sendWalk p es
    else Effect.raise .EACCES

/-- `Send`: the version at a place of the disk goes to the writer. The parent is not used. -/
def send (p : Process) (d : Disk) (_parent : GoString) (ref : Location) :
    Effect Errno (List TarEntry) Unit :=
  if d.stat ref = none then Effect.raise .ENOENT else sendWalk p (d.walk ref)

/-! ### `Receive` -/

/-- `Receive`: the entries of the stream are made under a directory. -/
def receive (p : Process) (dst : Location) : List TarEntry → Effect Errno Disk Unit
  | [] => pure ()
  | hdr :: stream =>
    put p 0o444 (target dst hdr.name) hdr.content >>= fun _ ↦ receive p dst stream

end DevReplicator

/-! ### Freezing -/

/-- The walk of `copyTreeReadOnly`. A file is opened for reading first. -/
def copyWalkOnDisk (p : Process) (dst : Location) :
    List (Location × Entry) → Effect Errno Disk Unit
  | [] => pure ()
  | (r, .dir) :: es => mkdirAll (target dst (relPath r)) >>= fun _ ↦ copyWalkOnDisk p dst es
  | (r, .file mode content) :: es =>
    if p.Permits 0o400 mode then
      put p 0o444 (target dst (relPath r)) content >>= fun _ ↦ copyWalkOnDisk p dst es
    else Effect.raise .EACCES

/-- `copyTreeReadOnly` from one place of a disk to another that is not below it. -/
def copyTreeReadOnlyOnDisk (p : Process) (src dst : Location) : Effect Errno Disk Unit := fun d ↦
  if d.stat src = none then (.error .ENOENT, d) else (copyWalkOnDisk p dst (d.walk src)).run d

/-! ### What is made of a walk -/

/-- What is to be made under a directory for what a walk comes past. -/
def makingAt (dst : Location) : Location × Entry → Making
  | (r, .dir) => (r ++ dst, none)
  | (r, .file _ content) => (r ++ dst, some content)

theorem fst_makingAt (dst : Location) (e : Location × Entry) : (makingAt dst e).1 = e.1 ++ dst := by
  obtain ⟨r, _ | ⟨mode, content⟩⟩ := e <;> rfl

theorem makingAt_eq_file_iff {dst r : Location} {e : Location × Entry} {content : List UInt8} :
    (r ++ dst, some content) = makingAt dst e ↔ ∃ mode, e = (r, .file mode content) := by
  obtain ⟨s, _ | ⟨mode, new⟩⟩ := e
  · simp [makingAt]
  · simp [makingAt, eq_comm]

/-- Nothing is at a place, or an empty directory, and there is room for one. -/
structure Vacant (d : Disk) (x : Location) : Prop where
  /-- No file is in the way. -/
  room : Room d x
  /-- Nothing is below it. -/
  empty : ∀ r, r ≠ [] → d.stat (r ++ x) = none

section Makings

variable {p : Process} {d t : Disk} {src dst : Location}

/-- What is on a disk can be made side by side elsewhere. -/
theorem apart_makingAt {e e' : Location × Entry} (he : e ∈ d.walk src) (he' : e' ∈ d.walk src)
    (hne : e.1 ≠ e'.1) : Apart (makingAt dst e) (makingAt dst e') := by
  have hnot : ∀ {e e' : Location × Entry}, e ∈ d.walk src → e' ∈ d.walk src → e.1 ≠ e'.1 →
      (makingAt dst e).2 ≠ none → ¬ (makingAt dst e).1 <:+ (makingAt dst e').1 := by
    intro e e' he he' hne hfile hsuf
    rw [fst_makingAt, fst_makingAt] at hsuf
    obtain ⟨s, hs⟩ := hsuf
    have hs : s ++ e.1 = e'.1 := List.append_cancel_right ((List.append_assoc ..).trans hs)
    -- What a file is below is a directory.
    have hstat' := Disk.mem_walk.1 (show (e'.1, e'.2) ∈ d.walk src from he')
    rw [← hs, List.append_assoc] at hstat'
    have hdir := Disk.stat_of_suffix hstat' (List.suffix_append s (e.1 ++ src)) fun heq ↦ hne ?_
    · obtain ⟨r, _ | ⟨mode, content⟩⟩ := e
      · exact hfile rfl
      · rw [Disk.mem_walk.1 he] at hdir
        exact absurd hdir (by simp)
    · rw [← hs]
      exact List.append_cancel_right (heq.trans (List.append_assoc ..).symm)
  exact ⟨hnot he he' hne, hnot he' he hne.symm⟩

/-- A walk of a directory starts with the directory. -/
theorem eq_dir_of_mem_walk (hdir : d.stat src = some .dir) {e : Location × Entry}
    (he : e ∈ d.walk src) (hnil : e.1 = []) : e.2 = .dir := by
  obtain ⟨r, entry⟩ := e
  obtain rfl : r = [] := hnil
  exact Option.some.inj ((Disk.mem_walk.1 he).symm.trans hdir)

/-- There is room at a vacant place for what is on a disk. -/
theorem ready_makingAt {e : Location × Entry} (he : e ∈ d.walk src) (hdst : Vacant t dst)
    (hroot : e.1 = [] → e.2 = .dir) : Ready t (makingAt dst e) := by
  refine ⟨⟨fun c hc ↦ ?_, fun y hy ↦ ?_⟩, fun hfile ↦ ?_⟩
  · rw [fst_makingAt] at hc
    rcases List.mem_append.1 hc with hc | hc
    · exact isFileName_of_mem_walk he c (List.mem_append_left _ hc)
    · exact hdst.room.isFileName c hc
  · rw [fst_makingAt] at hy
    rcases List.suffix_or_suffix_of_suffix hy (List.suffix_append e.1 dst) with hy | ⟨s, rfl⟩
    · exact hdst.room.free y hy
    · rcases eq_or_ne s [] with rfl | hs
      · exact hdst.room.free dst (List.suffix_refl _)
      · exact Or.inl (hdst.empty s hs)
  · obtain ⟨r, _ | ⟨mode, content⟩⟩ := e
    · exact absurd rfl hfile
    · exact hdst.empty r fun hr ↦ absurd (hroot hr) (by simp)

/-- **What is made at a vacant place** of a part of what a walk came past: the files of that
part. -/
theorem makeAll_makingAt_spec {es : List (Location × Entry)} (hes : es.Sublist (d.walk src))
    (hdst : Vacant t dst) (hroot : ∀ e ∈ es, e.1 = [] → e.2 = .dir) :
    ∃ t', (makeAll p 0o444 (es.map (makingAt dst))).run t = (.ok (), t') ∧
      ∀ r m content, t'.stat (r ++ dst) = some (.file m content) ↔
        m = 0o444 &&& ~~~p.umask ∧ ∃ mode, (r, .file mode content) ∈ es := by
  have hplaces := List.pairwise_map.1 ((d.nodup_walk src).sublist (hes.map Prod.fst))
  have hready : ∀ x ∈ es.map (makingAt dst), Ready t x := by
    intro x hx
    obtain ⟨e, he, rfl⟩ := List.mem_map.1 hx
    exact ready_makingAt (hes.subset he) hdst (hroot e he)
  obtain ⟨t', hrun, hfiles⟩ := @makeAll_spec t p 0o444 _ hready
    (List.pairwise_map.2 (hplaces.imp_of_mem fun he he' hne ↦
      apart_makingAt (hes.subset he) (hes.subset he') hne))
  refine ⟨t', hrun, fun r m content ↦ ?_⟩
  have hbefore : t.stat (r ++ dst) ≠ some (.file m content) := by
    rcases eq_or_ne r [] with rfl | hr
    · rcases hdst.room.free dst (List.suffix_refl _) with hnone | hdir
      · rw [List.nil_append, hnone]
        simp
      · rw [List.nil_append, hdir]
        simp
    · rw [hdst.empty r hr]
      simp
  rw [hfiles, or_iff_right hbefore, List.mem_map]
  refine and_congr_right fun _ ↦ ⟨?_, ?_⟩
  · rintro ⟨e, he, heq⟩
    obtain ⟨mode, rfl⟩ := makingAt_eq_file_iff.1 heq.symm
    exact ⟨mode, he⟩
  · rintro ⟨mode, he⟩
    exact ⟨_, he, rfl⟩

end Makings

/-! ### One replication -/

/-- The directory is empty. -/
structure EmptyDir (d : Disk) (x : Location) : Prop where
  /-- It is a directory. -/
  dir : d.stat x = some .dir
  /-- Nothing is below it. -/
  empty : ∀ r, r ≠ [] → d.stat (r ++ x) = none

theorem EmptyDir.vacant {d : Disk} {x : Location} (h : EmptyDir d x) : Vacant d x where
  room := by
    refine ⟨Disk.isFileName_of_stat h.dir, fun y hy ↦ Or.inr ?_⟩
    rcases eq_or_ne y x with rfl | hne
    · exact h.dir
    · exact Disk.stat_of_suffix h.dir hy hne
  empty := h.empty

/-- The entry of the archive for what a walk comes past. -/
def tarEntryAt : Location × Entry → Option TarEntry
  | (_, .dir) => none
  | (r, .file mode content) => some ⟨relPath r, mode, content⟩

namespace DevReplicator

/-- A walk that was sent to its end was sent completely. -/
theorem eq_of_sendWalk_ok {p : Process} {es : List (Location × Entry)} {w w' : List TarEntry}
    (h : (sendWalk p es).run w = (.ok (), w')) : w' = w ++ es.filterMap tarEntryAt := by
  induction es generalizing w with
  | nil => simpa [sendWalk, eq_comm] using h
  | cons e es ih =>
    obtain ⟨r, _ | ⟨mode, content⟩⟩ := e
    · exact ih h
    · rw [sendWalk] at h
      split at h
      case isTrue =>
        have hwrite : (writeEntry ⟨relPath r, mode, content⟩).run w =
          (.ok (), w ++ [⟨relPath r, mode, content⟩]) := rfl
        rw [Effect.run_bind_of_ok hwrite] at h
        rw [ih h, List.append_assoc]
        rfl
      case isFalse => exact absurd (Prod.mk.inj h).1 (by simp)

/-- The complete output of `Send`. -/
theorem eq_of_send_ok {p : Process} {d : Disk} {parent : GoString} {ref : Location}
    {stream : List TarEntry} (h : (send p d parent ref).run [] = (.ok (), stream)) :
    stream = (d.walk ref).filterMap tarEntryAt := by
  rw [send] at h
  split at h
  case isTrue => exact absurd (Prod.mk.inj h).1 (by simp)
  case isFalse => exact eq_of_sendWalk_ok h

/-- Files that may all be read are sent to the end. -/
theorem sendWalk_ok {p : Process} {es : List (Location × Entry)}
    (hread : ∀ r m content, (r, .file m content) ∈ es → p.Permits 0o400 m) (w : List TarEntry) :
    (sendWalk p es).run w = (.ok (), w ++ es.filterMap tarEntryAt) := by
  induction es generalizing w with
  | nil => simp [sendWalk]
  | cons e es ih =>
    have htail := ih fun r m content he ↦ hread r m content (List.mem_cons_of_mem _ he)
    obtain ⟨r, _ | ⟨mode, content⟩⟩ := e
    · exact htail w
    · have hwrite : (writeEntry ⟨relPath r, mode, content⟩).run w =
        (.ok (), w ++ [⟨relPath r, mode, content⟩]) := rfl
      rw [sendWalk, if_pos (hread r mode content List.mem_cons_self),
        Effect.run_bind_of_ok hwrite, htail, List.append_assoc]
      rfl

/-- `Send` is complete where the files may be read. -/
theorem send_ok {p : Process} {d : Disk} {parent : GoString} {ref : Location}
    (href : d.stat ref = some .dir)
    (hread : ∀ r m content, d.stat (r ++ ref) = some (.file m content) → p.Permits 0o400 m) :
    (send p d parent ref).run [] = (.ok (), (d.walk ref).filterMap tarEntryAt) := by
  rw [send, if_neg (by simp [href]),
    sendWalk_ok fun r m content he ↦ hread r m content (Disk.mem_walk.1 he), List.nil_append]

/-- What a walk comes past is a file. -/
def isFile (e : Location × Entry) : Bool :=
  e.2 ≠ .dir

/-- `Receive` of what was sent is a run of making the files. -/
theorem receive_eq_makeAll (p : Process) {dst : Location} (hdst : ∀ c ∈ dst, IsFileName c)
    {es : List (Location × Entry)} (hes : ∀ e ∈ es, ∀ c ∈ e.1, IsFileName c) :
    receive p dst (es.filterMap tarEntryAt) =
      makeAll p 0o444 ((es.filter isFile).map (makingAt dst)) := by
  induction es with
  | nil => rfl
  | cons e es ih =>
    have htail := ih fun e' he' ↦ hes e' (List.mem_cons_of_mem _ he')
    obtain ⟨r, _ | ⟨mode, content⟩⟩ := e
    · exact htail
    · show (put p 0o444 (target dst (relPath r)) content >>= fun _ ↦
        receive p dst (es.filterMap tarEntryAt)) = _
      rw [target_relPath hdst (hes _ List.mem_cons_self), htail]
      rfl

theorem grows_receive (p : Process) (dst : Location) (stream : List TarEntry) :
    Effect.Steps (Grows (0o444 &&& ~~~p.umask)) (receive p dst stream) := by
  induction stream with
  | nil => exact Grows.refl _
  | cons hdr stream ih =>
    exact Effect.Steps.bind (R := Grows _) Grows.trans (grows_put _ _ _ _) fun _ ↦ ih

/-- **One replication**: `Receive` returns, and the files are those that were sent. -/
theorem receive_spec {d t : Disk} {ref dst : Location} {s q : Process} {parent : GoString}
    {stream : List TarEntry} (href : d.stat ref = some .dir) (hdst : EmptyDir t dst)
    (hsend : (send s d parent ref).run [] = (.ok (), stream)) :
    ∃ t', (receive q dst stream).run t = (.ok (), t') ∧
      ∀ r m content, t'.stat (r ++ dst) = some (.file m content) ↔
        m = 0o444 &&& ~~~q.umask ∧ ∃ mode, d.stat (r ++ ref) = some (.file mode content) := by
  have hnames : ∀ e ∈ d.walk ref, ∀ c ∈ e.1, IsFileName c :=
    fun e he c hc ↦ isFileName_of_mem_walk he c (List.mem_append_left _ hc)
  obtain ⟨t', hrun, hfiles⟩ := makeAll_makingAt_spec (p := q) List.filter_sublist hdst.vacant
    fun e he ↦ eq_dir_of_mem_walk href (List.mem_filter.1 he).1
  refine ⟨t', ?_, fun r m content ↦ ?_⟩
  · rw [eq_of_send_ok hsend, receive_eq_makeAll q hdst.vacant.room.isFileName hnames]
    exact hrun
  · rw [hfiles]
    simp only [List.mem_filter, Disk.mem_walk, isFile]
    simp

end DevReplicator

/-! ### Versions -/

/-- What is frozen at a place: a directory, whose files have the permissions of a frozen file. -/
structure IsVersion (umask : UInt32) (d : Disk) (ref : Location) : Prop where
  /-- It is a directory. -/
  dir : d.stat ref = some .dir
  /-- The files are read-only. -/
  mode : ∀ r m content, d.stat (r ++ ref) = some (.file m content) → m = 0o444 &&& ~~~umask

/-- `copyTreeReadOnly` froze the tree at one place at another, where nothing was. -/
structure Froze (p : Process) (d : Disk) (root ref : Location) (d' : Disk) : Prop where
  /-- What is frozen is a tree. -/
  dir : d.stat root = some .dir
  /-- The place is one that a directory can have. -/
  isFileName : ∀ c ∈ ref, IsFileName c
  /-- Nothing was there. -/
  fresh : d.stat ref = none
  /-- The copy returned. -/
  copied : (copyTreeReadOnlyOnDisk p root ref).run d = (.ok (), d')

theorem grows_copyWalkOnDisk (p : Process) (dst : Location) (es : List (Location × Entry)) :
    Effect.Steps (Grows (0o444 &&& ~~~p.umask)) (copyWalkOnDisk p dst es) := by
  induction es with
  | nil => exact Grows.refl _
  | cons e es ih =>
    obtain ⟨r, _ | ⟨mode, content⟩⟩ := e
    · exact Effect.Steps.bind (R := Grows _) Grows.trans (grows_mkdirAll _ _) fun _ ↦ ih
    · rw [copyWalkOnDisk]
      split
      case isTrue =>
        exact Effect.Steps.bind (R := Grows _) Grows.trans (grows_put _ _ _ _) fun _ ↦ ih
      case isFalse => exact Grows.refl _

/-- A copy that returned has made the directories that it came past. -/
theorem stat_of_copyWalkOnDisk_ok {p : Process} {dst r : Location} {es : List (Location × Entry)}
    {d d' : Disk} (h : (copyWalkOnDisk p dst es).run d = (.ok (), d')) (hr : (r, .dir) ∈ es) :
    d'.stat (target dst (relPath r)) = some .dir := by
  induction es generalizing d with
  | nil => exact absurd hr List.not_mem_nil
  | cons e es ih =>
    rcases List.mem_cons.1 hr with rfl | htail
    · obtain ⟨_, d₁, hmkdir, hwalk⟩ := Effect.exists_of_run_bind_ok h
      have hgrows := grows_copyWalkOnDisk p dst es d₁
      rw [hwalk] at hgrows
      exact hgrows.dir _ (stat_of_mkdirAll_ok hmkdir)
    · obtain ⟨s, _ | ⟨mode, content⟩⟩ := e
      · obtain ⟨_, d₁, -, hwalk⟩ := Effect.exists_of_run_bind_ok h
        exact ih hwalk htail
      · rw [copyWalkOnDisk] at h
        split at h
        case isTrue =>
          obtain ⟨_, d₁, -, hwalk⟩ := Effect.exists_of_run_bind_ok h
          exact ih hwalk htail
        case isFalse => exact absurd (Prod.mk.inj h).1 (by simp)

/-- The copy of a tree that is there is a run over what its walk comes past. -/
theorem run_copyTreeReadOnlyOnDisk {p : Process} {d : Disk} {root : Location}
    (hdir : d.stat root = some .dir) (ref : Location) :
    (copyTreeReadOnlyOnDisk p root ref).run d = (copyWalkOnDisk p ref (d.walk root)).run d := by
  show (if d.stat root = none then (.error .ENOENT, d)
    else (copyWalkOnDisk p ref (d.walk root)).run d) = _
  rw [if_neg (by simp [hdir])]

/-- **What is frozen is a version.** -/
theorem Froze.isVersion {p : Process} {d d' : Disk} {root ref : Location}
    (h : Froze p d root ref d') : IsVersion p.umask d' ref := by
  have hcopy := h.copied
  rw [run_copyTreeReadOnlyOnDisk h.dir] at hcopy
  have hgrows := grows_copyWalkOnDisk p ref (d.walk root) d
  rw [hcopy] at hgrows
  refine ⟨?_, fun r m content hfile ↦ ?_⟩
  · have hdir := stat_of_copyWalkOnDisk_ok hcopy
      (Disk.mem_walk.2 (show d.stat ([] ++ root) = some .dir from h.dir))
    rwa [target_relPath h.isFileName (by simp), List.nil_append] at hdir
  · refine (hgrows.file _ _ _ hfile).resolve_right ?_
    rintro ⟨old, hold⟩
    rw [Disk.stat_eq_none_of_suffix h.fresh (List.suffix_append r ref)] at hold
    exact absurd hold (by simp)

/-- A copy of files that may all be read is a run of making them. -/
theorem copyWalkOnDisk_eq_makeAll (p : Process) {dst : Location} (hdst : ∀ c ∈ dst, IsFileName c)
    {es : List (Location × Entry)} (hes : ∀ e ∈ es, ∀ c ∈ e.1, IsFileName c)
    (hread : ∀ r m content, (r, .file m content) ∈ es → p.Permits 0o400 m) :
    copyWalkOnDisk p dst es = makeAll p 0o444 (es.map (makingAt dst)) := by
  induction es with
  | nil => rfl
  | cons e es ih =>
    have htail := ih (fun e' he' ↦ hes e' (List.mem_cons_of_mem _ he'))
      fun r m content he ↦ hread r m content (List.mem_cons_of_mem _ he)
    have htarget := target_relPath hdst (hes e List.mem_cons_self)
    obtain ⟨r, _ | ⟨mode, content⟩⟩ := e
    · rw [copyWalkOnDisk, htail, htarget]
      rfl
    · rw [copyWalkOnDisk, if_pos (hread r mode content List.mem_cons_self), htail, htarget]
      rfl

/-- **What a copy leaves where nothing was**: the files of the tree, with the mode of a frozen
file. -/
theorem copyTreeReadOnlyOnDisk_spec {p : Process} {d : Disk} {root ref : Location}
    (hdir : d.stat root = some .dir) (hroom : Room d ref) (hfresh : d.stat ref = none)
    (hread : ∀ r m content, d.stat (r ++ root) = some (.file m content) → p.Permits 0o400 m) :
    ∃ d', (copyTreeReadOnlyOnDisk p root ref).run d = (.ok (), d') ∧
      ∀ r m content, d'.stat (r ++ ref) = some (.file m content) ↔
        m = 0o444 &&& ~~~p.umask ∧ ∃ mode, d.stat (r ++ root) = some (.file mode content) := by
  have hnames : ∀ e ∈ d.walk root, ∀ c ∈ e.1, IsFileName c :=
    fun e he c hc ↦ isFileName_of_mem_walk he c (List.mem_append_left _ hc)
  have hvacant : Vacant d ref :=
    ⟨hroom, fun r _ ↦ Disk.stat_eq_none_of_suffix hfresh (List.suffix_append r ref)⟩
  obtain ⟨d', hrun, hfiles⟩ := makeAll_makingAt_spec (p := p) (List.Sublist.refl _) hvacant
    fun e he ↦ eq_dir_of_mem_walk hdir he
  refine ⟨d', ?_, fun r m content ↦ ?_⟩
  · rw [run_copyTreeReadOnlyOnDisk hdir, copyWalkOnDisk_eq_makeAll p hroom.isFileName hnames
      fun r m content he ↦ hread r m content (Disk.mem_walk.1 he)]
    exact hrun
  · rw [hfiles]
    simp only [Disk.mem_walk]

/-- **A copy of a tree has its files**: what `copyTreeReadOnly` leaves where nothing was is what the
abstract copy of the tree leaves. -/
theorem copyTreeReadOnlyOnDisk_refines {p : Process} {d : Disk} {root ref : Location}
    (hdir : d.stat root = some .dir) (hroom : Room d ref) (hfresh : d.stat ref = none)
    (hread : ∀ r m content, d.stat (r ++ root) = some (.file m content) → p.Permits 0o400 m) :
    ∃ d', (copyTreeReadOnlyOnDisk p root ref).run d = (.ok (), d') ∧
      ∃ files, copyTreeReadOnly (workTree d root) none = (.ok (), some files) ∧
        (workTree d' ref).frozen.Perm files := by
  obtain ⟨d', hrun, hfiles⟩ := copyTreeReadOnlyOnDisk_spec hdir hroom hfresh hread
  refine ⟨d', hrun, _, rfl, ?_⟩
  rw [copyWalk_none]
  refine (List.perm_ext_iff_of_nodup (nodup_frozen _) (nodup_frozen _)).2 fun f ↦ ?_
  rw [mem_frozen_workTree, mem_frozen_workTree]
  simp only [hfiles]
  constructor
  · rintro ⟨r, m, content, ⟨-, mode, hstat⟩, rfl⟩
    exact ⟨r, mode, content, hstat, rfl⟩
  · rintro ⟨r, m, content, hstat, rfl⟩
    exact ⟨r, _, content, ⟨rfl, m, hstat⟩, rfl⟩

/-! ### Chains of replications -/

/-- What is at a place and below it is the same on both disks. -/
def Unchanged (d d' : Disk) (x : Location) : Prop :=
  ∀ r, d'.stat (r ++ x) = d.stat (r ++ x)

/-- Where a version gets to, from node to node. The disk of a node is any disk, and between the
replications anything else may change on it. -/
inductive Replicated (umask : UInt32) (d : Disk) (ref : Location) : Disk → Location → Prop
  /-- The version itself. -/
  | version {e : Disk} (hkeep : Unchanged d e ref) : Replicated umask d ref e ref
  /-- The complete output of `Send` is received into an empty directory. -/
  | hop {e t t' : Disk} {src dst : Location} {s q : Process} {parent : GoString}
      {stream : List TarEntry} (hchain : Replicated umask d ref e src)
      (hsend : (DevReplicator.send s e parent src).run [] = (.ok (), stream))
      (hdst : EmptyDir t dst) (hq : q.umask = umask)
      (hkeep : Unchanged ((DevReplicator.receive q dst stream).run t).2 t' dst) :
      Replicated umask d ref t' dst

/-- The files of two places are the same. -/
def SameFiles (d : Disk) (x : Location) (e : Disk) (y : Location) : Prop :=
  ∀ r m content, e.stat (r ++ y) = some (.file m content) ↔ d.stat (r ++ x) = some (.file m content)

/-- Places of the same files have working trees of the same files. -/
theorem SameFiles.perm_files {d e : Disk} {x y : Location} (h : SameFiles d x e y) :
    (workTree e y).files.Perm (workTree d x).files := by
  refine (List.perm_ext_iff_of_nodup (workTree e y).nodup_files (workTree d x).nodup_files).2
    fun f ↦ ?_
  rw [mem_files_workTree, mem_files_workTree]
  simp only [h _ _ _]

/-- **One replication of a version**: it is a version of the same files. -/
theorem IsVersion.receive {umask : UInt32} {e t : Disk} {src dst : Location} {s q : Process}
    {parent : GoString} {stream : List TarEntry} (h : IsVersion umask e src)
    (hsend : (DevReplicator.send s e parent src).run [] = (.ok (), stream))
    (hdst : EmptyDir t dst) (hq : q.umask = umask) :
    ∃ t', (DevReplicator.receive q dst stream).run t = (.ok (), t') ∧ IsVersion umask t' dst ∧
      SameFiles e src t' dst := by
  obtain ⟨t', hrun, hfiles⟩ := DevReplicator.receive_spec (q := q) h.dir hdst hsend
  rw [hq] at hfiles
  have hgrows := DevReplicator.grows_receive q dst stream t
  rw [hrun] at hgrows
  refine ⟨t', hrun, ⟨hgrows.dir dst hdst.dir, fun r m content hfile ↦
    ((hfiles r m content).1 hfile).1⟩, fun r m content ↦ ?_⟩
  rw [hfiles]
  constructor
  · rintro ⟨rfl, old, hold⟩
    rwa [h.mode r old content hold] at hold
  · intro hfile
    exact ⟨h.mode r m content hfile, m, hfile⟩

/-- What nobody changed is a version still. -/
theorem IsVersion.of_unchanged {umask : UInt32} {d e : Disk} {x : Location}
    (h : IsVersion umask d x) (hkeep : Unchanged d e x) : IsVersion umask e x where
  dir := (hkeep []).trans h.dir
  mode r m content hfile := h.mode r m content ((hkeep r).symm.trans hfile)

/-- **Along a chain** there are versions of the same files. -/
theorem Replicated.isVersion {umask : UInt32} {d e : Disk} {ref src : Location}
    (hversion : IsVersion umask d ref) (h : Replicated umask d ref e src) :
    IsVersion umask e src ∧ SameFiles d ref e src := by
  induction h with
  | version hkeep =>
    exact ⟨hversion.of_unchanged hkeep, fun r m content ↦ by rw [hkeep r]⟩
  | hop _ hsend hdst hq hkeep ih =>
    obtain ⟨hsrc, hsame⟩ := ih
    obtain ⟨t₁, hrun, hdstVersion, hhop⟩ := hsrc.receive hsend hdst hq
    rw [hrun] at hkeep
    refine ⟨hdstVersion.of_unchanged hkeep, fun r m content ↦ ?_⟩
    rw [hkeep r, hhop r m content, hsame r m content]

/-- **Replication preserves a version.** A tree that was frozen, and carried along any chain of
nodes, is sent to one more node: `Receive` returns, the directory has the same relative paths with
the same contents, and its hash is the hash of the version. -/
theorem replication_preserves_version {p : Process} {d d₀ : Disk} {root ref : Location}
    (hfroze : Froze p d root ref d₀) {e : Disk} {src : Location}
    (hchain : Replicated p.umask d₀ ref e src) {s q : Process} {parent : GoString}
    {stream : List TarEntry} (hsend : (DevReplicator.send s e parent src).run [] = (.ok (), stream))
    {t : Disk} {dst : Location} (hdst : EmptyDir t dst) (hq : q.umask = p.umask) :
    ((DevReplicator.receive q dst stream).run t).1 = .ok () ∧
      (workTree ((DevReplicator.receive q dst stream).run t).2 dst).frozen.Perm
        (workTree d₀ ref).frozen ∧
      hashTree (workTree ((DevReplicator.receive q dst stream).run t).2 dst) =
        hashTree (workTree d₀ ref) := by
  obtain ⟨hversion, hsame⟩ := hchain.isVersion hfroze.isVersion
  obtain ⟨t', hrun, -, hhop⟩ := hversion.receive hsend hdst hq
  have hfiles : SameFiles d₀ ref t' dst :=
    fun r m content ↦ (hhop r m content).trans (hsame r m content)
  rw [hrun]
  exact ⟨rfl, hfiles.perm_files.map _, hashTree_eq_of_perm hfiles.perm_files⟩

/-- A directory with no entry below it is empty. -/
theorem EmptyDir.of_entries {d : Disk} {x : Location} (hdir : d.stat x = some .dir)
    (h : ∀ e ∈ d.entries, x <:+ e.1 → e.1 = x) : EmptyDir d x := by
  refine ⟨hdir, fun r hr ↦ ?_⟩
  rcases hstat : d.stat (r ++ x) with _ | e
  · rfl
  · have hmem : (r ++ x, e) ∈ d.entries := by
      rcases List.mem_cons.1 (Disk.mem_entries.2 hstat) with hroot | hmem
      · exact absurd (List.append_eq_nil_iff.1 (Prod.mk.inj hroot).1).1 hr
      · exact hmem
    have hself : r ++ x = x := h _ hmem (List.suffix_append r x)
    exact absurd (List.append_left_eq_self.1 hself) hr

/-- The process of the sample. -/
def sampleProcess : Process := ⟨0o022, false⟩

/-- A node with a working tree `w` of two files, one of them in a directory, and with two empty
directories `m` and `n`. -/
def sampleNode : Disk :=
  let name (s : String) : GoString := ascii s.toList
  ((makeAll sampleProcess 0o666
    [([name "a", name "w"], some [0x78]), ([name "b", name "s", name "w"], some [0x79]),
      ([name "m"], none), ([name "n"], none)]).run Disk.empty).2

/-- A place in the root of the sample. -/
def samplePlace (s : String) : Location :=
  [ascii s.toList]

/-- The node after its tree was frozen at `v`. -/
def frozenNode : Disk :=
  ((copyTreeReadOnlyOnDisk sampleProcess (samplePlace "w") (samplePlace "v")).run sampleNode).2

/-- What is sent of a node. -/
def sentFrom (d : Disk) (x : Location) : List TarEntry :=
  ((DevReplicator.send sampleProcess d [] x).run []).2

/-- The sample node after the version was received at `m`. -/
def firstNode : Disk :=
  ((DevReplicator.receive sampleProcess (samplePlace "m")
    (sentFrom frozenNode (samplePlace "v"))).run sampleNode).2

/-- Two replications of a version, at work. -/
theorem replication_preserves_version_sample :
    let stream := sentFrom firstNode (samplePlace "m")
    let received := (DevReplicator.receive sampleProcess (samplePlace "n") stream).run sampleNode
    received.1 = .ok () ∧
      (workTree received.2 (samplePlace "n")).frozen.Perm
        (workTree frozenNode (samplePlace "v")).frozen ∧
      hashTree (workTree received.2 (samplePlace "n")) =
        hashTree (workTree frozenNode (samplePlace "v")) :=
  @replication_preserves_version sampleProcess sampleNode _ (samplePlace "w") _
    ⟨by decide +kernel, by decide +kernel, by decide +kernel, Prod.ext (by decide +kernel) rfl⟩
    _ _ (@Replicated.hop _ _ _ _ _ _ _ _ sampleProcess sampleProcess []
      (sentFrom frozenNode (samplePlace "v")) (.version fun _ ↦ rfl)
      (Prod.ext (by decide +kernel) rfl)
      (EmptyDir.of_entries (by decide +kernel) (by decide +kernel)) rfl (fun _ ↦ rfl))
    sampleProcess sampleProcess [] _ (Prod.ext (by decide +kernel) rfl) _ _
    (EmptyDir.of_entries (by decide +kernel) (by decide +kernel)) rfl

end SourceOS.Mount
