import Mathlib.Data.Char
import Mathlib.Data.List.Lex
import Mathlib.Data.List.Sort
import SourceOS.Foundation.Effect
import SourceOS.Foundation.Filepath
import SourceOS.Foundation.Lists

/-!
# Directories and files on a disk

The part of a file system that a copy of a tree meets: directories, regular files with their mode
and content, and the calls `Stat`, `Mkdir`, `MkdirAll`, and `OpenFile` for writing together with the
write. A place on the disk is a list of names, **the last name first**, so that the directory a name
is in is the tail of the list and "below" is the suffix relation.

A `Disk` carries what every disk satisfies: an entry is a plain name in a directory that exists, and
a place has one entry. `Disk.stat` is what there is at a place, and each call is described by what
it does to `stat` at every place (`mkdirAll_spec`, `put_spec`): nothing else changes. Where a call
may fail, what is known of it is that the disk `Grows`. `Disk.walk` comes past what there is below a
place (`Disk.mem_walk`).

The files belong to the process that makes the calls, and their modes bind it unless it overrides
them; directories it may read and write. There are no symbolic links, and no limit on the length of
a name or the size of the disk.
-/

namespace SourceOS.Os

open Go Filepath

/-! ### Disks -/

/-- A place, the last name first; `[]` is the root. -/
abbrev Location := List GoString

/-- What can be at a place. -/
inductive Entry where
  /-- A directory. -/
  | dir
  /-- A regular file. -/
  | file (mode : UInt32) (content : List UInt8)
deriving DecidableEq

/-- A name that a file or a directory can have. -/
def IsFileName (c : GoString) : Prop :=
  IsName c ∧ 0 ∉ c

instance (c : GoString) : Decidable (IsName c) :=
  inferInstanceAs (Decidable (_ ∧ _ ∧ _ ∧ _))

instance (c : GoString) : Decidable (IsFileName c) :=
  inferInstanceAs (Decidable (_ ∧ _))

/-- What is at a place of a table of entries. The root is a directory. -/
def statIn (entries : List (Location × Entry)) : Location → Option Entry
  | [] => some .dir
  | c :: dir => entries.lookup (c :: dir)

/-- A disk. -/
structure Disk where
  /-- Its entries, but the root. -/
  entries : List (Location × Entry)
  /-- A place has one entry. -/
  nodup : (entries.map Prod.fst).Nodup
  /-- An entry is a name in a directory. -/
  rooted : ∀ e ∈ entries, ∃ c dir, e.1 = c :: dir ∧ IsFileName c ∧ statIn entries dir = some .dir

namespace Disk

/-- `Stat`. -/
def stat (d : Disk) (x : Location) : Option Entry :=
  statIn d.entries x

@[simp] theorem stat_nil (d : Disk) : d.stat [] = some .dir := rfl

variable {d : Disk}

/-- An empty disk. -/
def empty : Disk where
  entries := []
  nodup := List.nodup_nil
  rooted _ h := absurd h List.not_mem_nil

/-- What is at a place is an entry of the disk, or the root. -/
theorem stat_cons_eq_some_iff {c : GoString} {dir : Location} {e : Entry} :
    d.stat (c :: dir) = some e ↔ (c :: dir, e) ∈ d.entries :=
  lookup_eq_some_iff_mem d.nodup

/-- What has an entry is a name in a directory. -/
theorem stat_tail {c : GoString} {dir : Location} {e : Entry} (h : d.stat (c :: dir) = some e) :
    IsFileName c ∧ d.stat dir = some .dir := by
  obtain ⟨c', dir', heq, hname, hdir⟩ := d.rooted _ (stat_cons_eq_some_iff.1 h)
  obtain ⟨rfl, rfl⟩ := List.cons.inj heq
  exact ⟨hname, hdir⟩

/-- Everything a place is below is a directory. -/
theorem stat_of_suffix {x y : Location} {e : Entry} (hy : d.stat y = some e) (h : x <:+ y)
    (hne : x ≠ y) : d.stat x = some .dir := by
  induction y generalizing e with
  | nil => exact absurd (List.suffix_nil.1 h) hne
  | cons c y ih =>
    have hdir := (stat_tail hy).2
    rcases List.suffix_cons_iff.1 h with rfl | h
    · exact absurd rfl hne
    · by_cases hxy : x = y
      · exact hxy ▸ hdir
      · exact ih hdir h hxy

/-- The names on the way to an entry are names of files. -/
theorem isFileName_of_stat {y : Location} {e : Entry} (hy : d.stat y = some e) :
    ∀ c ∈ y, IsFileName c := by
  induction y generalizing e with
  | nil => exact fun c hc ↦ absurd hc List.not_mem_nil
  | cons b y ih =>
    obtain ⟨hb, hdir⟩ := stat_tail hy
    intro c hc
    rcases List.mem_cons.1 hc with rfl | hc
    · exact hb
    · exact ih hdir c hc

/-- Nothing is below a place where nothing is. -/
theorem stat_eq_none_of_suffix {x y : Location} (hx : d.stat x = none) (h : x <:+ y) :
    d.stat y = none := by
  rcases hy : d.stat y with _ | e
  · rfl
  · by_cases hxy : x = y
    · rw [hxy, hy] at hx
      exact absurd hx (by simp)
    · rw [stat_of_suffix hy h hxy] at hx
      exact absurd hx (by simp)

/-! ### One more entry, and another content -/

/-- The disk with one more entry. -/
def add (d : Disk) (c : GoString) (dir : Location) (e : Entry) (hname : IsFileName c)
    (hdir : d.stat dir = some .dir) (hfresh : d.stat (c :: dir) = none) : Disk where
  entries := (c :: dir, e) :: d.entries
  nodup := by
    refine List.nodup_cons.2 ⟨fun hmem ↦ ?_, d.nodup⟩
    obtain ⟨⟨x, e'⟩, hx, rfl⟩ := List.mem_map.1 hmem
    rw [stat_cons_eq_some_iff.2 hx] at hfresh
    exact absurd hfresh (by simp)
  rooted := by
    have hkeep : ∀ x, d.stat x = some .dir →
        statIn ((c :: dir, e) :: d.entries) x = some .dir := by
      rintro (_ | ⟨b, x⟩) hx
      · rfl
      · rw [statIn, List.lookup_cons]
        rcases hbx : (b :: x == c :: dir) with _ | _
        · exact hx
        · rw [eq_of_beq hbx, hfresh] at hx
          exact absurd hx (by simp)
    intro f hf
    rcases List.mem_cons.1 hf with rfl | hf
    · exact ⟨c, dir, rfl, hname, hkeep dir hdir⟩
    · obtain ⟨b, x, heq, hb, hx⟩ := d.rooted f hf
      exact ⟨b, x, heq, hb, hkeep x hx⟩

theorem stat_add {c : GoString} {dir : Location} {e : Entry} (hname : IsFileName c)
    (hdir : d.stat dir = some .dir) (hfresh : d.stat (c :: dir) = none) (x : Location) :
    (d.add c dir e hname hdir hfresh).stat x = if x = c :: dir then some e else d.stat x := by
  rcases x with _ | ⟨b, x⟩
  · rfl
  · show ((c :: dir, e) :: d.entries).lookup (b :: x) = _
    rw [List.lookup_cons]
    rcases hbx : (b :: x == c :: dir) with _ | _
    · rw [if_neg (beq_eq_false_iff_ne.1 hbx)]
      rfl
    · rw [if_pos (eq_of_beq hbx)]

/-- An entry with another content, if it is the file at the place. -/
def rewriteAt (x : Location) (content : List UInt8) (e : Location × Entry) : Location × Entry :=
  (e.1, match e.2 with
    | .dir => .dir
    | .file mode old => .file mode (if e.1 = x then content else old))

theorem lookup_map_rewriteAt (x y : Location) (content : List UInt8)
    (entries : List (Location × Entry)) :
    (entries.map (rewriteAt x content)).lookup y =
      (entries.lookup y).map fun e ↦ (rewriteAt x content (y, e)).2 := by
  induction entries with
  | nil => rfl
  | cons e entries ih =>
    rw [List.map_cons, List.lookup_cons, List.lookup_cons, ih]
    rcases hy : (y == e.1) with _ | _
    · rw [show (y == (rewriteAt x content e).1) = false from hy]
    · obtain rfl := eq_of_beq hy
      rw [show (e.1 == (rewriteAt x content e).1) = true from hy]
      rfl

theorem statIn_map_rewriteAt (x y : Location) (content : List UInt8)
    (entries : List (Location × Entry)) :
    statIn (entries.map (rewriteAt x content)) y =
      (statIn entries y).map fun e ↦ (rewriteAt x content (y, e)).2 := by
  rcases y with _ | ⟨c, dir⟩
  · rfl
  · exact lookup_map_rewriteAt x _ content entries

/-- The disk with another content of the file at a place. -/
def rewrite (d : Disk) (x : Location) (content : List UInt8) : Disk where
  entries := d.entries.map (rewriteAt x content)
  nodup := by
    rw [List.map_map]
    exact d.nodup
  rooted := by
    intro f hf
    obtain ⟨e, he, rfl⟩ := List.mem_map.1 hf
    obtain ⟨c, dir, heq, hc, hdir⟩ := d.rooted e he
    refine ⟨c, dir, heq, hc, ?_⟩
    rw [statIn_map_rewriteAt, hdir]
    rfl

theorem stat_rewrite (x y : Location) (content : List UInt8) :
    (d.rewrite x content).stat y =
      (d.stat y).map fun e ↦ (rewriteAt x content (y, e)).2 :=
  statIn_map_rewriteAt x y content d.entries

end Disk

/-! ### The calls -/

/-- The errors of the calls. -/
inductive Errno where
  | EACCES
  | EEXIST
  | EINVAL
  | EISDIR
  | ENOENT
  | ENOTDIR
deriving DecidableEq

/-- Who makes the calls. -/
structure Process where
  /-- The permissions that new files do not get. -/
  umask : UInt32
  /-- Whether the permissions of its files bind it. -/
  override : Bool
deriving DecidableEq

/-- The process has one of the permissions of a file of its own, given as a bit of the mode. -/
def Process.Permits (p : Process) (bit mode : UInt32) : Prop :=
  p.override = true ∨ mode &&& bit ≠ 0

instance (p : Process) (bit mode : UInt32) : Decidable (p.Permits bit mode) :=
  inferInstanceAs (Decidable (_ ∨ _))

/-- A new entry. -/
def create (x : Location) (e : Entry) : Effect Errno Disk Unit := fun d ↦
  match x with
  | [] => (.error .EEXIST, d)
  | c :: dir =>
    if hname : IsFileName c then
      if hdir : d.stat dir = some .dir then
        if hfresh : d.stat (c :: dir) = none then (.ok (), d.add c dir e hname hdir hfresh)
        else (.error .EEXIST, d)
      else (.error (if d.stat dir = none then .ENOENT else .ENOTDIR), d)
    else (.error .EINVAL, d)

/-- `os.MkdirAll`. -/
def mkdirAll : Location → Effect Errno Disk Unit
  | [] => pure ()
  | c :: dir => fun d ↦
    match d.stat (c :: dir) with
    | some .dir => (.ok (), d)
    | some (.file _ _) => (.error .ENOTDIR, d)
    | none => (mkdirAll dir >>= fun _ ↦ create (c :: dir) .dir).run d

/-- `os.OpenFile` with `O_CREATE`, `O_WRONLY` and `O_TRUNC` and the permissions of a new file, and
then a write of the whole content. -/
def writeFile (p : Process) (perm : UInt32) (x : Location) (content : List UInt8) :
    Effect Errno Disk Unit := fun d ↦
  match d.stat x with
  | some .dir => (.error .EISDIR, d)
  | some (.file mode _) =>
    if p.Permits 0o200 mode then (.ok (), d.rewrite x content) else (.error .EACCES, d)
  | none => (create x (.file (perm &&& ~~~p.umask) content)).run d

/-- A file with the directories it is in. -/
def put (p : Process) (perm : UInt32) (x : Location) (content : List UInt8) :
    Effect Errno Disk Unit :=
  mkdirAll x.tail >>= fun _ ↦ writeFile p perm x content

variable {d : Disk}

theorem not_cons_suffix (c : GoString) (dir : Location) : ¬ c :: dir <:+ dir := by
  intro h
  have := h.length_le
  rw [List.length_cons] at this
  omega

theorem run_mkdirAll_of_dir {c : GoString} {dir : Location} (h : d.stat (c :: dir) = some .dir) :
    (mkdirAll (c :: dir)).run d = (.ok (), d) := by
  show (match d.stat (c :: dir) with
    | some .dir => ((.ok (), d) : Except Errno Unit × Disk)
    | some (.file _ _) => (.error .ENOTDIR, d)
    | none => (mkdirAll dir >>= fun _ ↦ create (c :: dir) .dir).run d) = _
  rw [h]

theorem run_mkdirAll_of_none {c : GoString} {dir : Location} (h : d.stat (c :: dir) = none) :
    (mkdirAll (c :: dir)).run d = (mkdirAll dir >>= fun _ ↦ create (c :: dir) .dir).run d := by
  show (match d.stat (c :: dir) with
    | some .dir => ((.ok (), d) : Except Errno Unit × Disk)
    | some (.file _ _) => (.error .ENOTDIR, d)
    | none => (mkdirAll dir >>= fun _ ↦ create (c :: dir) .dir).run d) = _
  rw [h]

theorem run_mkdirAll_of_file {c : GoString} {dir : Location} {mode : UInt32}
    {content : List UInt8} (h : d.stat (c :: dir) = some (.file mode content)) :
    (mkdirAll (c :: dir)).run d = (.error .ENOTDIR, d) := by
  show (match d.stat (c :: dir) with
    | some .dir => ((.ok (), d) : Except Errno Unit × Disk)
    | some (.file _ _) => (.error .ENOTDIR, d)
    | none => (mkdirAll dir >>= fun _ ↦ create (c :: dir) .dir).run d) = _
  rw [h]

theorem run_writeFile_of_none {p : Process} {perm : UInt32} {x : Location}
    {content : List UInt8} (h : d.stat x = none) :
    (writeFile p perm x content).run d =
      (create x (.file (perm &&& ~~~p.umask) content)).run d := by
  show (match d.stat x with
    | some .dir => ((.error .EISDIR, d) : Except Errno Unit × Disk)
    | some (.file mode _) =>
      if p.Permits 0o200 mode then (.ok (), d.rewrite x content) else (.error .EACCES, d)
    | none => (create x (.file (perm &&& ~~~p.umask) content)).run d) = _
  rw [h]

theorem run_writeFile_of_dir {p : Process} {perm : UInt32} {x : Location}
    {content : List UInt8} (h : d.stat x = some .dir) :
    (writeFile p perm x content).run d = (.error .EISDIR, d) := by
  show (match d.stat x with
    | some .dir => ((.error .EISDIR, d) : Except Errno Unit × Disk)
    | some (.file mode _) =>
      if p.Permits 0o200 mode then (.ok (), d.rewrite x content) else (.error .EACCES, d)
    | none => (create x (.file (perm &&& ~~~p.umask) content)).run d) = _
  rw [h]

theorem run_writeFile_of_file {p : Process} {perm mode : UInt32} {x : Location}
    {content old : List UInt8} (h : d.stat x = some (.file mode old)) :
    (writeFile p perm x content).run d =
      if p.Permits 0o200 mode then (.ok (), d.rewrite x content) else (.error .EACCES, d) := by
  show (match d.stat x with
    | some .dir => ((.error .EISDIR, d) : Except Errno Unit × Disk)
    | some (.file mode _) =>
      if p.Permits 0o200 mode then (.ok (), d.rewrite x content) else (.error .EACCES, d)
    | none => (create x (.file (perm &&& ~~~p.umask) content)).run d) = _
  rw [h]

/-- **What a new entry does**: it is there, and nothing else changes. -/
theorem create_spec {c : GoString} {dir : Location} (e : Entry) (hname : IsFileName c)
    (hdir : d.stat dir = some .dir) (hfresh : d.stat (c :: dir) = none) :
    ∃ d', (create (c :: dir) e).run d = (.ok (), d') ∧
      ∀ y, d'.stat y = if y = c :: dir then some e else d.stat y := by
  refine ⟨d.add c dir e hname hdir hfresh, ?_, Disk.stat_add hname hdir hfresh⟩
  show (if hname : IsFileName c then _ else _) = _
  rw [dif_pos hname, dif_pos hdir, dif_pos hfresh]

/-- What was made is there. -/
theorem stat_of_create_ok {x : Location} {e : Entry} {d' : Disk}
    (h : (create x e).run d = (.ok (), d')) : d'.stat x = some e := by
  rcases x with _ | ⟨c, dir⟩
  · exact absurd (Prod.mk.inj h).1 (by simp)
  change (if hname : IsFileName c then _ else _ : Except Errno Unit × Disk) = _ at h
  split at h
  case isTrue hname =>
    split at h
    case isTrue hdir =>
      split at h
      case isTrue hfresh => rw [← (Prod.mk.inj h).2, Disk.stat_add, if_pos rfl]
      case isFalse => exact absurd (Prod.mk.inj h).1 (by simp)
    case isFalse => exact absurd (Prod.mk.inj h).1 (by simp)
  case isFalse => exact absurd (Prod.mk.inj h).1 (by simp)

/-- What `MkdirAll` has made is there. -/
theorem stat_of_mkdirAll_ok {x : Location} {d' : Disk} (h : (mkdirAll x).run d = (.ok (), d')) :
    d'.stat x = some .dir := by
  rcases x with _ | ⟨c, dir⟩
  · rfl
  rcases hstat : d.stat (c :: dir) with _ | _ | ⟨m, content⟩
  · rw [run_mkdirAll_of_none hstat] at h
    obtain ⟨_, d₁, -, hcreate⟩ := Effect.exists_of_run_bind_ok h
    exact stat_of_create_ok hcreate
  · rw [run_mkdirAll_of_dir hstat] at h
    rw [← (Prod.mk.inj h).2, hstat]
  · rw [run_mkdirAll_of_file hstat] at h
    exact absurd (Prod.mk.inj h).1 (by simp)

/-- There is room for a file or a directory: its names are names of files, and no file is in the
way. -/
structure Room (d : Disk) (x : Location) : Prop where
  /-- The names on the way. -/
  isFileName : ∀ c ∈ x, IsFileName c
  /-- What is there on the way, if anything, is a directory. -/
  free : ∀ y, y <:+ x → d.stat y = none ∨ d.stat y = some .dir

theorem Room.tail {c : GoString} {dir : Location} (h : Room d (c :: dir)) : Room d dir where
  isFileName b hb := h.isFileName b (List.mem_cons_of_mem _ hb)
  free y hy := h.free y (hy.trans (List.suffix_cons _ _))

/-- There is room at a place exactly if there is room for its directory, its name can be a name, and
no file is at it. -/
theorem room_cons_iff {c : GoString} {dir : Location} :
    Room d (c :: dir) ↔ Room d dir ∧ IsFileName c ∧
      (d.stat (c :: dir) = none ∨ d.stat (c :: dir) = some .dir) := by
  refine ⟨fun h ↦ ⟨h.tail, h.isFileName c List.mem_cons_self, h.free _ (List.suffix_refl _)⟩, ?_⟩
  rintro ⟨hdir, hname, hfree⟩
  refine ⟨fun b hb ↦ ?_, fun y hy ↦ ?_⟩
  · rcases List.mem_cons.1 hb with rfl | hb
    · exact hname
    · exact hdir.isFileName b hb
  · rcases List.suffix_cons_iff.1 hy with rfl | hy
    · exact hfree
    · exact hdir.free y hy

/-- There is room where a directory is. -/
theorem room_of_dir {x : Location} (h : d.stat x = some .dir) : Room d x := by
  refine ⟨Disk.isFileName_of_stat h, fun y hy ↦ Or.inr ?_⟩
  by_cases hne : y = x
  · rw [hne, h]
  · exact Disk.stat_of_suffix h hy hne

/-- A directory that `MkdirAll` makes: one on the way that is missing and can be made. -/
def Makes (d : Disk) (x y : Location) : Prop :=
  y <:+ x ∧ d.stat y = none ∧ Room d y

/-- Nothing has to be made on the way to what is there. -/
theorem not_makes_of_stat {x : Location} {e : Entry} (h : d.stat x = some e) (y : Location) :
    ¬ Makes d x y := by
  rintro ⟨hy, hnone, -⟩
  rw [Disk.stat_eq_none_of_suffix hnone hy] at h
  exact absurd h (by simp)

/-- **What `MkdirAll` does**, whether it returns or not: it makes what it can, and returns if there
was room. -/
theorem mkdirAll_run (x : Location) (d : Disk) :
    ∃ r d', (mkdirAll x).run d = (r, d') ∧ (r = .ok () ↔ Room d x) ∧
      ∀ y, (Makes d x y → d'.stat y = some .dir) ∧ (¬ Makes d x y → d'.stat y = d.stat y) := by
  induction x with
  | nil =>
    refine ⟨_, d, rfl, iff_of_true rfl (room_of_dir d.stat_nil), fun y ↦ ⟨fun hy ↦ ?_, fun _ ↦ rfl⟩⟩
    exact absurd hy (not_makes_of_stat d.stat_nil y)
  | cons c dir ih =>
    rcases hstat : d.stat (c :: dir) with _ | _ | ⟨mode, content⟩
    · rw [run_mkdirAll_of_none hstat]
      obtain ⟨r, d₁, hrun, hok, hmade⟩ := ih
      have hmakes : ∀ {y}, y ≠ c :: dir → (Makes d (c :: dir) y ↔ Makes d dir y) := by
        intro y hy
        rw [Makes, Makes, List.suffix_cons_iff, or_iff_right hy]
      have hkeep : ∀ y, y ≠ c :: dir → (Makes d (c :: dir) y → d₁.stat y = some .dir) ∧
          (¬ Makes d (c :: dir) y → d₁.stat y = d.stat y) := by
        intro y hy
        rw [hmakes hy]
        exact hmade y
      have hlast : d₁.stat (c :: dir) = none :=
        ((hmade _).2 fun h ↦ not_cons_suffix c dir h.1).trans hstat
      -- without room for it, the last directory is not made
      have hnone : ¬ Room d (c :: dir) → ∀ y, (Makes d (c :: dir) y → d₁.stat y = some .dir) ∧
          (¬ Makes d (c :: dir) y → d₁.stat y = d.stat y) := by
        intro hroom y
        by_cases hy : y = c :: dir
        · subst hy
          exact ⟨fun h ↦ absurd h.2.2 hroom, fun _ ↦ hlast.trans hstat.symm⟩
        · exact hkeep y hy
      rcases r with err | ⟨⟩
      · -- A directory on the way cannot be made.
        have hroom : ¬ Room d (c :: dir) := fun h ↦ absurd (hok.2 h.tail) (by simp)
        exact ⟨_, d₁, Effect.run_bind_of_error hrun, iff_of_false (by simp) hroom, hnone hroom⟩
      · have hdir : d₁.stat dir = some .dir := stat_of_mkdirAll_ok hrun
        by_cases hname : IsFileName c
        · have hroom : Room d (c :: dir) := room_cons_iff.2 ⟨hok.1 rfl, hname, Or.inl hstat⟩
          obtain ⟨d₂, hcreate, hstat₂⟩ := create_spec .dir hname hdir hlast
          refine ⟨_, d₂, (Effect.run_bind_of_ok hrun).trans hcreate, iff_of_true rfl hroom,
            fun y ↦ ?_⟩
          rw [hstat₂]
          by_cases hy : y = c :: dir
          · subst hy
            exact ⟨fun _ ↦ if_pos rfl, fun h ↦ absurd ⟨List.suffix_refl _, hstat, hroom⟩ h⟩
          · rw [if_neg hy]
            exact hkeep y hy
        · have hroom : ¬ Room d (c :: dir) := fun h ↦ hname (h.isFileName c List.mem_cons_self)
          have hcreate : (create (c :: dir) .dir).run d₁ = (.error .EINVAL, d₁) := by
            show (if hname : IsFileName c then _ else _) = _
            rw [dif_neg hname]
          exact ⟨_, d₁, (Effect.run_bind_of_ok hrun).trans hcreate, iff_of_false (by simp) hroom,
            hnone hroom⟩
    · exact ⟨_, d, run_mkdirAll_of_dir hstat, iff_of_true rfl (room_of_dir hstat),
        fun y ↦ ⟨fun h ↦ absurd h (not_makes_of_stat hstat y), fun _ ↦ rfl⟩⟩
    · have hroom : ¬ Room d (c :: dir) := by
        intro h
        rcases h.free _ (List.suffix_refl _) with hfree | hfree <;> simp [hstat] at hfree
      exact ⟨_, d, run_mkdirAll_of_file hstat, iff_of_false (by simp) hroom,
        fun y ↦ ⟨fun h ↦ absurd h (not_makes_of_stat hstat y), fun _ ↦ rfl⟩⟩

/-- **What `MkdirAll` does where there is room**: everything the place is below is a directory
afterwards, and it is one itself. Nothing else changes. -/
theorem mkdirAll_spec {x : Location} (h : Room d x) :
    ∃ d', (mkdirAll x).run d = (.ok (), d') ∧
      ∀ y, d'.stat y = if y <:+ x then some .dir else d.stat y := by
  obtain ⟨r, d', hrun, hok, hmade⟩ := mkdirAll_run x d
  obtain rfl := hok.2 h
  refine ⟨d', hrun, fun y ↦ ?_⟩
  by_cases hmissing : Makes d x y
  · rw [if_pos hmissing.1, (hmade y).1 hmissing]
  · rw [(hmade y).2 hmissing]
    split
    case isTrue hy =>
      refine (h.free y hy).resolve_left fun hnone ↦ hmissing ⟨hy, hnone, ?_⟩
      exact ⟨fun c hc ↦ h.isFileName c (hy.subset hc), fun z hz ↦ h.free z (hz.trans hy)⟩
    case isFalse => rfl

/-- **What writing a new file does**: the file is there, everything it is below is a directory, and
nothing else changes. -/
theorem put_spec {p : Process} {perm : UInt32} {x : Location} {content : List UInt8}
    (h : Room d x) (hfresh : d.stat x = none) :
    ∃ d', (put p perm x content).run d = (.ok (), d') ∧
      ∀ y, d'.stat y = if y = x then some (.file (perm &&& ~~~p.umask) content)
        else if y <:+ x then some .dir else d.stat y := by
  rcases x with _ | ⟨c, dir⟩
  · exact absurd hfresh (by simp)
  obtain ⟨d₁, hrun, hstat⟩ := mkdirAll_spec h.tail
  have hdir₁ : d₁.stat dir = some .dir := by rw [hstat, if_pos (List.suffix_refl _)]
  have hfresh₁ : d₁.stat (c :: dir) = none := by
    rw [hstat, if_neg (not_cons_suffix c dir), hfresh]
  obtain ⟨d₂, hcreate, hstat₂⟩ := create_spec (.file (perm &&& ~~~p.umask) content)
    (h.isFileName c List.mem_cons_self) hdir₁ hfresh₁
  refine ⟨d₂, ?_, fun y ↦ ?_⟩
  · rw [put, List.tail_cons, Effect.run_bind_of_ok hrun, run_writeFile_of_none hfresh₁]
    exact hcreate
  · rw [hstat₂, hstat]
    simp only [List.suffix_cons_iff]
    by_cases hy : y = c :: dir
    · simp [hy]
    · simp [hy]

/-- The file at a place can be opened: it can be made, or is there and may be written. -/
def Opens (p : Process) (d : Disk) (x : Location) : Prop :=
  (d.stat x = none ∧ Room d x) ∨
    ∃ mode content, d.stat x = some (.file mode content) ∧ p.Permits 0o200 mode

/-- A file can only be opened in a directory that there is room for. -/
theorem Opens.room_tail {p : Process} {x : Location} (h : Opens p d x) : Room d x.tail := by
  rcases x with _ | ⟨c, dir⟩
  · exact room_of_dir d.stat_nil
  · rcases h with ⟨-, hroom⟩ | ⟨mode, content, hstat, -⟩
    · exact hroom.tail
    · exact room_of_dir (Disk.stat_tail hstat).2

/-- A place is not on the way to itself. -/
theorem not_makes_tail_self (d : Disk) (x : Location) : ¬ Makes d x.tail x := by
  rcases x with _ | ⟨c, dir⟩
  · exact not_makes_of_stat d.stat_nil []
  · exact fun h ↦ not_cons_suffix c dir h.1

theorem Disk.stat_rewrite_of_ne {x y : Location} (content : List UInt8) (h : y ≠ x) :
    (d.rewrite x content).stat y = d.stat y := by
  rw [stat_rewrite]
  rcases d.stat y with _ | _ | ⟨mode, old⟩
  · rfl
  · rfl
  · simp [rewriteAt, h]

/-- **What opening a file and writing it does**, whether it returns or not, in a directory that is
there: it returns if the file could be opened, and nothing changes but the file. -/
theorem writeFile_run (p : Process) (perm : UInt32) {x : Location} (content : List UInt8)
    (hdir : d.stat x.tail = some .dir) :
    ∃ r d', (writeFile p perm x content).run d = (r, d') ∧ (r = .ok () ↔ Opens p d x) ∧
      (Opens p d x → d'.stat x ≠ none) ∧ ∀ y, (y = x → ¬ Opens p d x) → d'.stat y = d.stat y := by
  have hfail : ∀ {err : Errno}, (writeFile p perm x content).run d = (.error err, d) →
      ¬ Opens p d x → ∃ r d', (writeFile p perm x content).run d = (r, d') ∧
        (r = .ok () ↔ Opens p d x) ∧ (Opens p d x → d'.stat x ≠ none) ∧
        ∀ y, (y = x → ¬ Opens p d x) → d'.stat y = d.stat y :=
    fun hrun hclosed ↦ ⟨_, d, hrun, iff_of_false (by simp) hclosed, fun h ↦ absurd h hclosed,
      fun _ _ ↦ rfl⟩
  rcases hstat : d.stat x with _ | _ | ⟨mode, old⟩
  · rcases x with _ | ⟨c, dir⟩
    · exact absurd hstat (by simp)
    have hwrite := @run_writeFile_of_none d p perm _ content hstat
    by_cases hname : IsFileName c
    · have hopens : Opens p d (c :: dir) :=
        Or.inl ⟨hstat, room_cons_iff.2 ⟨room_of_dir hdir, hname, Or.inl hstat⟩⟩
      obtain ⟨d', hcreate, hstat'⟩ :=
        create_spec (.file (perm &&& ~~~p.umask) content) hname hdir hstat
      refine ⟨_, d', hwrite.trans hcreate, iff_of_true rfl hopens, fun _ ↦ ?_, fun y hy ↦ ?_⟩
      · rw [hstat', List.tail_cons, if_pos rfl]
        exact Option.some_ne_none _
      · rw [hstat', List.tail_cons, if_neg fun h ↦ hy h hopens]
    · refine @hfail .EINVAL (hwrite.trans ?_) ?_
      · show (if hname : IsFileName c then _ else _) = _
        rw [dif_neg hname]
      · rintro (⟨-, hroom⟩ | ⟨mode, old, hfile, -⟩)
        · exact hname (hroom.isFileName c List.mem_cons_self)
        · rw [hstat] at hfile
          exact absurd hfile (by simp)
  · exact hfail (run_writeFile_of_dir hstat) (by simp [Opens, hstat])
  · have hwrite := @run_writeFile_of_file d p perm _ _ content _ hstat
    by_cases hpermits : p.Permits 0o200 mode
    · have hopens : Opens p d x := Or.inr ⟨mode, old, hstat, hpermits⟩
      rw [if_pos hpermits] at hwrite
      refine ⟨_, _, hwrite, iff_of_true rfl hopens, fun _ ↦ ?_, fun y hy ↦ ?_⟩
      · rw [Disk.stat_rewrite, hstat]
        exact Option.some_ne_none _
      · exact Disk.stat_rewrite_of_ne content fun h ↦ hy h hopens
    · rw [if_neg hpermits] at hwrite
      exact hfail hwrite (by simp [Opens, hstat, hpermits])

/-- **What writing a file with the directories it is in does**, whether it returns or not: it makes
what it can of the directories, and returns if the file could be opened. Nothing else changes but
the file. -/
theorem put_run (p : Process) (perm : UInt32) (x : Location) (content : List UInt8) (d : Disk) :
    ∃ r d', (put p perm x content).run d = (r, d') ∧ (r = .ok () ↔ Opens p d x) ∧
      (Opens p d x → d'.stat x ≠ none) ∧
      ∀ y, (Makes d x.tail y → d'.stat y = some .dir) ∧
        (¬ Makes d x.tail y → (y = x → ¬ Opens p d x) → d'.stat y = d.stat y) := by
  obtain ⟨r, d₁, hrun, hok, hmade⟩ := mkdirAll_run x.tail d
  rcases r with err | ⟨⟩
  · have hclosed : ¬ Opens p d x := fun h ↦ absurd (hok.2 h.room_tail) (by simp)
    exact ⟨_, d₁, Effect.run_bind_of_error hrun, iff_of_false (by simp) hclosed,
      fun h ↦ absurd h hclosed, fun y ↦ ⟨(hmade y).1, fun hy _ ↦ (hmade y).2 hy⟩⟩
  · have hdir : d₁.stat x.tail = some .dir := stat_of_mkdirAll_ok hrun
    have hkeep : d₁.stat x = d.stat x := (hmade x).2 (not_makes_tail_self d x)
    -- The directories that were made do not matter for the file.
    have hopens : Opens p d₁ x ↔ Opens p d x := by
      rw [Opens, Opens, hkeep]
      refine or_congr (and_congr_right fun hnone ↦ ?_) Iff.rfl
      rcases x with _ | ⟨c, dir⟩
      · exact absurd hnone (by simp)
      · rw [room_cons_iff, room_cons_iff, hkeep]
        exact and_congr_left fun _ ↦ iff_of_true (room_of_dir hdir) (hok.1 rfl)
    obtain ⟨r₂, d₂, hwrite, hok₂, hthere, hrest⟩ := writeFile_run p perm content hdir
    rw [hopens] at hok₂ hthere
    refine ⟨r₂, d₂, (Effect.run_bind_of_ok hrun).trans hwrite, hok₂, hthere,
      fun y ↦ ⟨fun hy ↦ ?_, fun hy hne ↦ ?_⟩⟩
    · rw [hrest y, (hmade y).1 hy]
      rintro rfl
      exact absurd hy (not_makes_tail_self d y)
    · rw [hrest y fun h ↦ hopens.not.2 (hne h), (hmade y).2 hy]

/-! ### Making many files -/

/-- What is to be made: a directory, or a file with its content. -/
abbrev Making := Location × Option (List UInt8)

/-- Make a directory, or a file with the directories it is in. -/
def make (p : Process) (perm : UInt32) : Making → Effect Errno Disk Unit
  | (x, none) => mkdirAll x
  | (x, some content) => put p perm x content

/-- Make one after the other. -/
def makeAll (p : Process) (perm : UInt32) : List Making → Effect Errno Disk Unit
  | [] => pure ()
  | x :: xs => make p perm x >>= fun _ ↦ makeAll p perm xs

/-- Two things that can be made side by side: a file is not where the other one is, nor where
the other one has a directory. -/
structure Apart (x y : Making) : Prop where
  /-- The first, if it is a file, is not in the way of the second. -/
  left : x.2 ≠ none → ¬ x.1 <:+ y.1
  /-- Nor the second in the way of the first. -/
  right : y.2 ≠ none → ¬ y.1 <:+ x.1

/-- There is room for what is to be made: a file is not there yet. -/
structure Ready (d : Disk) (x : Making) : Prop where
  /-- Nothing is in the way. -/
  room : Room d x.1
  /-- A file is new. -/
  fresh : x.2 ≠ none → d.stat x.1 = none

/-- **What making one thing does**: the files are those from before and the new one, and there is
still room for what is apart from it. -/
theorem make_spec {p : Process} {perm : UInt32} {x : Making} (h : Ready d x) :
    ∃ d', (make p perm x).run d = (.ok (), d') ∧
      (∀ y m content, d'.stat y = some (.file m content) ↔
        d.stat y = some (.file m content) ∨ m = perm &&& ~~~p.umask ∧ x = (y, some content)) ∧
      ∀ z, Ready d z → Apart x z → Ready d' z := by
  obtain ⟨x, _ | content⟩ := x
  · obtain ⟨d', hrun, hstat⟩ := mkdirAll_spec h.room
    refine ⟨d', hrun, fun y m new ↦ ?_, fun z hz hxz ↦ ?_⟩
    · rw [hstat]
      split
      case isTrue hy =>
        rcases h.room.free y hy with hnone | hdir
        · simp [hnone]
        · simp [hdir]
      case isFalse => simp
    · refine ⟨⟨hz.room.isFileName, fun y hy ↦ ?_⟩, fun hfile ↦ ?_⟩
      · rw [hstat]
        split
        case isTrue => exact Or.inr rfl
        case isFalse => exact hz.room.free y hy
      · rw [hstat, if_neg (hxz.right hfile), hz.fresh hfile]
  · obtain ⟨d', hrun, hstat⟩ := @put_spec d p perm x content h.room
      (h.fresh (by simp))
    refine ⟨d', hrun, fun y m new ↦ ?_, fun z hz hxz ↦ ?_⟩
    · rw [hstat]
      split
      case isTrue hy =>
        subst hy
        rw [h.fresh (by simp)]
        simp [eq_comm]
      case isFalse hy =>
        have hne : (x, some content) ≠ (y, some new) := fun heq ↦ hy (Prod.mk.inj heq).1.symm
        split
        case isTrue hsuf =>
          rcases h.room.free y hsuf with hnone | hdir
          · simp [hnone, hne]
          · simp [hdir, hne]
        case isFalse => simp [hne]
    · refine ⟨⟨hz.room.isFileName, fun y hy ↦ ?_⟩, fun hfile ↦ ?_⟩
      · rw [hstat, if_neg fun heq : y = x ↦ hxz.left (by simp) (heq ▸ hy)]
        split
        case isTrue => exact Or.inr rfl
        case isFalse => exact hz.room.free y hy
      · rw [hstat, if_neg fun heq : z.1 = x ↦ hxz.left (by simp) (heq ▸ List.suffix_refl _),
          if_neg (hxz.right hfile), hz.fresh hfile]

/-- **What a run makes**: it returns, and the files are those from before and those of the run. -/
theorem makeAll_spec {p : Process} {perm : UInt32} {xs : List Making} (h : ∀ x ∈ xs, Ready d x)
    (hapart : xs.Pairwise Apart) :
    ∃ d', (makeAll p perm xs).run d = (.ok (), d') ∧
      ∀ y m content, d'.stat y = some (.file m content) ↔
        d.stat y = some (.file m content) ∨
          m = perm &&& ~~~p.umask ∧ (y, some content) ∈ xs := by
  induction xs generalizing d with
  | nil => exact ⟨d, rfl, by simp⟩
  | cons x xs ih =>
    obtain ⟨hx, hxs⟩ := List.pairwise_cons.1 hapart
    obtain ⟨d₁, hrun, hfiles, hready⟩ :=
      @make_spec d p perm x (h x List.mem_cons_self)
    obtain ⟨d₂, hrun₂, hfiles₂⟩ :=
      ih (fun z hz ↦ hready z (h z (List.mem_cons_of_mem _ hz)) (hx z hz)) hxs
    refine ⟨d₂, (Effect.run_bind_of_ok hrun).trans hrun₂, fun y m content ↦ ?_⟩
    rw [hfiles₂, hfiles, List.mem_cons, or_assoc, ← and_or_left, eq_comm (a := x)]

/-! ### Growth -/

/-- How a disk grows: directories stay, and the mode of a file is the one that it had or the one
that new files get. -/
structure Grows (mode : UInt32) (d d' : Disk) : Prop where
  /-- Directories stay. -/
  dir : ∀ y, d.stat y = some .dir → d'.stat y = some .dir
  /-- A file has its mode from before, or is new. -/
  file : ∀ y m content, d'.stat y = some (.file m content) →
    m = mode ∨ ∃ old, d.stat y = some (.file m old)

theorem Grows.refl (mode : UInt32) (d : Disk) : Grows mode d d where
  dir _ h := h
  file _ _ content h := Or.inr ⟨content, h⟩

theorem Grows.trans {mode : UInt32} {d d₁ d₂ : Disk} (h : Grows mode d d₁)
    (h₁ : Grows mode d₁ d₂) : Grows mode d d₂ where
  dir y hy := h₁.dir y (h.dir y hy)
  file y m content hy := by
    rcases h₁.file y m content hy with rfl | ⟨old, hold⟩
    · exact Or.inl rfl
    · exact h.file y m old hold

/-- A new entry makes the disk grow, if it is not a file of another mode. -/
theorem grows_create {mode : UInt32} (x : Location) {e : Entry}
    (he : ∀ m content, e = .file m content → m = mode) :
    Effect.Steps (Grows mode) (create x e) := by
  intro d
  rcases x with _ | ⟨c, dir⟩
  · exact Grows.refl mode d
  show Grows mode d (if hname : IsFileName c then _ else _ : Except Errno Unit × Disk).2
  split
  case isTrue hname =>
    split
    case isTrue hdir =>
      split
      case isTrue hfresh =>
        refine ⟨fun y hy ↦ ?_, fun y m content hy ↦ ?_⟩
        · rw [Disk.stat_add, if_neg, hy]
          rintro rfl
          rw [hfresh] at hy
          exact absurd hy (by simp)
        · rw [Disk.stat_add] at hy
          split at hy
          case isTrue => exact Or.inl (he m content (Option.some.inj hy))
          case isFalse => exact Or.inr ⟨content, hy⟩
      case isFalse => exact Grows.refl mode d
    case isFalse => exact Grows.refl mode d
  case isFalse => exact Grows.refl mode d

theorem grows_mkdirAll (mode : UInt32) (x : Location) :
    Effect.Steps (Grows mode) (mkdirAll x) := by
  induction x with
  | nil => exact Grows.refl mode
  | cons c dir ih =>
    intro d
    show Grows mode d (match d.stat (c :: dir) with
      | some .dir => ((.ok (), d) : Except Errno Unit × Disk)
      | some (.file _ _) => (.error .ENOTDIR, d)
      | none => (mkdirAll dir >>= fun _ ↦ create (c :: dir) .dir).run d).2
    split
    · exact Grows.refl mode d
    · exact Grows.refl mode d
    · have hdir : ∀ m content, Entry.dir = .file m content → m = mode := fun _ _ h ↦ by cases h
      exact Effect.Steps.bind (R := Grows mode) Grows.trans ih (fun _ ↦ grows_create _ hdir) d

theorem grows_writeFile (p : Process) (perm : UInt32) (x : Location) (content : List UInt8) :
    Effect.Steps (Grows (perm &&& ~~~p.umask)) (writeFile p perm x content) := by
  intro d
  show Grows _ d (match d.stat x with
    | some .dir => ((.error .EISDIR, d) : Except Errno Unit × Disk)
    | some (.file mode _) =>
      if p.Permits 0o200 mode then (.ok (), d.rewrite x content) else (.error .EACCES, d)
    | none => (create x (.file (perm &&& ~~~p.umask) content)).run d).2
  split
  · exact Grows.refl _ d
  · split
    case isTrue =>
      refine ⟨fun y hy ↦ ?_, fun y m new hy ↦ Or.inr ?_⟩
      · rw [Disk.stat_rewrite, hy]
        rfl
      · rw [Disk.stat_rewrite] at hy
        obtain ⟨e, he, hnew⟩ := Option.map_eq_some_iff.1 hy
        rcases e with _ | ⟨m', old⟩
        · cases hnew
        · obtain ⟨rfl, -⟩ := Entry.file.inj hnew
          exact ⟨old, he⟩
    case isFalse => exact Grows.refl _ d
  · exact grows_create _ (fun _ _ h ↦ (Entry.file.inj h).1.symm) d

/-- **A file that is put somewhere makes the disk grow.** -/
theorem grows_put (p : Process) (perm : UInt32) (x : Location) (content : List UInt8) :
    Effect.Steps (Grows (perm &&& ~~~p.umask)) (put p perm x content) :=
  Effect.Steps.bind (R := Grows _) Grows.trans (grows_mkdirAll _ _)
    fun _ ↦ grows_writeFile p perm x content

/-! ### Walking -/

/-- A place below another, as seen from there. -/
def strip (x y : Location) : Location :=
  y.take (y.length - x.length)

@[simp] theorem strip_append (r x : Location) : strip x (r ++ x) = r := by
  simp [strip]

/-- The order of a walk: by the names from the first one on. -/
def WalkLE (e f : Location × Entry) : Prop :=
  e.1.reverse ≤ f.1.reverse

instance : DecidableRel WalkLE := fun e f ↦ inferInstanceAs (Decidable (e.1.reverse ≤ f.1.reverse))

/-- What `filepath.Walk` comes past, as seen from where it starts. The names in a directory come in
their order, each with what is below it. -/
def Disk.walk (d : Disk) (x : Location) : List (Location × Entry) :=
  (((([], .dir) :: d.entries).filter fun e ↦ x <:+ e.1).map
    fun e ↦ (strip x e.1, e.2)).insertionSort WalkLE

/-- The entries, the root among them, are what there is. -/
theorem Disk.mem_entries {y : Location} {e : Entry} :
    (y, e) ∈ (([], .dir) :: d.entries) ↔ d.stat y = some e := by
  rw [List.mem_cons]
  rcases y with _ | ⟨c, dir⟩
  · constructor
    · rintro (h | h)
      · rw [(Prod.mk.inj h).2]
        rfl
      · obtain ⟨c, dir, hnil, -⟩ := d.rooted _ h
        exact absurd hnil (by simp)
    · intro h
      rw [← Option.some.inj (d.stat_nil.symm.trans h)]
      exact Or.inl rfl
  · rw [stat_cons_eq_some_iff]
    simp

/-- **A walk comes past what is there.** -/
theorem Disk.mem_walk {x r : Location} {e : Entry} :
    (r, e) ∈ d.walk x ↔ d.stat (r ++ x) = some e := by
  rw [walk, (List.perm_insertionSort WalkLE _).mem_iff, List.mem_map]
  constructor
  · rintro ⟨⟨y, e'⟩, hmem, heq⟩
    obtain ⟨hy, hsuf⟩ := List.mem_filter.1 hmem
    obtain ⟨r', rfl⟩ := of_decide_eq_true hsuf
    rw [strip_append] at heq
    obtain ⟨rfl, rfl⟩ := Prod.mk.inj heq
    exact mem_entries.1 hy
  · intro h
    refine ⟨(r ++ x, e), List.mem_filter.2 ⟨mem_entries.2 h, ?_⟩, ?_⟩
    · exact decide_eq_true (List.suffix_append r x)
    · rw [strip_append]

/-- A walk comes past a place once. -/
theorem Disk.nodup_walk (d : Disk) (x : Location) : ((d.walk x).map Prod.fst).Nodup := by
  have hplaces : ((([], Entry.dir) :: d.entries).map Prod.fst).Nodup := by
    refine List.nodup_cons.2 ⟨fun hmem ↦ ?_, d.nodup⟩
    obtain ⟨e, he, hnil⟩ := List.mem_map.1 hmem
    obtain ⟨c, dir, hcons, -⟩ := d.rooted e he
    rw [hcons] at hnil
    exact absurd hnil (by simp)
  have hbelow := hplaces.sublist
    ((List.filter_sublist (p := fun e ↦ decide (x <:+ e.1))).map Prod.fst)
  rw [walk, ((List.perm_insertionSort WalkLE _).map _).nodup_iff, List.map_map,
    show Prod.fst ∘ (fun e : Location × Entry ↦ (strip x e.1, e.2)) = strip x ∘ Prod.fst from rfl,
    ← List.map_map]
  refine hbelow.map_on fun y hy z hz h ↦ ?_
  -- Places below one place differ in what stands before it.
  have hsuf : ∀ {y}, y ∈ ((([], Entry.dir) :: d.entries).filter fun e ↦ decide (x <:+ e.1)).map
      Prod.fst → ∃ r, r ++ x = y := by
    intro y hy
    obtain ⟨e, he, rfl⟩ := List.mem_map.1 hy
    have hbelow : x <:+ e.1 := of_decide_eq_true (List.mem_filter.1 he).2
    exact hbelow
  obtain ⟨r, rfl⟩ := hsuf hy
  obtain ⟨s, rfl⟩ := hsuf hz
  rw [strip_append, strip_append] at h
  rw [h]

end SourceOS.Os
