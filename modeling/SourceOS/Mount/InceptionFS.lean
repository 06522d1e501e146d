import SourceOS.Foundation.Effect
import SourceOS.Foundation.Run
import SourceOS.Mount.Governance

/-!
# The mounted file system

`InceptionFS` wraps a go-billy file system, so that accesses pass the membrane and leave a receipt.

The wrapped backend is third-party code and appears as its **interface**: `Billy` has one field for
each method of `billy.Filesystem`, on a tree that all file systems of one backend share. A method
either returns or raises, and what it did to the tree before raising stays done.

* Nine methods are overridden, and each is `gated`: the membrane is asked first, the decision is
  receipted, and only an allowed call reaches the backend. `gated_cases` says this once for all.
* The other six — `Join`, `TempFile`, `MkdirAll`, `Symlink`, `Readlink`, `Root` — are **promoted**
  from the embedded interface: they go to the backend as they are, past the membrane and the log.
  What has gone to the backend or to the snapshotter is kept in a history variable (`reached`).
* `Chroot` returns a new wrapper with the same space and lease, writing to the same log, so the
  state of the whole family is one tree, one log and the list of wrappers handed out so far
  (`World`). A run of `mount` is any sequence of calls, each on any of these wrappers.

Each call brings the two clock readings it makes, one in the membrane and one for the receipt; a
`Commit` also brings what the snapshotter answers.
-/

namespace SourceOS.Mount

open Go

/-! ### The backend's interface -/

/-- Go's `int` flags of `OpenFile`. -/
abbrev Flag := BitVec 64

/-- `os.O_WRONLY`. -/
def oWronly : Flag := 0x1

/-- `os.O_RDWR`. -/
def oRdwr : Flag := 0x2

/-- `os.O_CREATE`. -/
def oCreate : Flag := 0x40

/-- `os.O_TRUNC`. -/
def oTrunc : Flag := 0x200

/-- `os.O_APPEND`. -/
def oAppend : Flag := 0x400

/-- The test of `OpenFile` for a flag that asks for more than reading. -/
def asksToWrite (flag : Flag) : Bool :=
  flag &&& (oWronly ||| oRdwr ||| oCreate ||| oAppend ||| oTrunc) != 0

/-- `billy.Filesystem`, version 5. -/
structure Billy where
  /-- What the file systems of this backend have in common: directories, files and links. -/
  Tree : Type
  /-- A file system: the whole tree, or what `Chroot` made of a part of it. -/
  Fs : Type
  /-- `billy.File`. -/
  File : Type
  /-- `os.FileInfo`. -/
  FileInfo : Type
  /-- `Create(filename)`. -/
  create : Fs → GoString → Effect GoString Tree File
  /-- `Open(filename)`. -/
  open' : Fs → GoString → Effect GoString Tree File
  /-- `OpenFile(filename, flag, perm)`. -/
  openFile : Fs → GoString → Flag → UInt32 → Effect GoString Tree File
  /-- `Stat(filename)`. -/
  stat : Fs → GoString → Effect GoString Tree FileInfo
  /-- `Rename(oldpath, newpath)`. -/
  rename : Fs → GoString → GoString → Effect GoString Tree Unit
  /-- `Remove(filename)`. -/
  remove : Fs → GoString → Effect GoString Tree Unit
  /-- `Join(elem...)`. -/
  join : Fs → List GoString → GoString
  /-- `TempFile(dir, prefix)`. -/
  tempFile : Fs → GoString → GoString → Effect GoString Tree File
  /-- `ReadDir(path)`. -/
  readDir : Fs → GoString → Effect GoString Tree (List FileInfo)
  /-- `MkdirAll(filename, perm)`. -/
  mkdirAll : Fs → GoString → UInt32 → Effect GoString Tree Unit
  /-- `Lstat(filename)`. -/
  lstat : Fs → GoString → Effect GoString Tree FileInfo
  /-- `Symlink(target, link)`. -/
  symlink : Fs → GoString → GoString → Effect GoString Tree Unit
  /-- `Readlink(link)`. -/
  readlink : Fs → GoString → Effect GoString Tree GoString
  /-- `Chroot(path)`. -/
  chroot : Fs → GoString → Effect GoString Tree Fs
  /-- `Root()`. -/
  root : Fs → GoString

/-- What a backend promises about its reading methods: they leave the tree as it is. So does
`OpenFile` without a flag that asks to write, and `Chroot`, which only looks at a directory. -/
structure Billy.ReadsPurely (B : Billy) : Prop where
  /-- `Open`. -/
  open' : ∀ fs filename, Effect.Frames id (B.open' fs filename)
  /-- `OpenFile` for reading. -/
  openFile : ∀ fs filename flag perm, asksToWrite flag = false →
    Effect.Frames id (B.openFile fs filename flag perm)
  /-- `Stat`. -/
  stat : ∀ fs filename, Effect.Frames id (B.stat fs filename)
  /-- `Lstat`. -/
  lstat : ∀ fs filename, Effect.Frames id (B.lstat fs filename)
  /-- `ReadDir`. -/
  readDir : ∀ fs path, Effect.Frames id (B.readDir fs path)
  /-- `Readlink`. -/
  readlink : ∀ fs link, Effect.Frames id (B.readlink fs link)
  /-- `Chroot`. -/
  chroot : ∀ fs path, Effect.Frames id (B.chroot fs path)

/-- A call of a method of `billy.Filesystem`, with its arguments. -/
inductive Method where
  /-- `Create`. -/
  | create (filename : GoString)
  /-- `Open`. -/
  | open' (filename : GoString)
  /-- `OpenFile`. -/
  | openFile (filename : GoString) (flag : Flag) (perm : UInt32)
  /-- `Stat`. -/
  | stat (filename : GoString)
  /-- `Rename`. -/
  | rename (oldpath newpath : GoString)
  /-- `Remove`. -/
  | remove (filename : GoString)
  /-- `Join`. -/
  | join (elem : List GoString)
  /-- `TempFile`. -/
  | tempFile (dir pre : GoString)
  /-- `ReadDir`. -/
  | readDir (path : GoString)
  /-- `MkdirAll`. -/
  | mkdirAll (filename : GoString) (perm : UInt32)
  /-- `Lstat`. -/
  | lstat (filename : GoString)
  /-- `Symlink`. -/
  | symlink (target link : GoString)
  /-- `Readlink`. -/
  | readlink (link : GoString)
  /-- `Chroot`. -/
  | chroot (path : GoString)
  /-- `Root`. -/
  | root
deriving DecidableEq

/-! ### The wrapper -/

/-- `backend.Version`. -/
structure Version where
  /-- Its identity, which a receipt pins. -/
  id : GoString
  /-- Where the frozen tree is. -/
  ref : GoString
  /-- The kind of the snapshotter. -/
  kind : GoString
deriving DecidableEq

/-- `backend.Snapshotter`, known by its kind; what `Snapshot` answers comes with the call. -/
structure Snapshotter where
  /-- `Kind()`. -/
  kind : GoString
deriving DecidableEq

/-- `InceptionFS`. The membrane has no state, and the log is shared (`Seam`). -/
structure InceptionFS (B : Billy) where
  /-- The embedded file system. -/
  filesystem : B.Fs
  /-- `space`. -/
  space : GoString
  /-- `lease`; `none` is the nil pointer. -/
  lease : Option Lease
  /-- `snap`; `none` is the nil interface. -/
  snap : Option Snapshotter

/-- What lies behind the membrane and can be reached through a wrapper. -/
inductive Reached (B : Billy) where
  /-- A method of the backend, called on one of its file systems. -/
  | backend (fs : B.Fs) (m : Method)
  /-- `Snapshot`. -/
  | snapshot (purpose : GoString)

/-- What the wrappers of one family share: the backend's tree and the receipt log. `reached` is a
history variable, written whenever the code calls the backend or the snapshotter and read by no
code. -/
structure Seam (B : Billy) where
  /-- The backend's tree. -/
  tree : B.Tree
  /-- `receipts`. -/
  receipts : ReceiptLog
  /-- What has been reached behind the membrane, in order. -/
  reached : List (Reached B)

/-- The clock readings of one call. -/
structure Clock where
  /-- `time.Now()` in `Membrane.Check`. -/
  checked : Time
  /-- `time.Now()` in `ReceiptLog.append`. -/
  stamped : Time

namespace InceptionFS

variable {B : Billy} {α : Type}

/-- `New`. -/
def new (fs : B.Fs) (space : GoString) (lease : Option Lease) : InceptionFS B :=
  ⟨fs, space, lease, none⟩

/-- `WithSnapshotter`. -/
def withSnapshotter (f : InceptionFS B) (s : Snapshotter) : InceptionFS B :=
  { f with snap := some s }

/-- The subject a receipt names. -/
def subject (f : InceptionFS B) : GoString :=
  match f.lease with
  | none => ascii "<no-lease>".toList
  | some l => l.subject

/-- A method of the backend, called on the embedded file system. A promoted method is just this. -/
def backend (f : InceptionFS B) (m : Method) (x : Effect GoString B.Tree α) :
    Effect GoString (Seam B) α := fun s ↦
  ((x.run s.tree).1,
    { s with tree := (x.run s.tree).2, reached := s.reached ++ [.backend f.filesystem m] })

/-- A receipt of this file system. -/
def receipt (f : InceptionFS B) (now : Clock) (op : Op) (path verdict : GoString) (s : Seam B) :
    Seam B :=
  { s with receipts := (s.receipts.append now.stamped f.subject f.space op path verdict).2 }

section Methods

variable (isPrint : ℕ → Bool) (f : InceptionFS B) (now : Clock)

/-- `gate`: the membrane's decision, receipted either way. -/
def gate (op : Op) (path : GoString) : Effect GoString (Seam B) Unit := fun s ↦
  match check isPrint now.checked f.lease f.space op path with
  | .error err => (.error err, f.receipt now op path (ascii "deny: ".toList ++ err) s)
  | .ok () => (.ok (), f.receipt now op path (ascii "allow".toList) s)

/-- The shape of the overridden methods: the gate, then the backend. -/
def gated (op : Op) (path : GoString) (m : Method) (x : Effect GoString B.Tree α) :
    Effect GoString (Seam B) α := do
  f.gate isPrint now op path
  f.backend m x

/-- `Open`. -/
def open' (filename : GoString) : Effect GoString (Seam B) B.File :=
  f.gated isPrint now opRead filename (.open' filename) (B.open' f.filesystem filename)

/-- `OpenFile`. -/
def openFile (filename : GoString) (flag : Flag) (perm : UInt32) :
    Effect GoString (Seam B) B.File :=
  let op := if asksToWrite flag then opWrite else opRead
  f.gated isPrint now op filename (.openFile filename flag perm)
    (B.openFile f.filesystem filename flag perm)

/-- `Create`. -/
def create (filename : GoString) : Effect GoString (Seam B) B.File :=
  f.gated isPrint now opWrite filename (.create filename) (B.create f.filesystem filename)

/-- `ReadDir`. -/
def readDir (path : GoString) : Effect GoString (Seam B) (List B.FileInfo) :=
  f.gated isPrint now opList path (.readDir path) (B.readDir f.filesystem path)

/-- `Stat`. -/
def stat (filename : GoString) : Effect GoString (Seam B) B.FileInfo :=
  f.gated isPrint now opStat filename (.stat filename) (B.stat f.filesystem filename)

/-- `Lstat`. -/
def lstat (filename : GoString) : Effect GoString (Seam B) B.FileInfo :=
  f.gated isPrint now opStat filename (.lstat filename) (B.lstat f.filesystem filename)

/-- `Rename`, which asks about the old path only. -/
def rename (oldpath newpath : GoString) : Effect GoString (Seam B) Unit :=
  f.gated isPrint now opWrite oldpath (.rename oldpath newpath)
    (B.rename f.filesystem oldpath newpath)

/-- `Remove`. -/
def remove (filename : GoString) : Effect GoString (Seam B) Unit :=
  f.gated isPrint now opWrite filename (.remove filename) (B.remove f.filesystem filename)

/-- `Chroot`: the sub-tree under the same space and lease, with no snapshotter. -/
def chroot (path : GoString) : Effect GoString (Seam B) (InceptionFS B) := do
  let sub ← f.gated isPrint now opList path (.chroot path) (B.chroot f.filesystem path)
  return { filesystem := sub, space := f.space, lease := f.lease, snap := none }

/-- `Commit`; `answer` is what `Snapshot` returns, if it is called. It gates by itself, so that one
receipt is left and not two — and leaves none where there is no snapshotter. -/
def commit (purpose : GoString) (answer : Except GoString Version) :
    Effect GoString (Seam B) Version := fun s ↦
  match f.snap with
  | none =>
    (.error (ascii "no snapshotter configured for space ".toList ++ quote isPrint f.space), s)
  | some snap =>
    match check isPrint now.checked f.lease f.space opCommit (ascii "/".toList) with
    | .error err =>
      (.error err, f.receipt now opCommit (ascii "/".toList) (ascii "deny: ".toList ++ err) s)
    | .ok () =>
      let s := { s with reached := s.reached ++ [.snapshot purpose] }
      match answer with
      | .error err =>
        (.error err, f.receipt now opCommit (ascii "/".toList) (ascii "error: ".toList ++ err) s)
      | .ok v =>
        (.ok v, f.receipt now opCommit (snap.kind ++ ascii "://".toList ++ v.id)
          (ascii "allow: snapshot ".toList ++ purpose) s)

end Methods

end InceptionFS

/-! ### Calls -/

/-- What a call returns. -/
inductive Value (B : Billy) where
  /-- A file. -/
  | file (file : B.File)
  /-- What `Stat` and `Lstat` say. -/
  | info (info : B.FileInfo)
  /-- The entries of a directory. -/
  | infos (infos : List B.FileInfo)
  /-- A path. -/
  | path (path : GoString)
  /-- A file system. -/
  | fs (fs : InceptionFS B)
  /-- A version. -/
  | version (version : Version)
  /-- Nothing. -/
  | done

/-- What is asked of a wrapper: a method of the interface, or one of its own. -/
inductive Request where
  /-- A method of `billy.Filesystem`. -/
  | method (m : Method)
  /-- `Commit`, and what `Snapshot` answers if it is called. -/
  | commit (purpose : GoString) (answer : Except GoString Version)
  /-- `WithSnapshotter`. -/
  | withSnapshotter (s : Snapshotter)

/-- A call: the wrapper it is made on, by its place among those handed out, what is asked and the
clock readings. -/
structure Call where
  /-- The wrapper. -/
  on : ℕ
  /-- The request. -/
  request : Request
  /-- The clock readings. -/
  now : Clock

section Exec

variable {B : Billy} (isPrint : ℕ → Bool) (f : InceptionFS B) (now : Clock)

/-- A method of the interface, called on a wrapper: its own where it overrides it, the backend's
where it does not. -/
def InceptionFS.exec : Method → Effect GoString (Seam B) (Value B)
  | .create filename => do return .file (← f.create isPrint now filename)
  | .open' filename => do return .file (← f.open' isPrint now filename)
  | .openFile filename flag perm => do return .file (← f.openFile isPrint now filename flag perm)
  | .stat filename => do return .info (← f.stat isPrint now filename)
  | .rename oldpath newpath => do
    f.rename isPrint now oldpath newpath
    return .done
  | .remove filename => do
    f.remove isPrint now filename
    return .done
  | .join elem => do
    return .path (← f.backend (.join elem) (pure (B.join f.filesystem elem)))
  | .tempFile dir pre => do
    return .file (← f.backend (.tempFile dir pre) (B.tempFile f.filesystem dir pre))
  | .readDir path => do return .infos (← f.readDir isPrint now path)
  | .mkdirAll filename perm => do
    f.backend (.mkdirAll filename perm) (B.mkdirAll f.filesystem filename perm)
    return .done
  | .lstat filename => do return .info (← f.lstat isPrint now filename)
  | .symlink target link => do
    f.backend (.symlink target link) (B.symlink f.filesystem target link)
    return .done
  | .readlink link => do
    return .path (← f.backend (.readlink link) (B.readlink f.filesystem link))
  | .chroot path => do return .fs (← f.chroot isPrint now path)
  | .root => do return .path (← f.backend .root (pure (B.root f.filesystem)))

/-- A request, answered by a wrapper. -/
def InceptionFS.answer : Request → Effect GoString (Seam B) (Value B)
  | .method m => f.exec isPrint now m
  | .commit purpose answer => do return .version (← f.commit isPrint now purpose answer)
  | .withSnapshotter _ => return .done

end Exec

/-! ### The machine -/

/-- The tree and the log, and the wrappers handed out so far. -/
structure World (B : Billy) where
  /-- What the wrappers share. -/
  seam : Seam B
  /-- The wrappers. -/
  mounts : List (InceptionFS B)

namespace World

variable {B : Billy}

/-- A new wrapper around a file system, with an empty log. -/
def mounted (tree : B.Tree) (fs : B.Fs) (space : GoString) (lease : Option Lease) : World B :=
  ⟨⟨tree, .empty, []⟩, [.new fs space lease]⟩

/-- The wrappers after a call on the one at place `i`: `WithSnapshotter` changes that one, and a
file system that was returned can be called from then on. -/
def mountsAfter (ms : List (InceptionFS B)) (i : ℕ) (f : InceptionFS B) (request : Request)
    (result : Except GoString (Value B)) : List (InceptionFS B) :=
  match request, result with
  | .withSnapshotter s, _ => ms.set i (f.withSnapshotter s)
  | _, .ok (.fs g) => ms ++ [g]
  | _, _ => ms

end World

/-- The family of wrappers as a machine. A call on a place where there is no wrapper cannot be made
and has no answer. -/
def mount (isPrint : ℕ → Bool) (B : Billy) :
    Machine (World B) Call (Option (Except GoString (Value B))) where
  step w c :=
    match w.mounts[c.on]? with
    | none => (w, none)
    | some f =>
      let (result, seam) := (f.answer isPrint c.now c.request).run w.seam
      (⟨seam, World.mountsAfter w.mounts c.on f c.request result⟩, some result)

/-! ### What a call does -/

section Spec

variable {B : Billy} {α : Type} {isPrint : ℕ → Bool} {f : InceptionFS B} {now : Clock}

/-- **What an overridden method does.** Denied, it leaves a receipt and nothing else; allowed, it
leaves a receipt and does what the backend does. -/
theorem InceptionFS.gated_cases (op : Op) (path : GoString) (m : Method)
    (x : Effect GoString B.Tree α) (s : Seam B) :
    (∃ reason, check isPrint now.checked f.lease f.space op path = .error reason ∧
      (f.gated isPrint now op path m x).run s =
        (.error reason, f.receipt now op path (ascii "deny: ".toList ++ reason) s)) ∨
    check isPrint now.checked f.lease f.space op path = .ok () ∧
      (f.gated isPrint now op path m x).run s =
        (f.backend m x).run (f.receipt now op path (ascii "allow".toList) s) := by
  rcases h : check isPrint now.checked f.lease f.space op path with reason | _
  · refine Or.inl ⟨reason, rfl, Effect.run_bind_of_error ?_⟩
    show (match check isPrint now.checked f.lease f.space op path with
      | .error err => _ | .ok () => _) = _
    rw [h]
  · refine Or.inr ⟨rfl, ?_⟩
    have hgate : (f.gate isPrint now op path).run s =
        (.ok (), f.receipt now op path (ascii "allow".toList) s) := by
      show (match check isPrint now.checked f.lease f.space op path with
        | .error err => _ | .ok () => _) = _
      rw [h]
    exact Effect.run_bind_of_ok hgate

/-- **What a `Commit` does.** Without a snapshotter it does nothing at all; denied, it leaves a
receipt; allowed, it reaches the snapshotter and leaves a receipt that does not say `deny`. -/
theorem InceptionFS.commit_cases (purpose : GoString) (answer : Except GoString Version)
    (s : Seam B) :
    (f.snap = none ∧ (f.commit isPrint now purpose answer).run s =
      (.error (ascii "no snapshotter configured for space ".toList ++ quote isPrint f.space), s)) ∨
    (∃ snap, f.snap = some snap) ∧
      ((∃ reason, check isPrint now.checked f.lease f.space opCommit (ascii "/".toList) =
          .error reason ∧ (f.commit isPrint now purpose answer).run s =
          (.error reason,
            f.receipt now opCommit (ascii "/".toList) (ascii "deny: ".toList ++ reason) s)) ∨
      check isPrint now.checked f.lease f.space opCommit (ascii "/".toList) = .ok () ∧
        ∃ path verdict, ¬ ascii "deny".toList <+: verdict ∧
          (f.commit isPrint now purpose answer).run s = (answer, f.receipt now opCommit path verdict
            { s with reached := s.reached ++ [.snapshot purpose] })) := by
  rcases hsnap : f.snap with _ | snap
  · exact Or.inl ⟨rfl, by simp only [Effect.run, commit, hsnap]⟩
  · refine Or.inr ⟨⟨snap, rfl⟩, ?_⟩
    rcases hcheck : check isPrint now.checked f.lease f.space opCommit (ascii "/".toList) with
      reason | _
    · exact Or.inl ⟨reason, rfl, by simp only [Effect.run, commit, hsnap, hcheck]⟩
    · refine Or.inr ⟨rfl, ?_⟩
      rcases answer with err | v
      · refine ⟨ascii "/".toList, ascii "error: ".toList ++ err, fun h ↦ ?_,
          by simp only [Effect.run, commit, hsnap, hcheck]⟩
        exact absurd (List.cons_prefix_cons.1 h).1 (by decide)
      · refine ⟨snap.kind ++ ascii "://".toList ++ v.id, ascii "allow: snapshot ".toList ++ purpose,
          fun h ↦ ?_, by simp only [Effect.run, commit, hsnap, hcheck]⟩
        exact absurd (List.cons_prefix_cons.1 h).1 (by decide)

/-- **What a step of the machine does.** -/
theorem mount_step_cases (w : World B) (c : Call) :
    (w.mounts[c.on]? = none ∧ (mount isPrint B).step w c = (w, none)) ∨
    ∃ f, w.mounts[c.on]? = some f ∧ (mount isPrint B).step w c =
      (⟨((f.answer isPrint c.now c.request).run w.seam).2,
        World.mountsAfter w.mounts c.on f c.request
          ((f.answer isPrint c.now c.request).run w.seam).1⟩,
        some ((f.answer isPrint c.now c.request).run w.seam).1) := by
  rcases h : w.mounts[c.on]? with _ | f
  · refine Or.inl ⟨rfl, ?_⟩
    show (match w.mounts[c.on]? with | none => _ | some f => _) = _
    rw [h]
  · refine Or.inr ⟨f, rfl, ?_⟩
    show (match w.mounts[c.on]? with | none => _ | some f => _) = _
    rw [h]

end Spec

end SourceOS.Mount
