import SourceOS.Mount.Handles

/-!
# Runs with file handles

What a lease is worth once handles are taken into account.

* **A lease that cannot read** (`no_read_without_capability`). `OpenFile` turns its flag into one
  class of access, so a flag that asks to write is put to the membrane as writing only. That is
  harmless where the handle is for writing only, and where the file is new or emptied. With `O_RDWR`
  alone, what the file held can be read (`openFile_discloses`).
* **A lease that has run out** (`expired_lease_fences`). A `Session` is a family of wrappers with
  the handles its calls have returned. After the expiry no governed call changes the tree or reaches
  the snapshotter; what can still change the tree is a handle that was opened for writing before.
-/

namespace SourceOS.Mount

open Go

variable {B : Billy} {F : Files B} {isPrint : ℕ → Bool} {f : InceptionFS B} {now : Clock}

/-! ### Reading -/

/-- The answer tells what is on the backend: file information, a listing, or a handle that gives
something to read. What it gives when it has just been opened was there before, since opening writes
nothing. -/
def Discloses (F : Files B) (tree : B.Tree) : Value B → Prop
  | .file file => ∃ c, F.read file tree = some c ∧ c ≠ []
  | .info _ | .infos _ => True
  | _ => False

/-- A flag whose handle does not give what the file held: it is for writing only, or the file is new
or emptied. -/
def opensBlind (flag : Flag) : Bool :=
  flag &&& oAccmode == oWronly || opensEmpty flag

/-- A handle that was opened blindly, or on a file with nothing in it, gives nothing. -/
theorem not_discloses_file (hF : F.ByFlags) {fs : B.Fs} {m : Method} {filename : GoString}
    {flag : Flag} {x : Effect GoString B.Tree B.File} {t t' : B.Tree} {file : B.File}
    (hm : B.opens fs m = some (filename, flag, x)) (hx : x.run t = (.ok file, t'))
    (hblind : opensBlind flag = true ∨ ∀ c, F.content fs filename t = some c → c = []) :
    ¬ Discloses F t' (.file file) := by
  rintro ⟨c, hread, hc⟩
  rcases hblind with hflag | hnothing
  · rcases Bool.or_eq_true_iff.1 hflag with hwrite | hempty
    · rw [hF.writeOnly hm hx (by simpa using hwrite)] at hread
      exact absurd hread (by simp)
    · exact hc (hF.empty hm hx hempty c hread)
  · rcases hF.only hm hx hread with hempty | hheld
    · exact hc hempty
    · exact hc (hnothing c hheld)

/-- Where the lease cannot read, only writing is allowed. -/
theorem isWrite_of_check_ok {lease : Lease} (hlease : lease.canRead = false) {t : Time}
    {space : GoString} {op : Op} {path : GoString}
    (h : check isPrint t (some lease) space op path = .ok ()) : isWrite op = true := by
  obtain ⟨l, hl, -, -, hcap⟩ := (check_eq_ok_iff isPrint).1 h
  obtain rfl := Option.some.inj hl
  by_contra hop
  rw [if_neg hop, hlease] at hcap
  exact absurd hcap (by simp)

section NoRead

variable {lease : Lease} (hlease : lease.canRead = false) (hf : f.lease = some lease)

include hlease hf in
/-- **One call under a lease that cannot read.** A governed method discloses nothing, unless it is
an `OpenFile` that is allowed as writing and does not open blindly a file with something in it. -/
theorem exec_not_discloses (hF : F.ByFlags) {m : Method} (hasks : m.asks ≠ none) {s t : Seam B}
    {v : Value B} (h : (f.exec isPrint now m).run s = (.ok v, t))
    (hblind : ∀ filename flag perm, m = .openFile filename flag perm → asksToWrite flag = true →
      check isPrint now.checked (some lease) f.space opWrite filename = .ok () →
      opensBlind flag = true ∨ ∀ c, F.content f.filesystem filename s.tree = some c → c = []) :
    ¬ Discloses F t.tree v := by
  -- What was allowed is writing: this leaves four methods, two of which return nothing.
  have hwrite : ∀ {op path}, m.asks = some (op, path) → isWrite op = true := fun hm ↦
    isWrite_of_check_ok hlease (hf ▸ exec_ok_of_asks hm h)
  cases m with
  | create filename =>
    obtain ⟨-, file, rfl, hfile⟩ := exec_opens rfl h
    exact not_discloses_file (m := .create filename) hF rfl hfile (Or.inl (by decide))
  | openFile filename flag perm =>
    obtain ⟨hcheck, file, rfl, hfile⟩ := exec_opens rfl h
    have hasksWrite : asksToWrite flag = true := by
      by_contra hno
      have := hwrite rfl
      rw [if_neg hno] at this
      exact absurd this (by decide)
    rw [hf, show Method.mutates (.openFile filename flag perm) = true from hasksWrite] at hcheck
    exact not_discloses_file (m := .openFile filename flag perm) hF rfl hfile
      (hblind filename flag perm rfl hasksWrite hcheck)
  | rename oldpath newpath =>
    obtain ⟨a, -, rfl⟩ := ok_of_value h
    exact id
  | remove filename =>
    obtain ⟨a, -, rfl⟩ := ok_of_value h
    exact id
  | open' filename => exact absurd (hwrite rfl) (by decide)
  | readDir path => exact absurd (hwrite rfl) (by decide)
  | stat filename => exact absurd (hwrite rfl) (by decide)
  | lstat filename => exact absurd (hwrite rfl) (by decide)
  | chroot path => exact absurd (hwrite rfl) (by decide)
  | _ => exact absurd rfl hasks

end NoRead

/-- **A flag that does not open blindly discloses.** Where the membrane allows writing, an
`OpenFile` with a flag that asks to write and opens for reading too gives back what the file held,
whether the lease can read or not. -/
theorem openFile_discloses (hF : F.ByFlags) {filename : GoString} {flag : Flag} {perm : UInt32}
    {s t : Seam B} {v : Value B} {c : List UInt8} (hread : opensToRead flag = true)
    (hkept : opensEmpty flag = false) (hcontent : F.content f.filesystem filename s.tree = some c)
    (hc : c ≠ [])
    (h : (f.exec isPrint now (.openFile filename flag perm)).run s = (.ok v, t)) :
    Discloses F t.tree v := by
  obtain ⟨-, file, rfl, hfile⟩ := exec_opens rfl h
  exact ⟨c, hF.reads (m := .openFile filename flag perm) rfl hfile hread hkept hcontent, hc⟩

/-- **No read without the read capability, where files are opened blindly.** Take a lease that
cannot read, whether it can write or not, and a run in which each `OpenFile` that asks to write and
is allowed to has a flag for writing only, or one that empties the file or asks for a new one, or
names a file with nothing in it. Then no governed call of the run, on the mounted file system or on
any that `Chroot` made of it, returns a listing, file information or a handle with anything to read
in it. -/
theorem no_read_without_capability {isPrint : ℕ → Bool} {F : Files B} (hF : F.ByFlags)
    (tree : B.Tree) (fs : B.Fs) (space : GoString) {lease : Lease} (hlease : lease.canRead = false)
    {calls : List Call}
    (hblind : ∀ earlier c, earlier ++ [c] <+: calls → ∀ f filename flag perm,
      let w := (mount isPrint B).after (World.mounted tree fs space (some lease)) earlier
      w.mounts[c.on]? = some f → c.request = .method (.openFile filename flag perm) →
      asksToWrite flag = true →
      check isPrint c.now.checked (some lease) space opWrite filename = .ok () →
      opensBlind flag = true ∨
        ∀ held, F.content f.filesystem filename w.seam.tree = some held → held = []) :
    ∀ earlier c, earlier ++ [c] <+: calls → c.request.asks ≠ none →
      let step := (mount isPrint B).step
        ((mount isPrint B).after (World.mounted tree fs space (some lease)) earlier) c
      ∀ v, step.2 = some (.ok v) → ¬ Discloses F step.1.seam.tree v := by
  intro earlier c hrun hasks step v hv
  have hunder : World.Under space (some lease)
      ((mount isPrint B).after (World.mounted tree fs space (some lease)) earlier) :=
    under_after (World.under_mounted tree fs space (some lease)) earlier
  rcases @mount_step_cases B isPrint _ c with ⟨-, h⟩ | ⟨f, hf, h⟩
  · rw [show step = _ from h] at hv
    exact absurd hv (by simp)
  · rw [show step = _ from h] at hv ⊢
    obtain ⟨hspace, hl⟩ := hunder f (List.mem_of_getElem? hf)
    rcases hreq : c.request with m | ⟨purpose, answer⟩ | s
    · rw [hreq] at hv hasks
      refine exec_not_discloses hlease hl hF hasks
        (Prod.ext (Option.some.inj hv) rfl) fun filename flag perm hm hwrite hcheck ↦ ?_
      exact hblind earlier c hrun f filename flag perm hf (by rw [hreq, hm]) hwrite
        (hspace ▸ hcheck)
    · rw [hreq] at hv
      obtain ⟨version, -, rfl⟩ := Effect.exists_of_bind_pure_ok (Option.some.inj hv)
      exact id
    · rw [hreq] at hasks
      exact absurd rfl hasks

/-- A lease to write into the space `drop`, and not to read it. -/
def dropbox : Lease :=
  ⟨ascii "courier".toList, ascii "drop".toList, ascii "deliver".toList, false, true, Time.zero⟩

/-- A space with one file in it. -/
def letterbox : World Memory.handled :=
  World.mounted [([ascii "letter".toList], .file [0x73, 0x65, 0x63])] [] (ascii "drop".toList)
    (some dropbox)

/-- A run under a lease that cannot read: the file is opened for appending and for writing anew, and
reading it, its size and the directory is refused. -/
theorem no_read_without_capability_dropbox :
    let calls := [Call.at 0 (.openFile (ascii "letter".toList) (oWronly ||| oAppend) 0),
      .at 0 (.open' (ascii "letter".toList)), .at 0 (.readDir (ascii "/".toList)),
      .at 0 (.stat (ascii "letter".toList)),
      .at 0 (.openFile (ascii "letter".toList) (oRdwr ||| oTrunc) 0)]
    dropbox.canRead = false ∧
    ∀ earlier c, earlier ++ [c] <+: calls → c.request.asks ≠ none →
      let step := (mount (fun _ ↦ false) Memory.handled).step
        ((mount (fun _ ↦ false) Memory.handled).after letterbox earlier) c
      ∀ v, step.2 = some (.ok v) → ¬ Discloses Memory.files step.1.seam.tree v := by
  intro calls
  refine ⟨rfl, no_read_without_capability Memory.byFlags _ _ _ rfl ?_⟩
  intro earlier c hrun f filename flag perm w _ hreq _ _
  have hc : c ∈ calls := hrun.subset (by simp)
  refine Or.inl ?_
  simp only [calls, List.mem_cons, List.not_mem_nil, or_false] at hc
  rcases hc with rfl | rfl | rfl | rfl | rfl
  · obtain ⟨-, rfl, -⟩ := by simpa [Call.at] using hreq
    decide
  · exact absurd hreq (by simp [Call.at])
  · exact absurd hreq (by simp [Call.at])
  · exact absurd hreq (by simp [Call.at])
  · obtain ⟨-, rfl, -⟩ := by simpa [Call.at] using hreq
    decide

/-- **Reading under a lease that cannot read.** `OpenFile` with `O_RDWR` is allowed, as writing, and
the handle gives what the file held. -/
theorem openFile_reads_without_capability :
    let step := (mount (fun _ ↦ false) Memory.handled).step letterbox
      (.at 0 (.openFile (ascii "letter".toList) oRdwr 0))
    ∃ file, dropbox.canRead = false ∧ step.2 = some (.ok (.file file)) ∧
      Memory.files.content [] (ascii "letter".toList) letterbox.seam.tree =
        some [0x73, 0x65, 0x63] ∧
      Memory.files.read file step.1.seam.tree = some [0x73, 0x65, 0x63] ∧
      Discloses Memory.files step.1.seam.tree (.file file) :=
  ⟨([ascii "letter".toList], oRdwr), rfl, rfl, rfl, rfl, [0x73, 0x65, 0x63], rfl, by simp⟩

/-! ### Writing after the expiry -/

/-- What has been asked of the snapshotter: every version of the space comes of one of these. -/
def Seam.snapshots (s : Seam B) : List GoString :=
  s.reached.filterMap fun
    | .snapshot purpose => some purpose
    | .backend _ _ => none

/-- A handle, and the method that returned it. -/
structure Opened (B : Billy) where
  /-- The handle. -/
  file : B.File
  /-- A history variable, read by no code. -/
  method : Method

/-- The methods whose handle can be written. -/
def Method.opensToWrite : Method → Bool
  | .create _ | .tempFile _ _ => true
  | .openFile _ flag _ => flag &&& oAccmode != oRdonly
  | _ => false

/-- A family of wrappers, and the handles that its calls have returned. -/
structure Session (B : Billy) where
  /-- The family. -/
  world : World B
  /-- The handles. -/
  opened : List (Opened B)

/-- A step of a session. -/
inductive Use where
  /-- A call on a wrapper. -/
  | call (c : Call)
  /-- Data written to a handle, known by its place, and when. -/
  | write (on : ℕ) (data : List UInt8) (now : Time)

/-- The instant of a step; that of a call is when the membrane looks at the clock. -/
def Use.time : Use → Time
  | .call c => c.now.checked
  | .write _ _ now => now

namespace Session

/-- A family that has just been mounted. -/
def mounted (tree : B.Tree) (fs : B.Fs) (space : GoString) (lease : Option Lease) : Session B :=
  ⟨.mounted tree fs space lease, []⟩

/-- The tree of a session. -/
def tree (s : Session B) : B.Tree := s.world.seam.tree

/-- The handles after a call. -/
def openedAfter (opened : List (Opened B)) (r : Request)
    (result : Option (Except GoString (Value B))) : List (Opened B) :=
  match r, result with
  | .method m, some (.ok (.file file)) => opened ++ [⟨file, m⟩]
  | _, _ => opened

/-- The handle of a place is written; the membrane is not asked. -/
def write (F : Files B) (s : Session B) (on : ℕ) (data : List UInt8) : Session B :=
  match s.opened[on]? with
  | none => s
  | some o =>
    { s with world.seam.tree := ((F.write o.file data).run s.world.seam.tree).2 }

end Session

/-- A session as a machine. -/
def session (isPrint : ℕ → Bool) (F : Files B) :
    Machine (Session B) Use (Option (Except GoString (Value B))) where
  step s
    | .call c =>
      let (world, result) := (mount isPrint B).step s.world c
      (⟨world, Session.openedAfter s.opened c.request result⟩, result)
    | .write on data _ => (s.write F on data, none)

/-- The invariant of a session under a lease: the family keeps the lease, and a handle that was not
opened for writing cannot be written. -/
structure Session.Held (F : Files B) (space : GoString) (lease : Option Lease) (s : Session B) :
    Prop where
  /-- The family. -/
  under : s.world.Under space lease
  /-- The handles. -/
  readOnly : ∀ o ∈ s.opened, o.method.opensToWrite = false →
    ∀ data, Effect.Frames id (F.write o.file data)

/-- A handle that a call returns and that was not opened for writing cannot be written. -/
theorem frames_write_of_exec (hF : F.ByFlags) {m : Method} {s t : Seam B} {file : B.File}
    (h : (f.exec isPrint now m).run s = (.ok (.file file), t)) (hm : m.opensToWrite = false) :
    ∀ data, Effect.Frames id (F.write file data) := by
  -- Only the opening methods return a file.
  have hvalue : ∀ {α : Type} {x : Effect GoString (Seam B) α} {k : α → Value B},
      (x >>= fun a ↦ pure (k a)).run s = (.ok (.file file), t) → (∀ a, k a ≠ .file file) →
      False := by
    intro α x k hx hk
    obtain ⟨a, -, ha⟩ := ok_of_value hx
    exact hk a ha.symm
  cases m with
  | open' filename =>
    obtain ⟨-, file', hfile', hx⟩ := exec_opens (m := .open' filename) rfl h
    obtain rfl := Value.file.inj hfile'
    exact hF.readOnly (m := .open' filename) rfl hx (by decide)
  | openFile filename flag perm =>
    obtain ⟨-, file', hfile', hx⟩ := exec_opens (m := .openFile filename flag perm) rfl h
    obtain rfl := Value.file.inj hfile'
    exact hF.readOnly (m := .openFile filename flag perm) rfl hx
      (by simpa [Method.opensToWrite] using hm)
  | create filename => exact absurd hm (by simp [Method.opensToWrite])
  | tempFile dir pre => exact absurd hm (by simp [Method.opensToWrite])
  | _ => exact (hvalue h fun _ ↦ by simp).elim

/-- **A step keeps the invariant.** -/
theorem Session.Held.step (hF : F.ByFlags) {space : GoString} {lease : Option Lease}
    {s : Session B} (hs : s.Held F space lease) (u : Use) :
    ((session isPrint F).step s u).1.Held F space lease := by
  cases u with
  | write on data now =>
    show (s.write F on data).Held F space lease
    rw [Session.write]
    split
    · exact hs
    · exact ⟨hs.under, hs.readOnly⟩
  | call c =>
    refine ⟨under_step hs.under c, fun o ho ↦ ?_⟩
    have ho' : o ∈ Session.openedAfter s.opened c.request ((mount isPrint B).step s.world c).2 := ho
    rcases @mount_step_cases _ isPrint s.world c with ⟨-, h⟩ | ⟨f, hf, h⟩
    · rw [h] at ho'
      rcases hreq : c.request with m | _ | _ <;> rw [hreq] at ho' <;> exact hs.readOnly o ho'
    · rw [h] at ho'
      unfold Session.openedAfter at ho'
      split at ho'
      · rename_i m file hreq hres
        rcases List.mem_append.1 ho' with ho' | ho'
        · exact hs.readOnly o ho'
        · rw [List.mem_singleton.1 ho']
          rw [hreq] at hres
          exact frames_write_of_exec hF (Prod.ext (Option.some.inj hres) rfl)
      · exact hs.readOnly o ho'

/-- A governed method that is not allowed changes neither the tree nor what has been reached. -/
theorem exec_of_denied {m : Method} {op : Op} {path : GoString} (hm : m.asks = some (op, path))
    (hdeny : check isPrint now.checked f.lease f.space op path ≠ .ok ()) (s : Seam B) :
    ((f.exec isPrint now m).run s).2.tree = s.tree ∧
      ((f.exec isPrint now m).run s).2.reached = s.reached := by
  refine ⟨?_, (accounted_exec hm s).2.2 hdeny⟩
  have hgated : ∀ {α : Type} (m : Method) (x : Effect GoString B.Tree α),
      ((f.gated isPrint now op path m x).run s).2.tree = s.tree := by
    intro α m x
    rcases f.gated_cases op path m x s with ⟨reason, -, h⟩ | ⟨hcheck, -⟩
    · rw [h]
      rfl
    · exact absurd hcheck hdeny
  cases m with
  | chroot path =>
    obtain ⟨rfl, rfl⟩ := Prod.mk.inj (Option.some.inj hm)
    rw [InceptionFS.exec, Effect.run_bind_pure_snd, InceptionFS.chroot, Effect.run_bind_pure_snd]
    exact hgated _ _
  | join elem => exact absurd hm (by simp [Method.asks])
  | root => exact absurd hm (by simp [Method.asks])
  | tempFile dir pre => exact absurd hm (by simp [Method.asks])
  | mkdirAll filename perm => exact absurd hm (by simp [Method.asks])
  | symlink target link => exact absurd hm (by simp [Method.asks])
  | readlink link => exact absurd hm (by simp [Method.asks])
  | _ =>
    obtain ⟨rfl, rfl⟩ := Prod.mk.inj (Option.some.inj hm)
    rw [InceptionFS.exec, Effect.run_bind_pure_snd]
    exact hgated _ _

/-- An expired lease allows nothing. -/
theorem check_of_expired {lease : Lease} {t : Time} (h : lease.expired t = true) (space : GoString)
    (op : Op) (path : GoString) : check isPrint t (some lease) space op path ≠ .ok () := by
  rw [Ne, check_eq_ok_iff]
  rintro ⟨l, hl, -, hexp, -⟩
  rw [← Option.some.inj hl, h] at hexp
  exact absurd hexp (by simp)

/-- **One call after the expiry.** -/
theorem answer_of_expired {lease : Lease} (hl : f.lease = some lease)
    (hexp : lease.expired now.checked = true) {r : Request}
    (hr : r.asks ≠ none ∨ ∃ snap, r = .withSnapshotter snap) (s : Seam B) :
    ((f.answer isPrint now r).run s).2.tree = s.tree ∧
      ((f.answer isPrint now r).run s).2.snapshots = s.snapshots := by
  have hdeny : ∀ op path, check isPrint now.checked f.lease f.space op path ≠ .ok () :=
    fun op path ↦ hl ▸ check_of_expired hexp f.space op path
  cases r with
  | withSnapshotter snap => exact ⟨rfl, rfl⟩
  | method m =>
    rcases hm : m.asks with _ | ⟨op, path⟩
    · rcases hr with hr | ⟨snap, hr⟩
      · exact absurd hm hr
      · exact absurd hr (by simp)
    · obtain ⟨htree, hreached⟩ := exec_of_denied hm (hdeny op path) s
      exact ⟨htree, congrArg (List.filterMap _) hreached⟩
  | commit purpose answer =>
    rw [InceptionFS.answer, Effect.run_bind_pure_snd]
    rcases f.commit_cases purpose answer s with ⟨-, h⟩ | ⟨-, ⟨reason, -, h⟩ | ⟨hcheck, -⟩⟩
    · rw [h]
      exact ⟨rfl, rfl⟩
    · rw [h]
      exact ⟨rfl, rfl⟩
    · exact absurd hcheck (hdeny _ _)

/-- **An expired lease fences what is governed.** In a run of governed calls and of writes to the
handles they returned, in which after the expiry no handle is written that was opened for writing,
no step after the expiry changes the backend's tree or reaches the snapshotter. -/
theorem expired_lease_fences {isPrint : ℕ → Bool} {F : Files B} (hF : F.ByFlags)
    (tree : B.Tree) (fs : B.Fs) (space : GoString) {lease : Lease} {uses : List Use}
    (hgoverned : ∀ c, .call c ∈ uses →
      c.request.asks ≠ none ∨ ∃ snap, c.request = .withSnapshotter snap)
    (hfenced : ∀ earlier on data now, earlier ++ [.write on data now] <+: uses →
      lease.expired now = true → ∀ o,
      ((session isPrint F).after (.mounted tree fs space (some lease)) earlier).opened[on]? =
        some o → o.method.opensToWrite = false) :
    ∀ earlier u, earlier ++ [u] <+: uses → lease.expired u.time = true →
      let s := (session isPrint F).after (.mounted tree fs space (some lease)) earlier
      ((session isPrint F).step s u).1.tree = s.tree ∧
        ((session isPrint F).step s u).1.world.seam.snapshots = s.world.seam.snapshots := by
  intro earlier u hrun hexp s
  have hs : s.Held F space (some lease) :=
    Machine.inv_after ⟨World.under_mounted tree fs space (some lease), by simp [Session.mounted]⟩
      (fun _ u h ↦ h.step hF u) earlier
  cases u with
  | write on data now =>
    show (s.write F on data).tree = s.tree ∧ (s.write F on data).world.seam.snapshots = _
    rw [Session.write]
    rcases ho : s.opened[on]? with _ | o
    · exact ⟨rfl, rfl⟩
    · exact ⟨hs.readOnly o (List.mem_of_getElem? ho)
        (hfenced earlier on data now hrun hexp o ho) data _, rfl⟩
  | call c =>
    show ((mount isPrint B).step s.world c).1.seam.tree = _ ∧
      ((mount isPrint B).step s.world c).1.seam.snapshots = _
    rcases @mount_step_cases _ isPrint s.world c with ⟨-, h⟩ | ⟨f, hf, h⟩
    · rw [h]
      exact ⟨rfl, rfl⟩
    · rw [h]
      obtain ⟨-, hl⟩ := hs.under f (List.mem_of_getElem? hf)
      exact answer_of_expired hl hexp (hgoverned c (hrun.subset (by simp))) s.world.seam

/-- An instant, by the seconds since 1970. -/
def instant (unix : ℤ) : Time := ⟨unix, 0, 0, none⟩

/-- A call at an instant. -/
def Call.during (unix : ℤ) (on : ℕ) (m : Method) : Call :=
  ⟨on, .method m, ⟨instant unix, instant unix⟩⟩

/-- A lease to read and write the space `drop` until the instant 1000. -/
def tenant : Lease :=
  ⟨ascii "tenant".toList, ascii "drop".toList, ascii "stay".toList, true, true, instant 1000⟩

/-- A session under a lease that runs out: a file is opened for reading before, and after it writing
to that handle, creating a file and committing come to nothing. -/
theorem expired_lease_fences_tenant :
    let uses : List Use := [.call (.during 500 0 (.open' (ascii "letter".toList))),
      .write 0 [0x61] (instant 2000), .call (.during 2000 0 (.create (ascii "f".toList))),
      .call ⟨0, .commit [] (.error []), ⟨instant 2000, instant 2000⟩⟩]
    (∀ c, .call c ∈ uses → c.request.asks ≠ none ∨ ∃ snap, c.request = .withSnapshotter snap) ∧
    ∀ earlier u, earlier ++ [u] <+: uses → tenant.expired u.time = true →
      let s := (session (fun _ ↦ false) Memory.files).after
        (.mounted letterbox.seam.tree [] (ascii "drop".toList) (some tenant)) earlier
      ((session (fun _ ↦ false) Memory.files).step s u).1.tree = s.tree ∧
        ((session (fun _ ↦ false) Memory.files).step s u).1.world.seam.snapshots =
          s.world.seam.snapshots := by
  intro uses
  have hgoverned : ∀ c, .call c ∈ uses →
      c.request.asks ≠ none ∨ ∃ snap, c.request = .withSnapshotter snap := by
    intro c hc
    refine Or.inl ?_
    simp only [uses, List.mem_cons, Use.call.injEq, reduceCtorEq, List.not_mem_nil, or_false,
      false_or] at hc
    rcases hc with rfl | rfl | rfl <;> simp [Call.during, Request.asks, Method.asks]
  refine ⟨hgoverned, expired_lease_fences Memory.byFlags _ _ _ hgoverned ?_⟩
  rintro earlier on data now ⟨later, hrun⟩ - o ho
  -- The only writing comes second, and its handle is the one that was opened for reading.
  obtain ⟨rfl, rfl⟩ : earlier = uses.take 1 ∧ on = 0 := by
    rcases earlier with _ | ⟨a, _ | ⟨b, _ | ⟨c, _ | ⟨d, earlier⟩⟩⟩⟩ <;> simp_all [uses]
  obtain rfl := Option.some.inj ho
  rfl

/-- **Writing after the expiry.** A file is created under the lease, and the handle is written when
the lease has run out: the tree changes. -/
theorem write_after_expiry_changes_tree :
    let s := (session (fun _ ↦ false) Memory.files).after
      (.mounted [] [] (ascii "drop".toList) (some tenant))
      [.call (.during 500 0 (.create (ascii "f".toList)))]
    let u : Use := .write 0 [0x61] (instant 2000)
    tenant.expiry.isZero = false ∧ tenant.expired u.time = true ∧
      ((session (fun _ ↦ false) Memory.files).step s u).1.tree ≠ s.tree := by
  refine ⟨rfl, rfl, ?_⟩
  show ([([ascii "f".toList], .file [0x61])] : Memory.Tree) ≠ [([ascii "f".toList], .file [])]
  decide

end SourceOS.Mount
