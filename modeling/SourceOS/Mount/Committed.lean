import SourceOS.Mount.DevRetention
import SourceOS.Mount.MountRun

/-!
# What a receipt log says about the versions

A space with its version store: the family of wrappers of `mount` with `DevSnapshotter` attached, so
that a `Commit` freezes the working tree as it finds it, and a retainer that prunes the store. Of a
commit, the receipt log keeps the path `dev://ID` and nothing else.

That is enough (`final_hash_binds_trees`). Two histories with one final hash have committed the same
files, commit by commit. The hash of the last receipt fixes the payloads, a payload fixes the path
of a commit, the path names the hash of the tree, and this fixes the files. It is where the chain of
`fs/governance.go` and the hash of `backend/dev.go` come together, and it asks of the collisions of
SHA-256 only that there are none among what the two histories have digested.

A payload is the fields joined with `|`. So the two histories must be of one space and one subject,
or there must be no `|` in these names.
-/

namespace SourceOS.Mount

open Go Sha256

/-! ### A space with its version store -/

/-- The wrappers, and the version store. -/
structure Space (B : Billy) where
  world : World B
  shelf : Shelf

/-- What happens in a space. -/
inductive SpaceStep
  /-- A method is called on a wrapper. -/
  | call (on : ℕ) (m : Method) (now : Clock)
  /-- `WithSnapshotter`, with the `DevSnapshotter` of the space. -/
  | attach (on : ℕ) (now : Clock)
  /-- `Commit`, with what `Snapshot` finds. -/
  | commit (on : ℕ) (now : Clock) (purpose : GoString) (c : SnapshotCall)
  /-- `Tick` of the retainer of the store. -/
  | tick (t : TickCall)

/-- `Kind()` of `DevSnapshotter`. -/
def devKind : GoString :=
  ascii "dev".toList

/-- A `Commit` gets as far as the snapshotter. -/
def InceptionFS.commits {B : Billy} (isPrint : ℕ → Bool) (f : InceptionFS B) (now : Clock) : Bool :=
  f.snap.isSome &&
    (check isPrint now.checked f.lease f.space opCommit (ascii "/".toList)).toOption.isSome

/-- What a `Commit` has returned, with the tree that was there. -/
abbrev Committed := Version × WorkTree

/-- The version that an answer returns. -/
def returnedVersion {B : Billy} (T : WorkTree) :
    Option (Except GoString (Value B)) → Option Committed
  | some (.ok (.version v)) => some (v, T)
  | _ => none

section Machine

variable (isPrint : ℕ → Bool) (B : Billy) (d : DevSnapshotter)

/-- A space as a machine. It answers with the version that a `Commit` returns. -/
def spaces : Machine (Space B) SpaceStep (Option Committed) where
  step s
    | .call on m now =>
      ({ s with world := ((mount isPrint B).step s.world ⟨on, .method m, now⟩).1 }, none)
    | .attach on now => ({ s with
        world := ((mount isPrint B).step s.world ⟨on, .withSnapshotter ⟨devKind⟩, now⟩).1 }, none)
    | .commit on now purpose c =>
      let called := (s.world.mounts[on]?).any fun f ↦ f.commits isPrint now
      let answer := (d.snapshot c).run s.shelf
      let step := (mount isPrint B).step s.world ⟨on, .commit purpose answer.1, now⟩
      (⟨step.1, if called then answer.2 else s.shelf⟩, returnedVersion c.tree step.2)
    | .tick t => ({ s with shelf := ((d.retainer t).tick t.now s.shelf).2 }, none)

end Machine

/-- A history of a space, from its first call on. -/
structure History where
  B : Billy
  isPrint : ℕ → Bool
  tree : B.Tree
  fs : B.Fs
  space : GoString
  lease : Option Lease
  store : DevSnapshotter
  steps : List SpaceStep

namespace History

variable (h : History)

/-- The space when it is mounted. -/
def start : Space h.B :=
  ⟨.mounted h.tree h.fs h.space h.lease, .empty⟩

/-- The receipt log. -/
def log : ReceiptLog :=
  ((spaces h.isPrint h.B h.store).after h.start h.steps).world.seam.receipts

/-- The versions that were returned, in order, with the trees that were there. -/
def committed : List Committed :=
  ((spaces h.isPrint h.B h.store).trace h.start h.steps).filterMap Prod.snd

/-- The subject of the receipts. -/
def subject : GoString :=
  (InceptionFS.new h.fs h.space h.lease).subject

end History

/-! ### What a call adds to the log -/

/-- The classes of access of the methods. -/
def methodOps : List Op :=
  [opRead, opWrite, opList, opStat]

/-- The path that a commit has left, if the receipt is one of a commit that returned a version. -/
def Receipt.commitPath (r : Receipt) : Option GoString :=
  if r.op = opCommit ∧ r.path ≠ ascii "/".toList then some r.path else none

/-- The path under which a tree is committed. -/
def devPath (T : WorkTree) : GoString :=
  devKind ++ ascii "://".toList ++ hashTree T

/-- A receipt of a wrapper, for one of some classes of access. -/
structure Receipt.Of {B : Billy} (f : InceptionFS B) (ops : List Op) (r : Receipt) : Prop where
  subject : r.subject = f.subject
  space : r.space = f.space
  op : r.op ∈ ops

section Calls

variable {B : Billy} {isPrint : ℕ → Bool} {f : InceptionFS B} {now : Clock} {α : Type}

/-- A method leaves a receipt at most, and not one of a commit. -/
def AddsReceipt (f : InceptionFS B) (s t : Seam B) : Prop :=
  t.receipts.entries = s.receipts.entries ∨
    ∃ r : Receipt, r.Of f methodOps ∧ t.receipts.entries = s.receipts.entries ++ [r]

theorem addsReceipt_gated {op : Op} (hop : op ∈ methodOps) (path : GoString) (m : Method)
    (x : Effect GoString B.Tree α) :
    Effect.Steps (AddsReceipt f) (f.gated isPrint now op path m x) := by
  intro s
  rcases f.gated_cases op path m x s with ⟨reason, -, h⟩ | ⟨-, h⟩
  · rw [h]
    exact Or.inr ⟨_, ⟨rfl, rfl, hop⟩, rfl⟩
  · rw [h]
    exact Or.inr ⟨_, ⟨rfl, rfl, hop⟩, rfl⟩

theorem addsReceipt_backend (m : Method) (x : Effect GoString B.Tree α) :
    Effect.Steps (AddsReceipt f) (f.backend m x) :=
  fun _ ↦ Or.inl rfl

theorem addsReceipt_value {x : Effect GoString (Seam B) α}
    (hx : Effect.Steps (AddsReceipt f) x) {β : Type} (k : α → β) :
    Effect.Steps (AddsReceipt f) (x >>= fun a ↦ pure (k a)) := by
  intro s
  rw [Effect.run_bind_pure_snd]
  exact hx s

theorem addsReceipt_exec (m : Method) :
    Effect.Steps (AddsReceipt f) (f.exec isPrint now m) := by
  cases m with
  | join elem => exact addsReceipt_value (addsReceipt_backend _ _) _
  | root => exact addsReceipt_value (addsReceipt_backend _ _) _
  | tempFile dir pre => exact addsReceipt_value (addsReceipt_backend _ _) _
  | mkdirAll filename perm => exact addsReceipt_value (addsReceipt_backend _ _) _
  | symlink target link => exact addsReceipt_value (addsReceipt_backend _ _) _
  | readlink link => exact addsReceipt_value (addsReceipt_backend _ _) _
  | chroot path =>
    exact addsReceipt_value (addsReceipt_value (addsReceipt_gated (by decide) _ _ _) _) _
  | openFile filename flag perm =>
    refine addsReceipt_value (addsReceipt_gated ?_ _ _ _) _
    split <;> decide
  | _ => exact addsReceipt_value (addsReceipt_gated (by decide) _ _ _) _

/-- **What a `Commit` adds to the log**: nothing, or a receipt under the path `/` if no version is
returned; and a receipt that names the version if one is. -/
theorem commit_adds (purpose : GoString) (answer : Except GoString Version) (s : Seam B) :
    (∃ e, ((f.commit isPrint now purpose answer).run s).1 = .error e ∧
      (((f.commit isPrint now purpose answer).run s).2.receipts.entries = s.receipts.entries ∨
        ∃ r : Receipt, r.Of f [opCommit] ∧ r.path = ascii "/".toList ∧
          ((f.commit isPrint now purpose answer).run s).2.receipts.entries =
            s.receipts.entries ++ [r])) ∨
    ∃ snap v, f.snap = some snap ∧ answer = .ok v ∧
      ((f.commit isPrint now purpose answer).run s).1 = .ok v ∧
      ∃ r : Receipt, r.Of f [opCommit] ∧ r.path = snap.kind ++ ascii "://".toList ++ v.id ∧
        ((f.commit isPrint now purpose answer).run s).2.receipts.entries =
          s.receipts.entries ++ [r] := by
  rcases hsnap : f.snap with _ | snap
  · refine Or.inl ⟨ascii "no snapshotter configured for space ".toList ++ quote isPrint f.space,
      ?_, Or.inl ?_⟩
    · simp only [Effect.run, InceptionFS.commit, hsnap]
    · simp only [Effect.run, InceptionFS.commit, hsnap]
  · rcases hcheck : check isPrint now.checked f.lease f.space opCommit (ascii "/".toList) with
      reason | _
    · have hrun : (f.commit isPrint now purpose answer).run s = (.error reason,
          f.receipt now opCommit (ascii "/".toList) (ascii "deny: ".toList ++ reason) s) := by
        simp only [Effect.run, InceptionFS.commit, hsnap, hcheck]
      rw [hrun]
      exact Or.inl ⟨reason, rfl, Or.inr ⟨_, ⟨rfl, rfl, List.mem_singleton_self _⟩, rfl, rfl⟩⟩
    · rcases answer with err | v
      · have hrun : (f.commit isPrint now purpose (.error err)).run s = (.error err,
            f.receipt now opCommit (ascii "/".toList) (ascii "error: ".toList ++ err)
              { s with reached := s.reached ++ [.snapshot purpose] }) := by
          simp only [Effect.run, InceptionFS.commit, hsnap, hcheck]
        rw [hrun]
        exact Or.inl ⟨err, rfl, Or.inr ⟨_, ⟨rfl, rfl, List.mem_singleton_self _⟩, rfl, rfl⟩⟩
      · have hrun : (f.commit isPrint now purpose (.ok v)).run s = (.ok v,
            f.receipt now opCommit (snap.kind ++ ascii "://".toList ++ v.id)
              (ascii "allow: snapshot ".toList ++ purpose)
              { s with reached := s.reached ++ [.snapshot purpose] }) := by
          simp only [Effect.run, InceptionFS.commit, hsnap, hcheck]
        rw [hrun]
        exact Or.inr ⟨snap, v, rfl, rfl, rfl, _, ⟨rfl, rfl, List.mem_singleton_self _⟩, rfl, rfl⟩

end Calls

/-! ### What a history keeps -/

section Histories

variable {B : Billy} {isPrint : ℕ → Bool}

/-- Every snapshotter that is attached is a `DevSnapshotter`. -/
def World.DevOnly (w : World B) : Prop :=
  ∀ f ∈ w.mounts, ∀ snap, f.snap = some snap → snap.kind = devKind

/-- A file system that a wrapper returns has no snapshotter. -/
theorem snap_of_answer_fs {f g : InceptionFS B} {now : Clock} {r : Request} {s : Seam B}
    (h : ((f.answer isPrint now r).run s).1 = .ok (.fs g)) : g.snap = none := by
  have hvalue : ∀ {α : Type} {x : Effect GoString (Seam B) α} {k : α → Value B},
      ((x >>= fun a ↦ pure (k a)).run s).1 = .ok (.fs g) → (∀ a, k a ≠ .fs g) → False := by
    intro α x k hx hk
    obtain ⟨a, -, ha⟩ := Effect.exists_of_bind_pure_ok hx
    exact hk a ha
  cases r with
  | withSnapshotter s => exact absurd (Except.ok.inj h) (by simp)
  | commit purpose answer => exact (hvalue h fun _ ↦ by simp).elim
  | method m =>
    cases m with
    | chroot path =>
      obtain ⟨g', hg', hg⟩ := Effect.exists_of_bind_pure_ok h
      obtain ⟨sub, -, hsub⟩ := Effect.exists_of_bind_pure_ok hg'
      rw [← Value.fs.inj hg, ← hsub]
    | _ => exact (hvalue h fun _ ↦ by simp).elim

theorem devOnly_step {w : World B} (hw : w.DevOnly) (c : Call)
    (hc : ∀ snap, c.request = .withSnapshotter snap → snap.kind = devKind) :
    ((mount isPrint B).step w c).1.DevOnly := by
  rcases mount_step_cases w c with ⟨-, h⟩ | ⟨f, hf, h⟩
  · rw [h]
    exact hw
  · rw [h]
    intro g hg snap hsnap
    have hg : g ∈ World.mountsAfter w.mounts c.on f c.request _ := hg
    unfold World.mountsAfter at hg
    split at hg
    · rename_i s hreq
      rcases List.mem_or_eq_of_mem_set hg with hg | rfl
      · exact hw g hg snap hsnap
      · exact Option.some.inj hsnap ▸ hc s hreq
    · rename_i hres _
      rcases List.mem_append.1 hg with hg | hg
      · exact hw g hg snap hsnap
      · rw [List.mem_singleton.1 hg, snap_of_answer_fs hres] at hsnap
        exact nomatch hsnap
    · exact hw g hg snap hsnap

end Histories

/-- **What is known of a space at a moment of its history**, with the versions committed so far. -/
structure History.Records (h : History) (s : Space h.B) (cs : List Committed) : Prop where
  /-- The wrappers are of one family. -/
  under : s.world.Under h.space h.lease
  /-- They have the space's snapshotter, or none. -/
  devOnly : s.world.DevOnly
  /-- The log is a chain. -/
  chained : s.world.seam.receipts.Chained
  /-- Its receipts are the family's, and the path of a commit has no separator in it. -/
  fields : ∀ r ∈ s.world.seam.receipts.entries, r.subject = h.subject ∧ r.space = h.space ∧
    (r.op ∈ methodOps ∨ r.op = opCommit ∧ bar ∉ r.path)
  /-- The paths of the commits are those of the versions. -/
  paths : s.world.seam.receipts.entries.filterMap Receipt.commitPath =
    cs.map fun c ↦ devPath c.2
  /-- The versions are named by their trees. -/
  ids : ∀ c ∈ cs, c.1 = h.store.version (hashTree c.2)

section Steps

variable {h : History} {s : Space h.B} {cs : List Committed}

theorem History.records_start : h.Records h.start [] where
  under := World.under_mounted h.tree h.fs h.space h.lease
  devOnly f hf snap hsnap := by
    rw [List.mem_singleton.1 hf] at hsnap
    exact nomatch hsnap
  chained := ReceiptLog.chained_empty
  fields _ hr := absurd hr List.not_mem_nil
  paths := rfl
  ids _ hc := absurd hc List.not_mem_nil

theorem commitPath_of_method {r : Receipt} (hr : r.op ∈ methodOps) : r.commitPath = none := by
  rw [Receipt.commitPath, if_neg]
  rintro ⟨hop, -⟩
  rw [hop] at hr
  exact absurd hr (by decide)

theorem bar_notMem_devPath (T : WorkTree) : bar ∉ devPath T := by
  rw [devPath, List.mem_append, not_or]
  exact ⟨by decide, bar_notMem_hexEncode _⟩

theorem devPath_ne_slash (T : WorkTree) : devPath T ≠ ascii "/".toList := by
  rw [devPath]
  exact fun heq ↦ absurd (List.cons.inj heq).1 (by decide)

/-- A call that adds to the log what is known of receipts. -/
theorem History.Records.step (hs : h.Records s cs) (c : Call)
    (hc : ∀ snap, c.request = .withSnapshotter snap → snap.kind = devKind) (shelf : Shelf)
    {added : List Receipt} {new : List Committed}
    (hadded : ((mount h.isPrint h.B).step s.world c).1.seam.receipts.entries =
      s.world.seam.receipts.entries ++ added)
    (hfields : ∀ r ∈ added, r.subject = h.subject ∧ r.space = h.space ∧
      (r.op ∈ methodOps ∨ r.op = opCommit ∧ bar ∉ r.path))
    (hpaths : added.filterMap Receipt.commitPath = new.map fun c ↦ devPath c.2)
    (hids : ∀ c ∈ new, c.1 = h.store.version (hashTree c.2)) :
    h.Records ⟨((mount h.isPrint h.B).step s.world c).1, shelf⟩ (cs ++ new) where
  under := under_step hs.under c
  devOnly := devOnly_step hs.devOnly c hc
  chained := (grows_step s.world c).1 hs.chained
  fields r hr := by
    rw [hadded] at hr
    exact (List.mem_append.1 hr).elim (hs.fields r) (hfields r)
  paths := by
    rw [hadded, List.filterMap_append, List.map_append, hs.paths, hpaths]
  ids c hc := (List.mem_append.1 hc).elim (hs.ids c) (hids c)

/-- A call that adds nothing. -/
theorem History.Records.quiet (hs : h.Records s cs) (c : Call)
    (hc : ∀ snap, c.request = .withSnapshotter snap → snap.kind = devKind) (shelf : Shelf)
    (hsame : ((mount h.isPrint h.B).step s.world c).1.seam.receipts.entries =
      s.world.seam.receipts.entries) :
    h.Records ⟨((mount h.isPrint h.B).step s.world c).1, shelf⟩ (cs ++ []) :=
  @History.Records.step h s cs hs c hc shelf [] [] (by rw [hsame, List.append_nil])
    (fun _ hr ↦ absurd hr List.not_mem_nil) rfl fun _ hc ↦ absurd hc List.not_mem_nil

/-- The receipts of a wrapper are those of the family. -/
theorem Receipt.Of.family {f : InceptionFS h.B} {ops : List Op} {r : Receipt} (hr : r.Of f ops)
    (hf : f.space = h.space ∧ f.lease = h.lease) : r.subject = h.subject ∧ r.space = h.space := by
  refine ⟨hr.subject.trans ?_, hr.space.trans hf.1⟩
  rw [History.subject, InceptionFS.subject, InceptionFS.subject, hf.2]
  rfl

theorem History.Records.call (hs : h.Records s cs) (on : ℕ) (m : Method) (now : Clock)
    (shelf : Shelf) :
    h.Records ⟨((mount h.isPrint h.B).step s.world ⟨on, .method m, now⟩).1, shelf⟩ (cs ++ []) := by
  have hnot : ∀ snap, Request.method m = .withSnapshotter snap → snap.kind = devKind :=
    fun _ heq ↦ nomatch heq
  rcases mount_step_cases s.world ⟨on, .method m, now⟩ with ⟨-, hstep⟩ | ⟨f, hf, hstep⟩
  · exact hs.quiet _ hnot shelf (by rw [hstep])
  · rcases addsReceipt_exec m s.world.seam with hsame | ⟨r, hr, hadds⟩
    · exact hs.quiet _ hnot shelf (by rw [hstep]; exact hsame)
    · obtain ⟨hsubject, hspace⟩ := hr.family (hs.under f (List.mem_of_getElem? hf))
      refine @History.Records.step h s cs hs _ hnot shelf [r] [] (by rw [hstep]; exact hadds) ?_ ?_
        fun _ hc ↦ absurd hc List.not_mem_nil
      · rw [List.forall_mem_singleton]
        exact ⟨hsubject, hspace, Or.inl hr.op⟩
      · rw [List.filterMap_cons, commitPath_of_method hr.op]
        rfl

theorem History.Records.attach (hs : h.Records s cs) (on : ℕ) (now : Clock) (shelf : Shelf) :
    h.Records ⟨((mount h.isPrint h.B).step s.world ⟨on, .withSnapshotter ⟨devKind⟩, now⟩).1, shelf⟩
      (cs ++ []) := by
  refine hs.quiet _ (fun snap heq ↦ ?_) shelf ?_
  · rw [← Request.withSnapshotter.inj heq]
  · rcases mount_step_cases s.world ⟨on, .withSnapshotter ⟨devKind⟩, now⟩ with
      ⟨-, hstep⟩ | ⟨f, -, hstep⟩
    · rw [hstep]
    · rw [hstep]
      rfl

/-- **A commit is recorded** under the hash of its tree. -/
theorem History.Records.commit (hs : h.Records s cs) (on : ℕ) (now : Clock) (purpose : GoString)
    (c : SnapshotCall) :
    h.Records ((spaces h.isPrint h.B h.store).step s (.commit on now purpose c)).1
      (cs ++ ((spaces h.isPrint h.B h.store).step s (.commit on now purpose c)).2.toList) := by
  set answer := ((h.store.snapshot c).run s.shelf).1
  have hnot : ∀ snap, Request.commit purpose answer = .withSnapshotter snap → snap.kind = devKind :=
    fun _ heq ↦ nomatch heq
  have hout : ((spaces h.isPrint h.B h.store).step s (.commit on now purpose c)).2 =
      returnedVersion c.tree
        ((mount h.isPrint h.B).step s.world ⟨on, .commit purpose answer, now⟩).2 := rfl
  rw [hout]
  rcases mount_step_cases s.world ⟨on, .commit purpose answer, now⟩ with
    ⟨hnone, hstep⟩ | ⟨f, hf, hstep⟩
  · rw [congrArg Prod.snd hstep]
    exact hs.quiet _ hnot _ (by rw [hstep])
  · have hsnd : ((f.answer h.isPrint now (.commit purpose answer)).run s.world.seam).2 =
        ((f.commit h.isPrint now purpose answer).run s.world.seam).2 :=
      Effect.run_bind_pure_snd _ _ _
    have hadds' : ∀ rs : List Receipt, ((f.commit h.isPrint now purpose answer).run
        s.world.seam).2.receipts.entries = s.world.seam.receipts.entries ++ rs →
          ((mount h.isPrint h.B).step s.world
            ⟨on, .commit purpose answer, now⟩).1.seam.receipts.entries =
              s.world.seam.receipts.entries ++ rs := by
      intro rs hrs
      rw [hstep]
      exact (congrArg (fun t : Seam h.B ↦ t.receipts.entries) hsnd).trans hrs
    have hfamily := hs.under f (List.mem_of_getElem? hf)
    rw [congrArg Prod.snd hstep]
    rcases @commit_adds h.B h.isPrint f now purpose answer s.world.seam with
      ⟨e, herr, hadds⟩ | ⟨snap, v, hsnap, hanswer, hok, r, hr, hpath, hadds⟩
    · have hres : ((f.answer h.isPrint now (.commit purpose answer)).run s.world.seam).1 =
          .error e := Effect.bind_pure_error _ herr
      rw [hres]
      rcases hadds with hsame | ⟨r, hr, hpath, hadds⟩
      · exact hs.quiet _ hnot _ ((hadds' [] (by rw [hsame, List.append_nil])).trans
          (List.append_nil _))
      · obtain ⟨hsubject, hspace⟩ := hr.family hfamily
        refine hs.step _ hnot _ (hadds' _ hadds) ?_ ?_ fun _ hc ↦ absurd hc List.not_mem_nil
        · rw [List.forall_mem_singleton, hpath]
          exact ⟨hsubject, hspace, Or.inr ⟨List.mem_singleton.1 hr.op, by decide⟩⟩
        · have hnone : r.commitPath = none := if_neg fun hcommit ↦ hcommit.2 hpath
          rw [List.filterMap_cons, hnone]
          rfl
    · have hres : ((f.answer h.isPrint now (.commit purpose answer)).run s.world.seam).1 =
          .ok (.version v) := by
        have hrun : (f.commit h.isPrint now purpose answer).run s.world.seam = (.ok v, _) :=
          Prod.ext hok rfl
        rw [InceptionFS.answer, Effect.run_bind_of_ok hrun]
        rfl
      obtain ⟨rfl, -⟩ := DevSnapshotter.exists_dir_of_ok hanswer
      have hdev : r.path = devPath c.tree := by
        rw [hpath, hs.devOnly f (List.mem_of_getElem? hf) snap hsnap]
        rfl
      rw [hres]
      obtain ⟨hsubject, hspace⟩ := hr.family hfamily
      refine hs.step _ hnot _ (hadds' _ hadds) ?_ ?_ ?_
      · rw [List.forall_mem_singleton, hdev]
        exact ⟨hsubject, hspace, Or.inr ⟨List.mem_singleton.1 hr.op, bar_notMem_devPath _⟩⟩
      · have hsome : r.commitPath = some (devPath c.tree) := by
          rw [Receipt.commitPath, if_pos ⟨List.mem_singleton.1 hr.op, hdev ▸ devPath_ne_slash _⟩,
            hdev]
        rw [List.filterMap_cons, hsome]
        rfl
      · intro x hx
        rw [List.mem_singleton.1 hx]

/-- **Every step keeps what is known.** -/
theorem History.Records.next (hs : h.Records s cs) (e : SpaceStep) :
    h.Records ((spaces h.isPrint h.B h.store).step s e).1
      (cs ++ ((spaces h.isPrint h.B h.store).step s e).2.toList) := by
  cases e with
  | call on m now => exact hs.call on m now s.shelf
  | attach on now => exact hs.attach on now s.shelf
  | commit on now purpose c => exact hs.commit on now purpose c
  | tick t =>
    show h.Records ⟨s.world, _⟩ (cs ++ [])
    rw [List.append_nil]
    exact ⟨hs.under, hs.devOnly, hs.chained, hs.fields, hs.paths, hs.ids⟩

/-- **What a whole history keeps.** -/
theorem History.records (h : History) :
    h.Records ((spaces h.isPrint h.B h.store).after h.start h.steps) h.committed := by
  refine Machine.inv_trace_of_mem (I := fun s tr ↦ h.Records s (tr.filterMap Prod.snd))
    History.records_start fun s tr e _ hs ↦ ?_
  have hsplit : (tr ++ [(e, ((spaces h.isPrint h.B h.store).step s e).2)]).filterMap Prod.snd =
      tr.filterMap Prod.snd ++ ((spaces h.isPrint h.B h.store).step s e).2.toList := by
    rw [List.filterMap_append]
    rcases ((spaces h.isPrint h.B h.store).step s e).2 with _ | c <;> rfl
  rw [hsplit]
  exact hs.next e

end Steps

/-! ### Two histories -/

/-- The separators in the names of two histories cannot be confused: they are of one space and one
subject, or there are none. -/
def Aligned (a b : History) : Prop :=
  a.subject = b.subject ∧ a.space = b.space ∨
    (bar ∉ a.subject ∧ bar ∉ a.space) ∧ bar ∉ b.subject ∧ bar ∉ b.space

/-- **Receipts of one payload** are of commits of one path, or of no commits. -/
theorem commitPath_eq_of_payload_eq {a b : History} (halign : Aligned a b) {r s : Receipt}
    (hr : r.subject = a.subject ∧ r.space = a.space ∧
      (r.op ∈ methodOps ∨ r.op = opCommit ∧ bar ∉ r.path))
    (hs : s.subject = b.subject ∧ s.space = b.space ∧
      (s.op ∈ methodOps ∨ s.op = opCommit ∧ bar ∉ s.path))
    (hrs : receiptChain.Stem [] r.prev) (hss : receiptChain.Stem [] s.prev)
    (h : r.payload = s.payload) : r.commitPath = s.commitPath := by
  obtain ⟨-, h⟩ := append_bar_inj (bar_notMem_formatUint _) (bar_notMem_formatUint _) h
  obtain ⟨-, h⟩ := append_bar_inj (bar_notMem_of_stem hrs) (bar_notMem_of_stem hss) h
  obtain ⟨-, h⟩ := append_bar_inj (Time.bar_notMem_formatRFC3339 _ _)
    (Time.bar_notMem_formatRFC3339 _ _) h
  obtain ⟨hrsubject, hrspace, hrop⟩ := hr
  obtain ⟨hssubject, hsspace, hsop⟩ := hs
  rw [hrsubject, hrspace, hssubject, hsspace] at h
  -- what is behind the names
  have hrest : r.op ++ bar :: (r.path ++ bar :: r.verdict) =
      s.op ++ bar :: (s.path ++ bar :: s.verdict) := by
    rcases halign with ⟨hsubject, hspace⟩ | ⟨⟨ha, ha'⟩, hb, hb'⟩
    · rw [hsubject, hspace] at h
      have h := (List.cons.inj (List.append_cancel_left h)).2
      exact (List.cons.inj (List.append_cancel_left h)).2
    · obtain ⟨-, h⟩ := append_bar_inj ha hb h
      exact (append_bar_inj ha' hb' h).2
  have hopBar : ∀ {x : Receipt}, x.op ∈ methodOps ∨ x.op = opCommit ∧ bar ∉ x.path →
      bar ∉ x.op := by
    have hmethods : ∀ op ∈ methodOps, bar ∉ op := by decide
    intro x hx
    rcases hx with hx | ⟨hx, -⟩
    · exact hmethods _ hx
    · rw [hx]
      decide
  obtain ⟨hop, hrest⟩ := append_bar_inj (hopBar hrop) (hopBar hsop) hrest
  rcases hrop with hrop | ⟨hrop, hrbar⟩
  · rw [commitPath_of_method hrop, commitPath_of_method (hop ▸ hrop)]
  · rcases hsop with hsop | ⟨-, hsbar⟩
    · rw [commitPath_of_method hsop, commitPath_of_method (hop ▸ hsop)]
    · obtain ⟨hpath, -⟩ := append_bar_inj hrbar hsbar hrest
      rw [Receipt.commitPath, Receipt.commitPath, hop, hpath]

/-- **The final hash binds the committed trees.** Take two histories of spaces: any calls, on any
wrappers, with any commits and any pruning of the stores in between, whose logs end with the same
hash. Then they have committed the same versions, one by one and in order, and of each the same
regular files: path, mode and content. -/
theorem final_hash_binds_trees (a b : History) (halign : Aligned a b)
    (hlast : a.log.last = b.log.last)
    (hpayloads : Set.InjOn sum256
      {p | p ∈ a.log.entries.map Receipt.payload ∨ p ∈ b.log.entries.map Receipt.payload})
    (htrees : Set.InjOn sum256 {t | ∃ c ∈ a.committed ++ b.committed, t ∈ c.2.hashed})
    (hnames : ∀ c ∈ a.committed ++ b.committed, ∀ f ∈ c.2.files, newline ∉ f.rel) :
    List.Forall₂ (fun c c' ↦ c.1.id = c'.1.id ∧ c.2.files.Perm c'.2.files)
      a.committed b.committed := by
  have ha := a.records
  have hb := b.records
  have hla : receiptChain.Linked [] a.log.all := ha.chained.linked
  have hlb : receiptChain.Linked [] b.log.all := hb.chained.linked
  have htip : receiptChain.tip [] a.log.all = receiptChain.tip [] b.log.all :=
    ha.chained.last.symm.trans (hlast.trans hb.chained.last)
  have hpay : List.Forall₂ (fun x y ↦ x.payload = y.payload) a.log.all b.log.all :=
    hla.forall₂_payload hlb htip digest_ne_root (fun _ _ hx hy h ↦ (payload_inj hx hy h).2.1)
      (hexEncode_injective.comp_injOn hpayloads)
  -- so the receipts of commits are of the same paths
  have hpaths : a.log.all.map Receipt.commitPath = b.log.all.map Receipt.commitPath := by
    refine List.ext_getElem (by rw [List.length_map, List.length_map, hpay.length_eq])
      fun i hi hj ↦ ?_
    rw [List.length_map] at hi hj
    rw [List.getElem_map, List.getElem_map]
    exact commitPath_eq_of_payload_eq halign (ha.fields _ (List.getElem_mem hi))
      (hb.fields _ (List.getElem_mem hj)) (hla.stem_prev hi) (hlb.stem_prev hj) (hpay.get hi hj)
  have hdev : (a.committed.map fun c ↦ devPath c.2) = b.committed.map fun c ↦ devPath c.2 := by
    rw [← ha.paths, ← hb.paths]
    have hid : ∀ rs : List Receipt,
        rs.filterMap Receipt.commitPath = (rs.map Receipt.commitPath).filterMap id := fun rs ↦ by
      rw [List.filterMap_map, Function.id_comp]
    rw [hid, hid]
    exact congrArg _ hpaths
  have hlen : a.committed.length = b.committed.length := by
    simpa using congrArg List.length hdev
  refine List.forall₂_iff_get.2 ⟨hlen, fun i hi hj ↦ ?_⟩
  set c := a.committed.get ⟨i, hi⟩
  set c' := b.committed.get ⟨i, hj⟩
  have hc : c ∈ a.committed := List.get_mem _ _
  have hc' : c' ∈ b.committed := List.get_mem _ _
  have hpath : devPath c.2 = devPath c'.2 := by
    have hget := List.getElem_of_eq hdev (i := i) (by rwa [List.length_map])
    rwa [List.getElem_map, List.getElem_map] at hget
  have hhash : hashTree c.2 = hashTree c'.2 := List.append_cancel_left hpath
  refine ⟨?_, ?_⟩
  · rw [ha.ids c hc, hb.ids c' hc', hhash]
    rfl
  · refine perm_files_of_newline_notMem (htrees.mono ?_) (hnames c (List.mem_append_left _ hc))
      (hnames c' (List.mem_append_right _ hc')) hhash
    rintro t (ht | ht)
    · exact ⟨c, List.mem_append_left _ hc, ht⟩
    · exact ⟨c', List.mem_append_right _ hc', ht⟩

/-- A space in memory in which one commit is made. -/
def oneCommit (T : WorkTree) : History where
  B := Memory.memory
  isPrint := fun _ ↦ false
  tree := []
  fs := []
  space := ascii "demo-space".toList
  lease := some (readWriteLease (ascii "agent".toList) (ascii "demo-space".toList) [])
  store := devSnapshotter
  steps := [.attach 0 ⟨Time.zero, Time.zero⟩,
    .commit 0 ⟨Time.zero, Time.zero⟩ (ascii "save".toList) (.plain T 1)]

/-- Two histories of one final hash: the same files, walked in another order. -/
theorem final_hash_binds_trees_back :
    (oneCommit twoFiles).committed.length = 1 ∧
      List.Forall₂ (fun c c' ↦ c.1.id = c'.1.id ∧ c.2.files.Perm c'.2.files)
        (oneCommit twoFiles).committed (oneCommit twoFilesBack).committed := by
  have hperm : twoFiles.files.Perm twoFilesBack.files := List.Perm.swap _ _ _
  have hcommitted : ∀ T : WorkTree, (oneCommit T).committed =
      [(devSnapshotter.version (hashTree T), T)] := fun T ↦ rfl
  have hlog : ∀ T : WorkTree, (oneCommit T).log = (ReceiptLog.empty.append Time.zero
      (ascii "agent".toList) (ascii "demo-space".toList) opCommit (devPath T)
      (ascii "allow: snapshot save".toList)).2 := fun T ↦ rfl
  have hsame : (oneCommit twoFilesBack).log = (oneCommit twoFiles).log := by
    rw [hlog, hlog, devPath, devPath, hashTree_eq_of_perm hperm]
  refine ⟨by rw [hcommitted]; rfl, ?_⟩
  refine final_hash_binds_trees _ _ (Or.inl ⟨rfl, rfl⟩) (by rw [hsame]) ?_ ?_ ?_
  · rw [hsame, hlog]
    intro p hp q hq _
    rw [List.mem_singleton.1 (or_self_iff.1 hp), List.mem_singleton.1 (or_self_iff.1 hq)]
  · refine injOn_twoFiles ?_
    rintro t ⟨c, hc, ht⟩
    rw [hcommitted, hcommitted] at hc
    rcases List.mem_pair.1 hc with rfl | rfl
    · exact ht
    · exact mem_hashed_of_twoFilesBack ht
  · intro c hc
    rw [hcommitted, hcommitted] at hc
    rcases List.mem_pair.1 hc with rfl | rfl
    · show ∀ f ∈ twoFiles.files, newline ∉ f.rel
      decide
    · show ∀ f ∈ twoFilesBack.files, newline ∉ f.rel
      decide

end SourceOS.Mount
