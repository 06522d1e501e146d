import SourceOS.Mount.Memory

/-!
# Runs of a mounted file system

What holds in every state a family of wrappers can reach, whatever is called in whatever order.

* **The receipt log is a chain** (`receipts_form_chain`). Every wrapper of the family writes to one
  log, and the only thing a call ever does to it is to append; so one step lemma (`steps_answer`)
  carries the invariant and the growth of the log through every run.
* **Mutation is mediated where it is gated** (`gated_mutation_refused`). Under a lease that denies
  writing, the overridden methods leave the tree alone and refuse to change it. `MkdirAll`,
  `TempFile` and `Symlink` change the tree and are promoted, so a run that uses them is not covered
  (`unguarded`), and `mkdirAll_passes_readOnlyLease` is a run in which the tree does change.
-/

namespace SourceOS.Mount

open Go

variable {B : Billy} {α : Type} {isPrint : ℕ → Bool} {f : InceptionFS B} {now : Clock}

/-! ### The log -/

/-- What calls do to the log: they keep it a chain, and they only add to it. -/
def Seam.Grows (s t : Seam B) : Prop :=
  (s.receipts.Chained → t.receipts.Chained) ∧ s.receipts.entries <+: t.receipts.entries

theorem Seam.Grows.refl (s : Seam B) : s.Grows s :=
  ⟨id, List.prefix_rfl⟩

theorem Seam.Grows.trans {s t u : Seam B} (h : s.Grows t) (h' : t.Grows u) : s.Grows u :=
  ⟨h'.1 ∘ h.1, h.2.trans h'.2⟩

/-- A receipt makes the log grow. -/
theorem grows_receipt (op : Op) (path verdict : GoString) (s : Seam B) :
    s.Grows (f.receipt now op path verdict s) :=
  ⟨fun h ↦ h.append _ _ _ _ _ _, List.prefix_append _ _⟩

/-- The backend does nothing to the log. -/
theorem steps_backend (m : Method) (x : Effect GoString B.Tree α) :
    Effect.Steps Seam.Grows (f.backend m x) :=
  fun _ ↦ ⟨id, List.prefix_rfl⟩

theorem steps_gated (op : Op) (path : GoString) (m : Method) (x : Effect GoString B.Tree α) :
    Effect.Steps Seam.Grows (f.gated isPrint now op path m x) := by
  intro s
  rcases f.gated_cases op path m x s with ⟨reason, -, h⟩ | ⟨-, h⟩
  · rw [h]
    exact grows_receipt _ _ _ s
  · rw [h]
    exact (grows_receipt _ _ _ s).trans (steps_backend m x _)

theorem steps_commit (purpose : GoString) (answer : Except GoString Version) :
    Effect.Steps Seam.Grows (f.commit isPrint now purpose answer) := by
  intro s
  rcases f.commit_cases purpose answer s with ⟨-, h⟩ |
    ⟨-, ⟨reason, -, h⟩ | ⟨-, path, verdict, -, h⟩⟩
  · rw [h]
    exact Seam.Grows.refl s
  · rw [h]
    exact grows_receipt _ _ _ s
  · rw [h]
    exact grows_receipt _ _ _ { s with reached := s.reached ++ [.snapshot purpose] }

/-- Turning the result of a call into a value does nothing to the log. -/
private theorem steps_value {x : Effect GoString (Seam B) α} (hx : Effect.Steps Seam.Grows x)
    {β : Type} (k : α → β) : Effect.Steps Seam.Grows (x >>= fun a ↦ pure (k a)) :=
  Effect.Steps.bind (R := Seam.Grows) Seam.Grows.trans hx fun _ ↦
    Effect.Steps.pure Seam.Grows.refl _

theorem steps_exec (m : Method) : Effect.Steps Seam.Grows (f.exec isPrint now m) := by
  cases m with
  | join elem => exact steps_value (steps_backend _ _) _
  | root => exact steps_value (steps_backend _ _) _
  | tempFile dir pre => exact steps_value (steps_backend _ _) _
  | mkdirAll filename perm => exact steps_value (steps_backend _ _) _
  | symlink target link => exact steps_value (steps_backend _ _) _
  | readlink link => exact steps_value (steps_backend _ _) _
  | chroot path => exact steps_value (steps_value (steps_gated _ _ _ _) _) _
  | _ => exact steps_value (steps_gated _ _ _ _) _

/-- **Whatever is asked of a wrapper, the log grows.** -/
theorem steps_answer (r : Request) : Effect.Steps Seam.Grows (f.answer isPrint now r) := by
  cases r with
  | method m => exact steps_exec m
  | commit purpose answer => exact steps_value (steps_commit purpose answer) _
  | withSnapshotter s => exact Effect.Steps.pure Seam.Grows.refl _

theorem grows_step (w : World B) (c : Call) : w.seam.Grows ((mount isPrint B).step w c).1.seam := by
  rcases mount_step_cases w c with ⟨-, h⟩ | ⟨f, -, h⟩
  · rw [h]
    exact Seam.Grows.refl _
  · rw [h]
    exact steps_answer c.request w.seam

/-- The log grows along a run. -/
theorem grows_after (w : World B) (calls : List Call) :
    w.seam.Grows ((mount isPrint B).after w calls).seam :=
  Machine.rel_after (R := fun w w' ↦ w.seam.Grows w'.seam) (fun _ ↦ Seam.Grows.refl _)
    Seam.Grows.trans grows_step w calls

/-- **Every reachable receipt log is a valid chain.** After any run of calls on a mounted file
system and on the file systems `Chroot` made of it: receipts are numbered by their place, the first
names nothing and each other one names the hash before it, `last` is the hash of the final one,
every hash is the digest of the receipt's own fields, `Verify` returns nil, and every earlier value
of the entries is a prefix of the present one. -/
theorem receipts_form_chain (isPrint : ℕ → Bool) (B : Billy) (tree : B.Tree) (fs : B.Fs)
    (space : GoString) (lease : Option Lease) (calls : List Call) :
    let log := ((mount isPrint B).after (World.mounted tree fs space lease) calls).seam.receipts
    (∀ (i : ℕ) (h : i < log.entries.length), log.entries[i].seq = i) ∧
    (∀ h : 0 < log.entries.length, log.entries[0].prev = []) ∧
    (∀ (i : ℕ) (h : i + 1 < log.entries.length),
      log.entries[i + 1].prev = log.entries[i].hash) ∧
    log.last = (log.entries.getLast?.map Receipt.hash).getD [] ∧
    (∀ r ∈ log.entries, r.hash = hexEncode (Sha256.sum256 r.payload)) ∧
    log.verify isPrint = .ok () ∧
    ∀ earlier, earlier <+: calls →
      ((mount isPrint B).after (World.mounted tree fs space lease) earlier).seam.receipts.entries
        <+: log.entries := by
  intro log
  have hlog : log.Chained := (grows_after _ calls).1 ReceiptLog.chained_empty
  refine ⟨hlog.seq, fun h ↦ hlog.linked.prev_getElem h, fun i h ↦ hlog.linked.prev_succ h, ?_, ?_,
    ReceiptLog.verify_eq_ok_iff.2 hlog.linked, ?_⟩
  · rw [hlog.last, HashChain.tip_eq_getLast?]
    rfl
  · intro r hr
    obtain ⟨i, hi, rfl⟩ := List.getElem_of_mem hr
    exact (hlog.linked.hash_getElem hi).symm
  · rintro earlier ⟨later, rfl⟩
    show _ <+: ((mount isPrint B).after _ (earlier ++ later)).seam.receipts.entries
    rw [Machine.after_append]
    exact (grows_after _ later).2

/-! ### The tree -/

/-- The methods that create, alter, rename or remove something. -/
def Method.mutates : Method → Bool
  | .create _ | .rename _ _ | .remove _ | .tempFile _ _ | .mkdirAll _ _ | .symlink _ _ => true
  | .openFile _ flag _ => asksToWrite flag
  | _ => false

/-- The mutating methods that are promoted from the backend. -/
def Method.unguarded : Method → Bool
  | .tempFile _ _ | .mkdirAll _ _ | .symlink _ _ => true
  | _ => false

/-- A request that mutates. -/
def Request.mutates : Request → Bool
  | .method m => m.mutates
  | _ => false

/-- A request for an unguarded method. -/
def Request.unguarded : Request → Bool
  | .method m => m.unguarded
  | _ => false

section Denied

variable (hdeny : DeniesWrite isPrint now.checked f.lease f.space)

theorem frames_tree_backend {x : Effect GoString B.Tree α} (hx : Effect.Frames id x) (m : Method) :
    Effect.Frames Seam.tree (f.backend m x) :=
  fun s ↦ hx s.tree

/-- A gated method leaves the tree alone if the backend's does. -/
theorem frames_tree_gated {x : Effect GoString B.Tree α} (hx : Effect.Frames id x) (op : Op)
    (path : GoString) (m : Method) : Effect.Frames Seam.tree (f.gated isPrint now op path m x) := by
  intro s
  rcases f.gated_cases op path m x s with ⟨reason, -, h⟩ | ⟨-, h⟩
  · rw [h]
    rfl
  · rw [h]
    exact frames_tree_backend hx m _

include hdeny in
/-- **Denied, a gated method refuses and leaves the tree alone**, whatever the backend would do. -/
theorem gated_write_of_denied {op : Op} (hop : isWrite op = true) (path : GoString) (m : Method)
    (x : Effect GoString B.Tree α) (s : Seam B) :
    ∃ reason, check isPrint now.checked f.lease f.space op path = .error reason ∧
      ((f.gated isPrint now op path m x).run s).1 = .error reason ∧
      ((f.gated isPrint now op path m x).run s).2.tree = s.tree := by
  obtain ⟨reason, hreason⟩ := hdeny.error isPrint hop path
  rcases f.gated_cases op path m x s with ⟨reason', hcheck, h⟩ | ⟨hcheck, -⟩
  · rw [h]
    exact ⟨reason', hcheck, rfl, rfl⟩
  · rw [hreason] at hcheck
    exact absurd hcheck (by simp)

/-- Turning the result of a call into a value does nothing to the tree. -/
theorem frames_tree_value {x : Effect GoString (Seam B) α}
    (hx : Effect.Frames Seam.tree x) {β : Type} (k : α → β) :
    Effect.Frames Seam.tree (x >>= fun a ↦ pure (k a)) :=
  Effect.Frames.bind hx fun _ ↦ Effect.Frames.pure _

include hdeny in
theorem frames_tree_gated_write (path : GoString) (m : Method) (x : Effect GoString B.Tree α) :
    Effect.Frames Seam.tree (f.gated isPrint now opWrite path m x) := fun s ↦ by
  obtain ⟨-, -, -, htree⟩ := gated_write_of_denied hdeny isWrite_opWrite path m x s
  exact htree

/-- A method that does not mutate leaves the tree alone, whatever the lease. -/
theorem frames_tree_exec_of_reads (hB : B.ReadsPurely) {m : Method} (hm : m.mutates = false) :
    Effect.Frames Seam.tree (f.exec isPrint now m) := by
  cases m with
  | open' filename => exact frames_tree_value (frames_tree_gated (hB.open' _ _) _ _ _) _
  | openFile filename flag perm =>
    exact frames_tree_value (frames_tree_gated (hB.openFile _ _ _ _ hm) _ _ _) _
  | stat filename => exact frames_tree_value (frames_tree_gated (hB.stat _ _) _ _ _) _
  | lstat filename => exact frames_tree_value (frames_tree_gated (hB.lstat _ _) _ _ _) _
  | readDir path => exact frames_tree_value (frames_tree_gated (hB.readDir _ _) _ _ _) _
  | chroot path =>
    exact frames_tree_value (frames_tree_value (frames_tree_gated (hB.chroot _ _) _ _ _) _) _
  | readlink link => exact frames_tree_value (frames_tree_backend (hB.readlink _ _) _) _
  | join elem => exact frames_tree_value (frames_tree_backend (Effect.Frames.pure _) _) _
  | root => exact frames_tree_value (frames_tree_backend (Effect.Frames.pure _) _) _
  | _ => exact absurd hm (by simp [Method.mutates])

include hdeny in
/-- **One call, the tree.** Where writing is denied, a method that is not unguarded leaves the tree
alone. -/
theorem frames_tree_exec (hB : B.ReadsPurely) {m : Method} (hm : m.unguarded = false) :
    Effect.Frames Seam.tree (f.exec isPrint now m) := by
  rcases hmut : m.mutates with _ | _
  · exact frames_tree_exec_of_reads hB hmut
  · cases m with
    | create filename => exact frames_tree_value (frames_tree_gated_write hdeny _ _ _) _
    | rename oldpath newpath => exact frames_tree_value (frames_tree_gated_write hdeny _ _ _) _
    | remove filename => exact frames_tree_value (frames_tree_gated_write hdeny _ _ _) _
    | openFile filename flag perm =>
      refine frames_tree_value ?_ _
      rw [InceptionFS.openFile, show asksToWrite flag = true from hmut]
      exact frames_tree_gated_write hdeny _ _ _
    | tempFile dir pre => exact absurd hm (by simp [Method.unguarded])
    | mkdirAll filename perm => exact absurd hm (by simp [Method.unguarded])
    | symlink target link => exact absurd hm (by simp [Method.unguarded])
    | _ => exact absurd hmut (by simp [Method.mutates])

/-- The answer is a refusal of the membrane. -/
def RefusedWrite (isPrint : ℕ → Bool) (now : Time) (lease : Option Lease) (space : GoString)
    (result : Except GoString (Value B)) : Prop :=
  ∃ path reason, check isPrint now lease space opWrite path = .error reason ∧
    result = .error reason

include hdeny in
private theorem refused_gated_write (path : GoString) (m : Method) (x : Effect GoString B.Tree α)
    (k : α → Value B) (s : Seam B) :
    RefusedWrite isPrint now.checked f.lease f.space
      (((f.gated isPrint now opWrite path m x) >>= fun a ↦ pure (k a)).run s).1 := by
  obtain ⟨reason, hcheck, hres, -⟩ := gated_write_of_denied hdeny isWrite_opWrite path m x s
  exact ⟨path, reason, hcheck, Effect.bind_pure_error k hres⟩

include hdeny in
/-- **One call, the answer.** Where writing is denied, a mutating method that is not unguarded is
refused with the membrane's reason. -/
theorem exec_refused {m : Method} (hm : m.unguarded = false) (hmut : m.mutates = true)
    (s : Seam B) :
    RefusedWrite isPrint now.checked f.lease f.space ((f.exec isPrint now m).run s).1 := by
  cases m with
  | create filename => exact refused_gated_write hdeny _ _ _ _ s
  | rename oldpath newpath => exact refused_gated_write hdeny _ _ _ _ s
  | remove filename => exact refused_gated_write hdeny _ _ _ _ s
  | openFile filename flag perm =>
    have hflag : asksToWrite flag = true := hmut
    rw [InceptionFS.exec, InceptionFS.openFile, hflag]
    exact refused_gated_write hdeny _ _ _ _ s
  | tempFile dir pre => exact absurd hm (by simp [Method.unguarded])
  | mkdirAll filename perm => exact absurd hm (by simp [Method.unguarded])
  | symlink target link => exact absurd hm (by simp [Method.unguarded])
  | _ => exact absurd hmut (by simp [Method.mutates])

/-- A `Commit` never touches the tree. -/
theorem frames_tree_commit (purpose : GoString) (answer : Except GoString Version) :
    Effect.Frames Seam.tree (f.commit isPrint now purpose answer) := by
  intro s
  rcases f.commit_cases purpose answer s with
    ⟨-, h⟩ | ⟨-, ⟨reason, -, h⟩ | ⟨-, path, verdict, -, h⟩⟩
  · exact congrArg (fun p ↦ p.2.tree) h
  · exact congrArg (fun p ↦ p.2.tree) h
  · exact congrArg (fun p ↦ p.2.tree) h

include hdeny in
theorem frames_tree_answer (hB : B.ReadsPurely) {r : Request} (hr : r.unguarded = false) :
    Effect.Frames Seam.tree (f.answer isPrint now r) := by
  cases r with
  | method m => exact frames_tree_exec hdeny hB hr
  | withSnapshotter s => exact Effect.Frames.pure _
  | commit purpose answer => exact frames_tree_value (frames_tree_commit purpose answer) _

end Denied

/-! ### The family -/

/-- A file system that a wrapper returns has its space and its lease. -/
theorem answer_fs {r : Request} {s : Seam B} {g : InceptionFS B}
    (h : ((f.answer isPrint now r).run s).1 = .ok (.fs g)) :
    g.space = f.space ∧ g.lease = f.lease := by
  -- Only `Chroot` returns a file system; every other value is made by another constructor.
  have hvalue : ∀ {α : Type} {x : Effect GoString (Seam B) α} {k : α → Value B},
      ((x >>= fun a ↦ pure (k a)).run s).1 = .ok (.fs g) → (∀ a, k a ≠ .fs g) → False := by
    intro α x k hx hk
    obtain ⟨a, -, ha⟩ := Effect.exists_of_bind_pure_ok hx
    exact hk a ha
  cases r with
  | withSnapshotter s => exact absurd (Except.ok.inj h) (by simp)
  | commit purpose answer => exact (hvalue h fun _ ↦ by simp).elim
  | method m =>
    cases m with
    | chroot path =>
      obtain ⟨g', hg', hg⟩ := Effect.exists_of_bind_pure_ok h
      obtain ⟨sub, -, hsub⟩ := Effect.exists_of_bind_pure_ok hg'
      rw [← Value.fs.inj hg, ← hsub]
      exact ⟨rfl, rfl⟩
    | _ => exact (hvalue h fun _ ↦ by simp).elim

/-- The wrappers of a family have one space and one lease. -/
def World.Under (space : GoString) (lease : Option Lease) (w : World B) : Prop :=
  ∀ f ∈ w.mounts, f.space = space ∧ f.lease = lease

theorem World.under_mounted (tree : B.Tree) (fs : B.Fs) (space : GoString)
    (lease : Option Lease) : (World.mounted tree fs space lease).Under space lease := by
  intro f hf
  rw [List.mem_singleton.1 hf]
  exact ⟨rfl, rfl⟩

theorem mem_mountsAfter {ms : List (InceptionFS B)} {i : ℕ} {r : Request}
    {result : Except GoString (Value B)} {g : InceptionFS B}
    (hg : g ∈ World.mountsAfter ms i f r result) :
    g ∈ ms ∨ (∃ s, g = f.withSnapshotter s) ∨ result = .ok (.fs g) := by
  unfold World.mountsAfter at hg
  split at hg
  · rcases List.mem_or_eq_of_mem_set hg with h | h
    · exact Or.inl h
    · exact Or.inr (Or.inl ⟨_, h⟩)
  · rcases List.mem_append.1 hg with h | h
    · exact Or.inl h
    · exact Or.inr (Or.inr (by rw [List.mem_singleton.1 h]))
  · exact Or.inl hg

theorem under_step {space : GoString} {lease : Option Lease} {w : World B}
    (hw : w.Under space lease) (c : Call) :
    ((mount isPrint B).step w c).1.Under space lease := by
  rcases mount_step_cases w c with ⟨-, h⟩ | ⟨f, hf, h⟩
  · rw [h]
    exact hw
  · rw [h]
    intro g hg
    have hfu := hw f (List.mem_of_getElem? hf)
    rcases mem_mountsAfter hg with hg | ⟨s, rfl⟩ | hres
    · exact hw g hg
    · exact hfu
    · obtain ⟨hspace, hlease⟩ := answer_fs hres
      exact ⟨hspace.trans hfu.1, hlease.trans hfu.2⟩

theorem under_after {space : GoString} {lease : Option Lease} {w : World B}
    (hw : w.Under space lease) (calls : List Call) :
    ((mount isPrint B).after w calls).Under space lease :=
  Machine.inv_after hw (fun _ c h ↦ under_step h c) calls

/-- **One step, where writing is denied.** The tree stays, and what would change it is refused. -/
theorem step_of_denied (hB : B.ReadsPurely) {space : GoString} {lease : Option Lease} {w : World B}
    (hw : w.Under space lease) {c : Call}
    (hdeny : DeniesWrite isPrint c.now.checked lease space)
    (hguard : c.request.unguarded = false) :
    ((mount isPrint B).step w c).1.seam.tree = w.seam.tree ∧
      (c.request.mutates = true → ∀ result, ((mount isPrint B).step w c).2 = some result →
        RefusedWrite isPrint c.now.checked lease space result) := by
  rcases mount_step_cases w c with ⟨-, h⟩ | ⟨f, hf, h⟩
  · rw [h]
    exact ⟨rfl, fun _ _ hres ↦ absurd hres (by simp)⟩
  · obtain ⟨hspace, hlease⟩ := hw f (List.mem_of_getElem? hf)
    rw [← hspace, ← hlease] at hdeny ⊢
    rw [h]
    refine ⟨frames_tree_answer hdeny hB hguard w.seam, fun hmut result hres ↦ ?_⟩
    rw [← Option.some.inj hres]
    rcases hreq : c.request with m | _ | _
    · rw [hreq] at hmut hguard
      exact exec_refused hdeny hguard hmut w.seam
    · exact absurd hmut (by simp [hreq, Request.mutates])
    · exact absurd hmut (by simp [hreq, Request.mutates])

/-- **Mutation is mediated where it is gated.** Under a lease for which the membrane denies writing
at every call of a run, and in a run that calls neither `MkdirAll` nor `TempFile` nor `Symlink`, the
backend's tree is at every moment what it was, and every call that would change it is refused with
the membrane's reason, on the mounted file system as on all that `Chroot` made of it. -/
theorem gated_mutation_refused {isPrint : ℕ → Bool} {B : Billy} (hB : B.ReadsPurely)
    (tree : B.Tree) (fs : B.Fs) (space : GoString) (lease : Option Lease) {calls : List Call}
    (hdeny : ∀ c ∈ calls, DeniesWrite isPrint c.now.checked lease space)
    (hguard : ∀ c ∈ calls, c.request.unguarded = false) :
    (∀ earlier, earlier <+: calls →
      ((mount isPrint B).after (World.mounted tree fs space lease) earlier).seam.tree = tree) ∧
    ∀ e ∈ (mount isPrint B).trace (World.mounted tree fs space lease) calls,
      e.1.request.mutates = true →
        ∀ result, e.2 = some result → RefusedWrite isPrint e.1.now.checked lease space result := by
  -- The invariant: the family keeps its lease, and the tree is still the one it was mounted on.
  have hstep : ∀ w : World B, ∀ c ∈ calls, w.Under space lease ∧ w.seam.tree = tree →
      ((mount isPrint B).step w c).1.Under space lease ∧
        ((mount isPrint B).step w c).1.seam.tree = tree := by
    rintro w c hc ⟨hunder, htree⟩
    exact ⟨under_step hunder c, (step_of_denied hB hunder (hdeny c hc) (hguard c hc)).1.trans htree⟩
  constructor
  · intro earlier hearlier
    have hinv : World.Under space lease ((mount isPrint B).after _ earlier) ∧
        ((mount isPrint B).after (World.mounted tree fs space lease) earlier).seam.tree = tree :=
      Machine.inv_after_of_mem (I := fun w ↦ w.Under space lease ∧ w.seam.tree = tree)
        ⟨World.under_mounted tree fs space lease, rfl⟩
        fun w c hc ↦ hstep w c (hearlier.subset hc)
    exact hinv.2
  · refine (Machine.inv_trace_of_mem (M := mount isPrint B) (I := fun w tr ↦
      (w.Under space lease ∧ w.seam.tree = tree) ∧ ∀ e ∈ tr, e.1.request.mutates = true →
        ∀ result, e.2 = some result → RefusedWrite isPrint e.1.now.checked lease space result)
      ⟨⟨World.under_mounted tree fs space lease, rfl⟩, by simp⟩ ?_).2
    rintro w tr c hc ⟨hw, htr⟩
    refine ⟨hstep w c hc hw, fun e he ↦ ?_⟩
    rcases List.mem_append.1 he with he | he
    · exact htr e he
    · rw [List.mem_singleton.1 he]
      exact (step_of_denied hB hw.1 (hdeny c hc) (hguard c hc)).2

/-- A call at a fixed instant. -/
def Call.at (on : ℕ) (m : Method) : Call :=
  ⟨on, .method m, ⟨Time.zero, Time.zero⟩⟩

/-- The lease of a viewer, for the space `demo-space`. -/
def viewer : Lease :=
  readOnlyLease (ascii "viewer".toList) (ascii "demo-space".toList) (ascii "browse".toList)

/-- A run under a read-only lease on a backend in memory: a directory is entered, and creating a
file in it, appending to one and removing it are refused. -/
theorem gated_mutation_refused_viewer :
    let calls := [Call.at 0 (.chroot (ascii "d".toList)), .at 1 (.create (ascii "f".toList)),
      .at 1 (.openFile (ascii "g".toList) oAppend 0), .at 0 (.remove (ascii "d/g".toList))]
    let start := World.mounted (B := Memory.memory)
      [([ascii "d".toList], .dir), ([ascii "d".toList, ascii "g".toList], .file [])] []
      (ascii "demo-space".toList) (some viewer)
    (∀ c ∈ calls, c.request.unguarded = false) ∧
    (∀ earlier, earlier <+: calls →
      ((mount (fun _ ↦ false) Memory.memory).after start earlier).seam.tree = start.seam.tree) ∧
    ∀ e ∈ (mount (fun _ ↦ false) Memory.memory).trace start calls, e.1.request.mutates = true →
      ∀ result, e.2 = some result → RefusedWrite (fun _ ↦ false) e.1.now.checked (some viewer)
        (ascii "demo-space".toList) result := by
  intro calls start
  have hguard : ∀ c ∈ calls, c.request.unguarded = false := by
    simp [calls, Call.at, Request.unguarded, Method.unguarded]
  refine ⟨hguard, gated_mutation_refused Memory.readsPurely _ _ _ _ (fun c _ ↦ ?_) hguard⟩
  refine (deniesWrite_iff _).2 fun l hl ↦ Or.inr (Or.inr ?_)
  rw [← Option.some.inj hl]
  rfl

/-- **A promoted method passes the membrane.** Under the read-only lease, `MkdirAll` is answered
with success and the directory is there. -/
theorem mkdirAll_passes_readOnlyLease :
    let w := (mount (fun _ ↦ false) Memory.memory).step
      (World.mounted (B := Memory.memory) [] [] (ascii "demo-space".toList) (some viewer))
      (.at 0 (.mkdirAll (ascii "d".toList) 0o755))
    DeniesWrite (fun _ ↦ false) Time.zero (some viewer) (ascii "demo-space".toList) ∧
      w.2 = some (.ok .done) ∧ w.1.seam.tree = [([ascii "d".toList], .dir)] ∧
      w.1.seam.tree ≠ [] := by
  refine ⟨(deniesWrite_iff _).2 fun l hl ↦ Or.inr (Or.inr ?_), rfl, rfl, List.cons_ne_nil _ _⟩
  rw [← Option.some.inj hl]
  rfl

/-! ### One receipt per call -/

/-- What a method puts to the membrane, if it does: the class of access and the path. -/
def Method.asks : Method → Option (Op × GoString)
  | .open' filename => some (opRead, filename)
  | .openFile filename flag _ => some (if asksToWrite flag then opWrite else opRead, filename)
  | .create filename => some (opWrite, filename)
  | .readDir path => some (opList, path)
  | .stat filename => some (opStat, filename)
  | .lstat filename => some (opStat, filename)
  | .rename oldpath _ => some (opWrite, oldpath)
  | .remove filename => some (opWrite, filename)
  | .chroot path => some (opList, path)
  | _ => none

/-- What a request puts to the membrane; the governed requests are those that put something. -/
def Request.asks : Request → Option (Op × GoString)
  | .method m => m.asks
  | .commit _ _ => some (opCommit, ascii "/".toList)
  | .withSnapshotter _ => none

/-- A call is accounted for: one receipt more, whose verdict says `deny` exactly when the membrane
denies, and behind the membrane something was reached, once, exactly when it allows. -/
def Accounted (isPrint : ℕ → Bool) (now : Time) (f : InceptionFS B) (op : Op) (path : GoString)
    (s t : Seam B) : Prop :=
  (∃ r, t.receipts.entries = s.receipts.entries ++ [r] ∧
    (ascii "deny".toList <+: r.verdict ↔ check isPrint now f.lease f.space op path ≠ .ok ())) ∧
  (check isPrint now f.lease f.space op path = .ok () → ∃ x, t.reached = s.reached ++ [x]) ∧
  (check isPrint now f.lease f.space op path ≠ .ok () → t.reached = s.reached)

theorem accounted_of_denied {op : Op} {path reason : GoString} {s t : Seam B} {r : Receipt}
    (hcheck : check isPrint now.checked f.lease f.space op path = .error reason)
    (hreceipt : t.receipts.entries = s.receipts.entries ++ [r])
    (hverdict : ascii "deny".toList <+: r.verdict) (hreached : t.reached = s.reached) :
    Accounted isPrint now.checked f op path s t := by
  rw [Accounted, hcheck]
  exact ⟨⟨r, hreceipt, iff_of_true hverdict (by simp)⟩, fun h ↦ absurd h (by simp),
    fun _ ↦ hreached⟩

theorem accounted_of_allowed {op : Op} {path : GoString} {s t : Seam B} {r : Receipt}
    {x : Reached B} (hcheck : check isPrint now.checked f.lease f.space op path = .ok ())
    (hreceipt : t.receipts.entries = s.receipts.entries ++ [r])
    (hverdict : ¬ ascii "deny".toList <+: r.verdict) (hreached : t.reached = s.reached ++ [x]) :
    Accounted isPrint now.checked f op path s t := by
  rw [Accounted, hcheck]
  exact ⟨⟨r, hreceipt, iff_of_false hverdict (by simp)⟩, fun _ ↦ ⟨x, hreached⟩,
    fun h ↦ absurd rfl h⟩

theorem accounted_gated (op : Op) (path : GoString) (m : Method) (x : Effect GoString B.Tree α)
    (s : Seam B) :
    Accounted isPrint now.checked f op path s ((f.gated isPrint now op path m x).run s).2 := by
  rcases f.gated_cases op path m x s with ⟨reason, hcheck, h⟩ | ⟨hcheck, h⟩
  · rw [h]
    exact accounted_of_denied hcheck rfl ⟨ascii ": ".toList ++ reason, rfl⟩ rfl
  · rw [h]
    refine accounted_of_allowed hcheck rfl (fun hpre ↦ ?_) rfl
    exact absurd (List.cons_prefix_cons.1 hpre).1 (by decide)

theorem accounted_exec {m : Method} {op : Op} {path : GoString} (hm : m.asks = some (op, path))
    (s : Seam B) :
    Accounted isPrint now.checked f op path s ((f.exec isPrint now m).run s).2 := by
  cases m with
  | chroot path =>
    obtain ⟨rfl, rfl⟩ := Prod.mk.inj (Option.some.inj hm)
    rw [InceptionFS.exec, Effect.run_bind_pure_snd, InceptionFS.chroot, Effect.run_bind_pure_snd]
    exact accounted_gated _ _ _ _ s
  | join elem => exact absurd hm (by simp [Method.asks])
  | root => exact absurd hm (by simp [Method.asks])
  | tempFile dir pre => exact absurd hm (by simp [Method.asks])
  | mkdirAll filename perm => exact absurd hm (by simp [Method.asks])
  | symlink target link => exact absurd hm (by simp [Method.asks])
  | readlink link => exact absurd hm (by simp [Method.asks])
  | _ =>
    obtain ⟨rfl, rfl⟩ := Prod.mk.inj (Option.some.inj hm)
    rw [InceptionFS.exec, Effect.run_bind_pure_snd]
    exact accounted_gated _ _ _ _ s

/-- **A `Commit` is accounted for exactly when there is a snapshotter.** -/
theorem accounted_commit_iff (purpose : GoString) (answer : Except GoString Version) (s : Seam B) :
    Accounted isPrint now.checked f opCommit (ascii "/".toList) s
      ((f.commit isPrint now purpose answer).run s).2 ↔ f.snap ≠ none := by
  rcases f.commit_cases purpose answer s with
    ⟨hsnap, h⟩ | ⟨⟨snap, hsnap⟩, ⟨reason, hcheck, h⟩ | ⟨hcheck, path, verdict, hverdict, h⟩⟩
  · refine iff_of_false (fun hacc ↦ ?_) (not_not.2 hsnap)
    rw [h] at hacc
    obtain ⟨r, hr, -⟩ := hacc.1
    exact absurd (congrArg List.length hr) (by simp)
  · refine iff_of_true ?_ (by simp [hsnap])
    rw [h]
    exact accounted_of_denied hcheck rfl ⟨ascii ": ".toList ++ reason, rfl⟩ rfl
  · refine iff_of_true ?_ (by simp [hsnap])
    rw [h]
    exact accounted_of_allowed hcheck rfl hverdict rfl

/-- **One truthful receipt per governed call.** In every state a family of wrappers can reach, a
governed call on any of them is accounted for, unless it is a `Commit` on a wrapper that has no
snapshotter: that one returns before it asks the membrane and leaves no receipt. -/
theorem call_accounted_iff (isPrint : ℕ → Bool) (B : Billy) (tree : B.Tree) (fs : B.Fs)
    (space : GoString) (lease : Option Lease) (calls : List Call) {f : InceptionFS B} {c : Call}
    {op : Op} {path : GoString}
    (hf : ((mount isPrint B).after (World.mounted tree fs space lease) calls).mounts[c.on]? =
      some f) (hc : c.request.asks = some (op, path)) :
    f.space = space ∧ f.lease = lease ∧
      (Accounted isPrint c.now.checked f op path
        ((mount isPrint B).after (World.mounted tree fs space lease) calls).seam
        ((mount isPrint B).after (World.mounted tree fs space lease) (calls ++ [c])).seam ↔
      ¬ (f.snap = none ∧ ∃ purpose answer, c.request = .commit purpose answer)) := by
  have hunder : World.Under space lease ((mount isPrint B).after _ calls) :=
    under_after (World.under_mounted tree fs space lease) calls
  obtain ⟨hspace, hlease⟩ := hunder f (List.mem_of_getElem? hf)
  refine ⟨hspace, hlease, ?_⟩
  rw [Machine.after_append, Machine.after_cons, Machine.after_nil]
  rcases @mount_step_cases B isPrint _ c with ⟨hnone, -⟩ | ⟨f', hf', h⟩
  · rw [hf] at hnone
    exact absurd hnone (by simp)
  · obtain rfl : f = f' := Option.some.inj (hf.symm.trans hf')
    rw [h]
    rcases hreq : c.request with m | ⟨purpose, answer⟩ | s
    · rw [hreq] at hc
      exact iff_of_true (accounted_exec hc _) (by simp)
    · rw [hreq] at hc
      obtain ⟨rfl, rfl⟩ := Prod.mk.inj (Option.some.inj hc)
      rw [InceptionFS.answer, Effect.run_bind_pure_snd, accounted_commit_iff]
      simp
    · rw [hreq] at hc
      exact absurd hc (by simp [Request.asks])

/-- The first call under a read-only lease, a file to be created, is accounted for. -/
theorem call_accounted_viewer :
    let start := World.mounted (B := Memory.memory) [] [] (ascii "demo-space".toList) (some viewer)
    Accounted (fun _ ↦ false) Time.zero (.new [] (ascii "demo-space".toList) (some viewer)) opWrite
      (ascii "f".toList) start.seam ((mount (fun _ ↦ false) Memory.memory).after start
        [.at 0 (.create (ascii "f".toList))]).seam := by
  intro start
  refine (@call_accounted_iff (fun _ ↦ false) Memory.memory [] [] (ascii "demo-space".toList)
    (some viewer) [] _ (.at 0 (.create (ascii "f".toList))) _ _ rfl rfl).2.2.2 ?_
  rintro ⟨-, purpose, answer, h⟩
  exact absurd h (by simp [Call.at])

/-- **A `Commit` without a snapshotter leaves no receipt**, neither where the membrane would allow
it nor where it would deny it. -/
theorem commit_without_snapshotter_unaccounted :
    let commit : Call := ⟨0, .commit [] (.error []), ⟨Time.zero, Time.zero⟩⟩
    let log (lease : Lease) := ((mount (fun _ ↦ false) Memory.memory).after
      (World.mounted (B := Memory.memory) [] [] (ascii "demo-space".toList) (some lease))
      [commit]).seam.receipts.entries
    log viewer = [] ∧ log (readWriteLease [] (ascii "demo-space".toList) []) = [] :=
  ⟨rfl, rfl⟩

end SourceOS.Mount
