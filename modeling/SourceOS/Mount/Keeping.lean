import SourceOS.Mount.DevRetention
import SourceOS.Mount.PruneReport

/-!
# Committing and pruning at the same time

A store in use: snapshots and ticks of the retainer in any order, with any policies.

* **Versions go when it is said** (`returned_version_until_reported`). A version that a `Snapshot`
  returns has the files of its tree, and has them as long as it is there; and it is there until a
  tick reports it. So the lists that the ticks return are all that has gone.
* **The store stays bounded** (`store_stays_bounded`). If between two ticks no more versions are
  committed than a tick may prune, the store does not outgrow the policy, or what it held at the
  beginning; and once it is that small, each tick leaves exactly the newest ones.
* **Versions are kept for their time** (`frozen_version_kept`). A version that a `Snapshot` freezes
  is in the store, with the files of its tree, as long as each tick keeps versions of its age, or
  more versions than there were snapshots since, or all.

The first result holds for listings that fail; what it asks is that a copy, once begun, is finished,
and that a directory is removed as a whole. Otherwise a part of a tree is left under its name. The
last one holds whatever fails.
-/

namespace SourceOS.Mount

open Go Filepath Sha256

/-- Directories are removed as a whole. -/
def TickCall.Removes (t : TickCall) : Prop :=
  ∀ v, t.removeErr v = none

namespace DevSnapshotter

variable {d : DevSnapshotter}

/-! ### One tick -/

/-- A call of `Prune`: the directory is removed, or something is left in it. -/
theorem prune_run (t : TickCall) (v : Version) (s : Shelf) :
    (t.removeErr v = none → ((d.retainer t).prune v).run s =
        (.ok (), s.keep fun x ↦ join d.store x.name ≠ v.ref)) ∧
      ∀ err left, t.removeErr v = some (err, left) → ((d.retainer t).prune v).run s =
        (.error err, s.refill fun x ↦ if join d.store x.name = v.ref then left else x.files) := by
  constructor
  · intro hremove
    simp [retainer, Effect.run, hremove]
  · intro err left hremove
    simp [retainer, Effect.run, hremove]

/-- The versions of a plan are those of names. -/
def OfNames (d : DevSnapshotter) (plan : List VersionMeta) : Prop :=
  ∀ v ∈ plan, ∃ name, IsName name ∧ v.version = d.version name

/-- **What `Apply` leaves** are the directories whose versions it does not return. -/
theorem mem_dirs_apply_iff {t : TickCall} (ht : t.Removes) {plan : List VersionMeta}
    (hplan : d.OfNames plan) {s : Shelf} {e : VersionDir} :
    e ∈ (apply (d.retainer t).prune plan s).2.dirs ↔
      e ∈ s.dirs ∧ d.version e.name ∉ (apply (d.retainer t).prune plan s).1.done := by
  induction plan generalizing s with
  | nil => exact ⟨fun he ↦ ⟨he, List.not_mem_nil⟩, And.left⟩
  | cons v plan ih =>
    obtain ⟨⟨name, hname, hv⟩, hrest⟩ := List.forall_mem_cons.1 hplan
    have hrun := (prune_run (d := d) t v.version s).1 (ht v.version)
    have hiff : ∀ {x : VersionDir}, x ∈ s.dirs →
        (join d.store x.name = v.version.ref ↔ d.version x.name = v.version) := by
      intro x hx
      rw [hv]
      constructor
      · intro hjoin
        rw [join_inj (s.isName x hx) hname hjoin]
      · intro heq
        exact congrArg Version.ref heq
    rw [apply, hrun]
    dsimp only
    rw [ih hrest, List.mem_cons, not_or]
    constructor
    · rintro ⟨he, hnot⟩
      obtain ⟨he, hkept⟩ := List.mem_filter.1 he
      exact ⟨he, fun heq ↦ of_decide_eq_true hkept ((hiff he).2 heq), hnot⟩
    · rintro ⟨he, hne, hnot⟩
      exact ⟨List.mem_filter.2 ⟨he, decide_eq_true fun hjoin ↦ hne ((hiff he).1 hjoin)⟩, hnot⟩

/-- **What a tick leaves** are the directories whose versions it does not report. -/
theorem mem_dirs_tick_iff {t : TickCall} (ht : t.Removes) {s : Shelf} {e : VersionDir} :
    e ∈ ((d.retainer t).tick t.now s).2.dirs ↔
      e ∈ s.dirs ∧ d.version e.name ∉ ((d.retainer t).tick t.now s).1.done := by
  rcases hlist : t.listErr with _ | err
  · have hrun : (d.retainer t).list.run s = (.ok (d.list s), s) := by
      simp [retainer, Effect.run, hlist]
    rw [Retainer.tick_eq_apply_due hrun]
    refine mem_dirs_apply_iff ht fun v hv ↦ ?_
    have hmem : v ∈ d.list s :=
      (RetentionPolicy.perm_plan _).mem_iff.1 (List.mem_append_right _ (List.mem_of_mem_take hv))
    obtain ⟨e', he', rfl⟩ := mem_list_iff.1 hmem
    exact ⟨e'.name, s.isName e' he', rfl⟩
  · have hrun : (d.retainer t).list.run s = (.error err, s) := by
      simp [retainer, Effect.run, hlist]
    rw [Retainer.tick, hrun]
    exact ⟨fun he ↦ ⟨he, List.not_mem_nil⟩, And.left⟩

/-! ### Runs -/

/-- What a run needs: a copy, once begun, is finished, and directories are removed as a whole. -/
def Whole (events : List Event) : Prop :=
  (∀ x, .snapshot x ∈ events → x.Unbroken) ∧ ∀ t, .tick t ∈ events → t.Removes

/-- Every directory has the files of a tree that was committed. -/
def Filled (events : List Event) (s : Shelf) : Prop :=
  ∀ e ∈ s.dirs, ∃ x, .snapshot x ∈ events ∧ e.name = hashTree x.tree ∧ e.files = x.tree.frozen

theorem filled_after {events : List Event} (h : Whole events) :
    Filled events (d.retained.after .empty events) := by
  refine Machine.inv_after_of_mem (fun e he ↦ absurd he List.not_mem_nil) fun s a ha hs e he ↦ ?_
  cases a with
  | snapshot c =>
    rcases mem_dirs_of_mem_snapshot (d := d) he with he | ⟨hname, -, hfiles⟩
    · exact hs e he
    · exact ⟨c, ha, hname, hfiles.resolve_right (h.1 c ha).not_leaves⟩
  | tick t => exact hs e ((mem_dirs_tick_iff (h.2 t ha)).1 he).1

/-- The versions that the ticks of a run report. -/
def reportedBy (trace : List (Event × Answer)) : List Version :=
  trace.flatMap fun x ↦
    match x.2 with
    | .pruned r => r.done
    | .version _ => []

/-- **A directory is there until its version is reported.** -/
theorem mem_dirs_after_of_not_reported {events : List Event} (h : Whole events) {s : Shelf}
    {e : VersionDir} (he : e ∈ s.dirs)
    (hnot : d.version e.name ∉ reportedBy (d.retained.trace s events)) :
    e ∈ (d.retained.after s events).dirs := by
  induction events generalizing s with
  | nil => exact he
  | cons a events ih =>
    have hrest : Whole events :=
      ⟨fun x hx ↦ h.1 x (List.mem_cons_of_mem _ hx), fun t ht ↦ h.2 t (List.mem_cons_of_mem _ ht)⟩
    rw [Machine.trace_cons, reportedBy, List.flatMap_cons, List.mem_append, not_or] at hnot
    refine ih hrest ?_ hnot.2
    cases a with
    | snapshot c => exact mem_dirs_snapshot he
    | tick t => exact (mem_dirs_tick_iff (h.2 t List.mem_cons_self)).2 ⟨he, hnot.1⟩

/-- What is at the path of a version is the directory of its name. -/
theorem name_of_treeAt {s : Shelf} {name : GoString} (hname : IsName name) {e : VersionDir}
    (h : d.treeAt s (d.version name).ref = some e) : e ∈ s.dirs ∧ e.name = name := by
  have he : e ∈ s.dirs := List.mem_of_find?_eq_some h
  have hfound : decide (join d.store e.name = join d.store name) = true := by
    have hfirst := List.find?_some h
    exact hfirst
  have hjoin := of_decide_eq_true hfound
  exact ⟨he, join_inj (s.isName e he) hname hjoin⟩

end DevSnapshotter

open DevSnapshotter in
/-- **A returned version is there, complete, until a tick reports it.** Take any run of snapshots
and ticks before a `Snapshot`, and any after it, in which copies that are begun are finished and
directories are removed as a whole; listings may fail. What the snapshot returns has the files of
the working tree. As long as no later tick reports the version it stays as it is; whenever something
is at its path, it has these files; and right after a tick that reports it, nothing is. -/
theorem returned_version_until_reported (d : DevSnapshotter) (events later : List Event)
    (c : SnapshotCall) (hwhole : Whole (events ++ .snapshot c :: later))
    (hsum : Set.InjOn sum256
      {t | ∃ x, .snapshot x ∈ events ++ .snapshot c :: later ∧ t ∈ x.tree.hashed})
    (hnames : ∀ x, .snapshot x ∈ events ++ .snapshot c :: later →
      ∀ f ∈ x.tree.files, newline ∉ f.rel) (v : Version)
    (hv : ((d.snapshot c).run (d.retained.after .empty events)).1 = .ok v) :
    let s := d.retained.after .empty (events ++ [.snapshot c])
    ∃ e, d.treeAt s v.ref = some e ∧ e.files.Perm c.tree.frozen ∧
      (v ∉ reportedBy (d.retained.trace s later) →
        d.treeAt (d.retained.after s later) v.ref = some e) ∧
      (∀ e', d.treeAt (d.retained.after s later) v.ref = some e' →
        e'.files.Perm c.tree.frozen) ∧
      ∀ t, t.Removes → v ∈ ((d.retainer t).tick t.now (d.retained.after s later)).1.done →
        d.treeAt (d.retained.after s (later ++ [.tick t])) v.ref = none := by
  intro s
  obtain ⟨rfl, e, he, hname, -⟩ := exists_dir_of_ok hv
  have hs : s = ((d.snapshot c).run (d.retained.after .empty events)).2 := by
    show d.retained.after .empty (events ++ [.snapshot c]) = _
    rw [Machine.after_append]
    rfl
  have hsplit : (events ++ [.snapshot c]) ++ later = events ++ .snapshot c :: later := by
    rw [List.append_assoc, List.singleton_append]
  have hsub : ∀ a ∈ events ++ [Event.snapshot c], a ∈ events ++ .snapshot c :: later := by
    intro a ha
    rw [← hsplit]
    exact List.mem_append_left _ ha
  have hcmem : .snapshot c ∈ events ++ .snapshot c :: later := by simp
  -- a directory of that name has the files of the tree
  have hfiles : ∀ {run : List Event}, (∀ a ∈ run, a ∈ events ++ .snapshot c :: later) →
      ∀ {x : VersionDir}, x ∈ (d.retained.after .empty run).dirs → x.name = hashTree c.tree →
        x.files.Perm c.tree.frozen := by
    intro run hrun x hx hxname
    have hwholeRun : Whole run :=
      ⟨fun y hy ↦ hwhole.1 y (hrun _ hy), fun t ht ↦ hwhole.2 t (hrun _ ht)⟩
    obtain ⟨y, hy, hyname, hyfiles⟩ := filled_after (d := d) hwholeRun x hx
    rw [hyfiles]
    refine List.Perm.map _ (perm_files_of_newline_notMem (hsum.mono ?_) (hnames y (hrun _ hy))
      (hnames c hcmem) (hyname.symm.trans hxname))
    rintro t (ht | ht)
    · exact ⟨y, hrun _ hy, ht⟩
    · exact ⟨c, hcmem, ht⟩
  have hafter : d.retained.after s later =
      d.retained.after .empty (events ++ .snapshot c :: later) := by
    rw [← hsplit, Machine.after_append]
  have hes : e ∈ s.dirs := hs ▸ he
  have hwholeLater : Whole later := by
    rw [← hsplit] at hwhole
    exact ⟨fun x hx ↦ hwhole.1 x (List.mem_append_right _ hx),
      fun t ht ↦ hwhole.2 t (List.mem_append_right _ ht)⟩
  rw [← hname]
  refine ⟨e, treeAt_version hes, hfiles hsub hes hname, fun hnot ↦ ?_, fun e' he' ↦ ?_,
    fun t ht hdone ↦ ?_⟩
  · exact treeAt_version (mem_dirs_after_of_not_reported hwholeLater hes hnot)
  · rw [hafter] at he'
    obtain ⟨hmem, hname'⟩ := name_of_treeAt (hname ▸ isName_hashTree c.tree) he'
    exact hfiles (fun _ ha ↦ ha) hmem (hname'.trans hname)
  · rw [Machine.after_append]
    rcases hfind : d.treeAt (d.retained.after (d.retained.after s later) [.tick t])
        (d.version e.name).ref with _ | x
    · rfl
    · obtain ⟨hx, hxname⟩ := name_of_treeAt (hname ▸ isName_hashTree c.tree) hfind
      have hleft := ((mem_dirs_tick_iff ht).1 hx).2
      rw [hxname] at hleft
      exact absurd hdone hleft

open DevSnapshotter in
/-- A tree committed, committed again as it is walked the other way round, and a tick. -/
theorem returned_version_until_reported_twice :
    ∃ e : VersionDir, e.files.Perm twoFiles.frozen ∧
      ∀ e', devSnapshotter.treeAt (devSnapshotter.retained.after .empty
        [.snapshot (.plain twoFiles 1), .snapshot (.plain twoFilesBack 2), .tick (keepOne 3)])
          (devSnapshotter.version (hashTree twoFiles)).ref = some e' →
        e'.files.Perm twoFiles.frozen := by
  have hwhole : Whole ([] ++ .snapshot (.plain twoFiles 1) ::
      [.snapshot (.plain twoFilesBack 2), .tick (keepOne 3)]) := by
    constructor
    · intro x hx done written err
      have hx : x = .plain twoFiles 1 ∨ x = .plain twoFilesBack 2 := by simpa using hx
      rcases hx with rfl | rfl
      · exact (Option.some_ne_none _).symm
      · exact (Option.some_ne_none _).symm
    · intro t ht v
      have ht : t = keepOne 3 := by simpa using ht
      rw [ht]
      rfl
  have htree : ∀ x, .snapshot x ∈ [] ++ Event.snapshot (.plain twoFiles 1) ::
      [.snapshot (.plain twoFilesBack 2), .tick (keepOne 3)] →
        x.tree = twoFiles ∨ x.tree = twoFilesBack := by
    intro x hx
    have hx : x = .plain twoFiles 1 ∨ x = .plain twoFilesBack 2 := by simpa using hx
    exact hx.imp (congrArg SnapshotCall.tree) (congrArg SnapshotCall.tree)
  have hsum : Set.InjOn sum256 {t | ∃ x, .snapshot x ∈ [] ++ Event.snapshot (.plain twoFiles 1) ::
      [.snapshot (.plain twoFilesBack 2), .tick (keepOne 3)] ∧ t ∈ x.tree.hashed} := by
    refine injOn_twoFiles ?_
    rintro t ⟨x, hx, ht⟩
    rcases htree x hx with h | h
    · rw [h] at ht
      exact ht
    · rw [h] at ht
      exact mem_hashed_of_twoFilesBack ht
  have hnames : ∀ x, .snapshot x ∈ [] ++ Event.snapshot (.plain twoFiles 1) ::
      [.snapshot (.plain twoFilesBack 2), .tick (keepOne 3)] →
        ∀ f ∈ x.tree.files, newline ∉ f.rel := by
    intro x hx
    rcases htree x hx with h | h
    · rw [h]
      decide
    · rw [h]
      decide
  have hreturned : ((devSnapshotter.snapshot (.plain twoFiles 1)).run
      (devSnapshotter.retained.after .empty [])).1 =
        .ok (devSnapshotter.version (hashTree twoFiles)) :=
    devSnapshotter.snapshot_plain twoFiles 1 .empty
  obtain ⟨e, -, he, -, hlater, -⟩ := returned_version_until_reported devSnapshotter []
    [.snapshot (.plain twoFilesBack 2), .tick (keepOne 3)] (.plain twoFiles 1) hwhole hsum hnames
    (devSnapshotter.version (hashTree twoFiles)) hreturned
  refine ⟨e, he, ?_⟩
  intro e' he'
  refine hlater e' ?_
  rw [← Machine.after_append]
  exact he'

/-! ### How long a version is kept -/

namespace DevSnapshotter

variable {d : DevSnapshotter}

end DevSnapshotter

/-- The policy of a tick keeps all versions, or more of them than so many, or those that are as old
as one of that time. -/
def TickCall.Spares (t : TickCall) (frozen : ℤ) (n : ℕ) : Prop :=
  (t.policy.keepLast = 0 ∧ t.policy.keepSince = 0) ∨ (n : ℤ) < t.policy.keepLast ∨
    (0 < t.policy.keepSince ∧ sub t.now frozen ≤ t.policy.keepSince)

theorem TickCall.Spares.keeps {t : TickCall} {frozen : ℤ} {n : ℕ} (h : t.Spares frozen n)
    {v : VersionMeta} (hv : v.created = frozen) : t.policy.keeps t.now n v = true := by
  subst hv
  simp only [RetentionPolicy.keeps, Bool.or_eq_true, Bool.and_eq_true, beq_iff_eq,
    decide_eq_true_eq]
  rcases h with h | h | h
  · exact Or.inl (Or.inl h)
  · exact Or.inl (Or.inr ⟨by omega, h⟩)
  · exact Or.inr h

/-- Some commits, and then a tick. -/
structure Round where
  commits : List SnapshotCall
  tick : TickCall

/-- What happens in a round. -/
def Round.events (r : Round) : List DevSnapshotter.Event :=
  r.commits.map .snapshot ++ [.tick r.tick]

/-- A tick that keeps the newest `k` versions and prunes up to `m`, and in which nothing fails. -/
structure TickCall.Keeps (t : TickCall) (k m : ℕ) : Prop where
  policy : t.policy = ⟨k, 0⟩
  bound : t.maxPrunePerTick = m
  listErr : t.listErr = none
  removes : t.Removes

/-- **How many versions a plan keeps** that goes by number only. -/
theorem RetentionPolicy.length_keep {k : ℕ} (hk : 0 < k) (now : ℤ) (vs : List VersionMeta) :
    (plan ⟨k, 0⟩ now vs).1.length = min k vs.length := by
  have hlen : (sorted vs).length = vs.length := List.length_insertionSort _ _
  have hiff : ∀ i, i < vs.length → (i < (plan ⟨k, 0⟩ now vs).1.length ↔ i < k) := by
    intro i hi
    refine (lt_length_split_iff (pairwise_sorted vs) (hlen ▸ hi)).trans ?_
    have hk' : ((k : ℤ) == 0) = false := by
      rw [beq_eq_false_iff_ne]
      omega
    simp [keeps, hk', hk]
  have hle : (plan ⟨k, 0⟩ now vs).1.length ≤ vs.length := by
    have hperm := (@perm_plan ⟨k, 0⟩ now vs).length_eq
    rw [List.length_append] at hperm
    omega
  rcases Nat.lt_or_ge k vs.length with hlt | hge
  · have hcut := hiff k hlt
    rcases Nat.lt_or_ge 0 k with _ | h
    · have hbelow := hiff (k - 1) (by omega)
      omega
    · omega
  · rcases Nat.eq_zero_or_pos vs.length with h0 | hpos
    · omega
    · have hlast := hiff (vs.length - 1) (by omega)
      omega

namespace DevSnapshotter

variable {d : DevSnapshotter}

theorem length_list (s : Shelf) : (d.list s).length = s.dirs.length := by
  rw [list, List.length_map, List.length_insertionSort]

/-- A snapshot makes one directory at the most. -/
theorem length_dirs_snapshot (c : SnapshotCall) (s : Shelf) :
    ((d.snapshot c).run s).2.dirs.length ≤ s.dirs.length + 1 := by
  rcases @snapshot_cases d c s with ⟨_, h⟩ | ⟨-, h⟩ | ⟨_, h⟩ | ⟨_, _, _, -, h⟩
  · rw [h]
    exact Nat.le_succ _
  · rw [h]
    exact Nat.le_succ _
  · rw [h]
    exact le_rfl
  · rw [h]
    exact le_rfl

theorem length_dirs_snapshots (cs : List SnapshotCall) (s : Shelf) :
    (d.retained.after s (cs.map .snapshot)).dirs.length ≤ s.dirs.length + cs.length := by
  induction cs generalizing s with
  | nil => exact le_rfl
  | cons c cs ih =>
    have hone := @length_dirs_snapshot d c s
    have hrest := ih ((d.snapshot c).run s).2
    rw [List.map_cons, Machine.after_cons, List.length_cons]
    exact hrest.trans (by omega)

/-- **What a tick leaves**: the versions that the plan keeps, and what is too much for one tick. -/
theorem perm_list_tick {t : TickCall} {k m : ℕ} (ht : t.Keeps k m) (hm : 0 < m) (s : Shelf) :
    (d.list ((d.retainer t).tick t.now s).2).Perm
      ((RetentionPolicy.plan ⟨k, 0⟩ t.now (d.list s)).1 ++
        (RetentionPolicy.plan ⟨k, 0⟩ t.now (d.list s)).2.drop m) := by
  have hbatch : (d.retainer t).batch t.now (d.list s) = m := by
    have hbound : (d.retainer t).maxPrunePerTick = m := ht.bound
    rw [Retainer.batch, hbound, if_pos (by omega)]
    rfl
  have hpolicy : (d.retainer t).policy = ⟨k, 0⟩ := ht.policy
  obtain ⟨-, hheld⟩ := @Retainer.tick_of_lawful _ _ t.now _
    (lawful_retainer (d := d) ht.listErr ht.removes) _ (distinct_list s)
  rw [hbatch, hpolicy] at hheld
  rw [hheld]
  have hperm := @RetentionPolicy.perm_plan ⟨k, 0⟩ t.now (d.list s)
  rw [← List.take_append_drop m (RetentionPolicy.plan ⟨k, 0⟩ t.now (d.list s)).2,
    ← List.append_assoc] at hperm
  have hdistinct : Distinct _ := (hperm.map VersionMeta.version).nodup_iff.2 (distinct_list s)
  refine (hperm.symm.filter _).trans ?_
  exact List.Perm.of_eq (without_of_append hdistinct)

/-- A round does not make the store outgrow the policy, or what it was. -/
theorem length_dirs_round {r : Round} {k m : ℕ} (hr : r.commits.length ≤ m ∧ r.tick.Keeps k m)
    (hk : 0 < k) (hm : 0 < m) (s : Shelf) :
    (d.retained.after s r.events).dirs.length ≤ max k s.dirs.length := by
  rw [Round.events, Machine.after_append]
  set before := d.retained.after s (r.commits.map .snapshot)
  have hbefore : before.dirs.length ≤ s.dirs.length + m :=
    (length_dirs_snapshots r.commits s).trans (by omega)
  have hafter := (perm_list_tick (d := d) hr.2 hm before).length_eq
  have hplan := (@RetentionPolicy.perm_plan ⟨k, 0⟩ r.tick.now
    (d.list before)).length_eq
  rw [List.length_append, RetentionPolicy.length_keep hk, length_list] at hplan
  rw [List.length_append, RetentionPolicy.length_keep hk, length_list, length_list,
    List.length_drop] at hafter
  show ((d.retainer r.tick).tick r.tick.now before).2.dirs.length ≤ _
  omega

end DevSnapshotter

open DevSnapshotter in
/-- **The store stays bounded.** If ticks prune up to `m` versions and there are no more than `m`
commits between two of them, whatever is committed and whatever fails in committing, the store does
not come to hold more than the `k` versions of the policy after a tick, or what it held at the
beginning. And if it held no more than `k` then, each tick leaves the newest `k` and nothing
else. -/
theorem store_stays_bounded (d : DevSnapshotter) {k m : ℕ} (hk : 0 < k) (hm : 0 < m)
    (rounds : List Round) (hrounds : ∀ r ∈ rounds, r.commits.length ≤ m ∧ r.tick.Keeps k m)
    (s : Shelf) :
    (d.retained.after s (rounds.flatMap Round.events)).dirs.length ≤ max k s.dirs.length ∧
      (s.dirs.length ≤ k → ∀ earlier r later, rounds = earlier ++ r :: later →
        let before := d.retained.after s (earlier.flatMap Round.events ++ r.commits.map .snapshot)
        (d.list (d.retained.after before [.tick r.tick])).Perm
          ((sorted (d.list before)).take k)) := by
  have hall : ∀ (rs : List Round), (∀ r ∈ rs, r.commits.length ≤ m ∧ r.tick.Keeps k m) →
      ∀ s : Shelf, (d.retained.after s (rs.flatMap Round.events)).dirs.length ≤
        max k s.dirs.length := by
    intro rs hrs s
    induction rs generalizing s with
    | nil => exact le_max_right _ _
    | cons r rs ih =>
      obtain ⟨hr, hrs⟩ := List.forall_mem_cons.1 hrs
      rw [List.flatMap_cons, Machine.after_append]
      have hround := length_dirs_round (d := d) hr hk hm s
      have hrest := ih hrs (d.retained.after s r.events)
      omega
  refine ⟨hall rounds hrounds s, ?_⟩
  intro hs earlier r later hsplit before
  subst hsplit
  have hr := hrounds r (by simp)
  have hearlier := hall earlier (fun x hx ↦ hrounds x (List.mem_append_left _ hx)) s
  have hbefore : before.dirs.length ≤ k + m := by
    show (d.retained.after s (_ ++ _)).dirs.length ≤ _
    rw [Machine.after_append]
    have hcommits := length_dirs_snapshots (d := d) r.commits
      (d.retained.after s (earlier.flatMap Round.events))
    omega
  have hplan := @RetentionPolicy.plan_append ⟨k, 0⟩ r.tick.now (d.list before)
  have hkeep := RetentionPolicy.length_keep hk r.tick.now (d.list before)
  have hlen := congrArg List.length hplan
  rw [List.length_append, sorted, List.length_insertionSort, length_list] at hlen
  rw [length_list] at hkeep
  refine (perm_list_tick hr.2 hm before).trans (List.Perm.of_eq ?_)
  rw [List.drop_eq_nil_of_le (by omega), List.append_nil, ← hplan]
  rcases Nat.lt_or_ge before.dirs.length k with hlt | hge
  · have hnil : (RetentionPolicy.plan ⟨k, 0⟩ r.tick.now (d.list before)).2 = [] :=
      List.length_eq_zero_iff.1 (by omega)
    rw [hnil, List.append_nil, List.take_of_length_le (by omega)]
  · rw [List.take_append_of_le_length (by omega), List.take_of_length_le (by omega)]

/-- A tick that keeps one version and prunes one. -/
def pruneOne (now : ℤ) : TickCall :=
  { keepOne now with maxPrunePerTick := 1 }

/-- One version after two rounds of a commit and a tick each. -/
theorem store_stays_bounded_twice :
    (devSnapshotter.retained.after .empty ([(⟨[.plain twoFiles 1], pruneOne 2⟩ : Round),
      ⟨[.plain noFiles 3], pruneOne 4⟩].flatMap Round.events)).dirs.length ≤ 1 := by
  have hkeeps : ∀ now, (pruneOne now).Keeps 1 1 := fun _ ↦ ⟨rfl, rfl, rfl, fun _ ↦ rfl⟩
  have hrounds : ∀ r ∈ [(⟨[.plain twoFiles 1], pruneOne 2⟩ : Round),
      ⟨[.plain noFiles 3], pruneOne 4⟩], r.commits.length ≤ 1 ∧ r.tick.Keeps 1 1 := by
    intro r hr
    rcases List.mem_pair.1 hr with rfl | rfl
    · exact ⟨le_rfl, hkeeps 2⟩
    · exact ⟨le_rfl, hkeeps 4⟩
  exact (store_stays_bounded devSnapshotter Nat.one_pos Nat.one_pos _ hrounds .empty).1

end SourceOS.Mount
