import SourceOS.Foundation.StableSort
import SourceOS.Mount.DevSnapshot
import SourceOS.Mount.Retention

/-!
# Retention over the portable store

The retainer of `Retention` with `DevSnapshotter` as its store and `DevPruner` as its pruner: the
versions are the directories of the store, a version is as old as its directory, and pruning removes
the directory. `lawful_retainer` says that the two interfaces are kept, so that
`retention_converges` applies.

Retention goes by age, and `Snapshot` does not make a directory younger when it finds it in the
store. So **the version just committed need not be the newest one**: a tree that is changed and
changed back is a version older than the change, and `KeepLast` of one prunes it
(`last_version_pruned`). `last_version_retained` is the run in which this does not happen, because a
version is only found in the store while it is the newest (`Fresh`): then the version last returned
is always the newest directory, and no policy that keeps one prunes it.
-/

namespace SourceOS.Mount

open Go Filepath

/-! ### The store and its pruner -/

namespace Shelf

/-- The directories that are to stay. -/
def keep (s : Shelf) (p : VersionDir → Bool) : Shelf where
  dirs := s.dirs.filter p
  nodup := s.nodup.sublist (List.filter_sublist.map _)
  isName e he := s.isName e (List.mem_filter.1 he).1

/-- The same directories with other files in them. -/
def refill (s : Shelf) (f : VersionDir → Frozen) : Shelf where
  dirs := s.dirs.map fun e ↦ { e with files := f e }
  nodup := by
    rw [List.map_map]
    exact s.nodup
  isName e he := by
    obtain ⟨e', he', rfl⟩ := List.mem_map.1 he
    exact s.isName e' he'

/-- There is a directory of that name and time. -/
def Has (s : Shelf) (name : GoString) (mtime : ℤ) : Prop :=
  ∃ e ∈ s.dirs, e.name = name ∧ e.mtime = mtime

theorem has_of_has_keep {s : Shelf} {p : VersionDir → Bool} {name : GoString} {mtime : ℤ}
    (h : (s.keep p).Has name mtime) : s.Has name mtime := by
  obtain ⟨e, he, hspec⟩ := h
  exact ⟨e, (List.mem_filter.1 he).1, hspec⟩

theorem has_refill_iff {s : Shelf} {f : VersionDir → Frozen} {name : GoString} {mtime : ℤ} :
    (s.refill f).Has name mtime ↔ s.Has name mtime := by
  constructor
  · rintro ⟨e, he, hspec⟩
    obtain ⟨e', he', rfl⟩ := List.mem_map.1 he
    exact ⟨e', he', hspec⟩
  · rintro ⟨e, he, hspec⟩
    exact ⟨_, List.mem_map_of_mem he, hspec⟩

/-- The directory of that name is there, and all others are older. -/
def Newest (s : Shelf) (name : GoString) : Prop :=
  ∃ mtime, s.Has name mtime ∧ ∀ other t, s.Has other t → other ≠ name → t < mtime

end Shelf

/-- The order of `ReadDir`. -/
def ByName (e f : VersionDir) : Prop :=
  e.name ≤ f.name

instance : DecidableRel ByName := fun e f ↦ inferInstanceAs (Decidable (e.name ≤ f.name))

instance : IsTrans VersionDir ByName := ⟨fun _ _ _ h h' ↦ List.le_trans h h'⟩

instance : Std.Total ByName := ⟨fun e f ↦ List.le_total e.name f.name⟩

/-- A call of `Tick`, with what it finds. -/
structure TickCall where
  /-- The time. -/
  now : ℤ
  /-- The policy. -/
  policy : RetentionPolicy
  /-- The bound. -/
  maxPrunePerTick : ℤ
  /-- An error of `List`. -/
  listErr : Option GoString
  /-- An error of removing the directory of a version, with the files that are left in it. -/
  removeErr : Version → Option (GoString × Frozen)

namespace DevSnapshotter

variable (d : DevSnapshotter)

/-- A directory as `List` reports it. -/
def reported (e : VersionDir) : VersionMeta :=
  ⟨d.version e.name, e.mtime⟩

/-- `List`. -/
def list (s : Shelf) : List VersionMeta :=
  (s.dirs.insertionSort ByName).map d.reported

/-- The retainer over the store, with `DevPruner`. -/
def retainer (t : TickCall) : Retainer Shelf where
  list := fun s ↦
    match t.listErr with
    | some err => (.error err, s)
    | none => (.ok (d.list s), s)
  policy := t.policy
  prune v := fun s ↦
    match t.removeErr v with
    | some (err, left) =>
      (.error err, s.refill fun e ↦ if join d.store e.name = v.ref then left else e.files)
    | none => (.ok (), s.keep fun e ↦ join d.store e.name ≠ v.ref)
  maxPrunePerTick := t.maxPrunePerTick

variable {d}

theorem mem_list_iff {s : Shelf} {v : VersionMeta} :
    v ∈ d.list s ↔ ∃ e ∈ s.dirs, d.reported e = v := by
  rw [list, List.mem_map]
  simp only [(List.perm_insertionSort ByName s.dirs).mem_iff]

/-- Different directories are different versions. -/
theorem distinct_list (s : Shelf) : Distinct (d.list s) := by
  rw [Distinct, list, List.map_map]
  refine (((List.perm_insertionSort ByName s.dirs).map _).nodup_iff).2 ?_
  refine List.Nodup.of_map Version.id ?_
  rw [List.map_map]
  exact s.nodup

/-- The path of a version in the store is that of its directory and of no other. -/
theorem join_eq_ref_iff {s : Shelf} {e e' : VersionDir} (he : e ∈ s.dirs) (he' : e' ∈ s.dirs) :
    join d.store e.name = (d.reported e').version.ref ↔
      (d.reported e).version = (d.reported e').version := by
  constructor
  · intro h
    have hname : e.name = e'.name := join_inj (s.isName e he) (s.isName e' he') h
    rw [reported, reported, hname]
  · intro h
    exact congrArg Version.ref h

/-- **The interfaces are kept** when nothing goes wrong. -/
theorem lawful_retainer {t : TickCall} (hlist : t.listErr = none)
    (hremove : ∀ v, t.removeErr v = none) : (d.retainer t).Lawful d.list where
  list_ok s := by simp [retainer, Effect.run, hlist]
  list_held s := by simp [retainer, Effect.run, hlist]
  prune_ok s v _ := by simp [retainer, Effect.run, hremove]
  prune_held s v hv := by
    obtain ⟨e, he, rfl⟩ := mem_list_iff.1 hv
    have hrun : (((d.retainer t).prune (d.reported e).version).run s).2 =
        s.keep fun x ↦ join d.store x.name ≠ (d.reported e).version.ref := by
      simp [retainer, Effect.run, hremove]
    rw [hrun, list, list, List.filter_map, Shelf.keep, insertionSort_filter]
    congr 1
    refine List.filter_congr fun x hx ↦ ?_
    have hx' : x ∈ s.dirs := (List.perm_insertionSort ByName s.dirs).mem_iff.1 hx
    exact decide_eq_decide.2 (not_congr (join_eq_ref_iff hx' he))

/-! ### Runs -/

/-- What happens to a store. -/
inductive Event where
  /-- A call of `Snapshot`. -/
  | snapshot (c : SnapshotCall)
  /-- A call of `Tick`. -/
  | tick (t : TickCall)

/-- When it happens. -/
def Event.time : Event → ℤ
  | .snapshot c => c.now
  | .tick t => t.now

/-- What is answered. -/
inductive Answer where
  /-- By `Snapshot`. -/
  | version (r : Except GoString Version)
  /-- By `Tick`. -/
  | pruned (r : Pruned)

/-- The version that an answer returns. -/
def Answer.version? : Answer → Option Version
  | .version (.ok v) => some v
  | _ => none

variable (d) in
/-- A store with snapshots and ticks in any order. -/
def retained : Machine Shelf Event Answer where
  step s a :=
    match a with
    | .snapshot c => ((d.snapshot c).run s |>.2, .version ((d.snapshot c).run s |>.1))
    | .tick t => (((d.retainer t).tick t.now s).2, .pruned ((d.retainer t).tick t.now s).1)

/-- The version returned by the most recent successful `Snapshot`. -/
def lastVersion (trace : List (Event × Answer)) : Option Version :=
  (trace.filterMap fun x ↦ x.2.version?).getLast?

end DevSnapshotter

/-- What a call of `Snapshot` finds when it hashes the tree: a version that is stored is the newest
one, and a copy that is made does not break off after it has made the directory. -/
def SnapshotCall.Fresh (c : SnapshotCall) (s : Shelf) : Prop :=
  c.hashErr = none →
    (hashTree c.tree ∈ s.names → s.Newest (hashTree c.tree)) ∧
      (hashTree c.tree ∉ s.names → c.Unbroken)

namespace DevSnapshotter

variable {d : DevSnapshotter}

/-- **Pruning one version** makes no directory, and leaves every other one. -/
theorem has_prune {t : TickCall} {v : Version} {s : Shelf} {name : GoString} {mtime : ℤ} :
    ((((d.retainer t).prune v).run s).2.Has name mtime → s.Has name mtime) ∧
    (join d.store name ≠ v.ref → s.Has name mtime →
      (((d.retainer t).prune v).run s).2.Has name mtime) := by
  rcases hremove : t.removeErr v with _ | ⟨err, left⟩
  · have hrun : (((d.retainer t).prune v).run s).2 =
        s.keep fun e ↦ join d.store e.name ≠ v.ref := by
      simp [retainer, Effect.run, hremove]
    rw [hrun]
    refine ⟨Shelf.has_of_has_keep, ?_⟩
    rintro hne ⟨e, he, rfl, rfl⟩
    exact ⟨e, List.mem_filter.2 ⟨he, decide_eq_true hne⟩, rfl, rfl⟩
  · have hrun : (((d.retainer t).prune v).run s).2 =
        s.refill fun e ↦ if join d.store e.name = v.ref then left else e.files := by
      simp [retainer, Effect.run, hremove]
    rw [hrun, Shelf.has_refill_iff]
    exact ⟨id, fun _ h ↦ h⟩

theorem list_run {t : TickCall} {s : Shelf} : ((d.retainer t).list.run s).2 = s ∧
    ∀ vs, ((d.retainer t).list.run s).1 = .ok vs → vs = d.list s := by
  rcases hlist : t.listErr with _ | err
  · simp [retainer, Effect.run, hlist, eq_comm]
  · simp [retainer, Effect.run, hlist]

/-- A tick makes no directory. -/
theorem has_of_has_tick {t : TickCall} {s : Shelf} {name : GoString} {mtime : ℤ}
    (h : ((d.retainer t).tick t.now s).2.Has name mtime) : s.Has name mtime := by
  revert h
  refine Retainer.tick_induction (P := fun u : Shelf ↦ u.Has name mtime → s.Has name mtime) ?_ ?_
  · rw [list_run.1]
    exact id
  · intro vs _ v _ u hu h
    exact hu (has_prune.1 h)

/-- **A tick leaves the newest directory**, and it stays the newest. -/
theorem newest_tick {t : TickCall} (ht : 0 < t.policy.keepLast) {s : Shelf} {name : GoString}
    (h : s.Newest name) : ((d.retainer t).tick t.now s).2.Newest name := by
  obtain ⟨mtime, hhas, hnewest⟩ := h
  obtain ⟨e, he, rfl, rfl⟩ := hhas
  refine ⟨e.mtime, ?_, fun other x hx ↦ hnewest other x (has_of_has_tick hx)⟩
  refine Retainer.tick_induction (P := fun u : Shelf ↦ u.Has e.name e.mtime) ?_ ?_
  · rw [list_run.1]
    exact ⟨e, he, rfl, rfl⟩
  · intro vs hvs v hv u hu
    obtain rfl := list_run.2 vs hvs
    -- What is pruned is the version of another directory.
    have hkept :=
      @RetentionPolicy.notMem_prune_of_newest t.policy t.now (d.list s) (d.reported e) ht
      (distinct_list s) (mem_list_iff.2 ⟨e, he, rfl⟩) (by
        intro w hw hne
        obtain ⟨e', he', rfl⟩ := mem_list_iff.1 hw
        refine hnewest e'.name e'.mtime ⟨e', he', rfl, rfl⟩ fun hname ↦ hne ?_
        rw [Shelf.eq_of_name_eq he' he hname])
    have hmem : v ∈ d.list s :=
      (RetentionPolicy.perm_plan _).mem_iff.1 (List.mem_append_right _ hv)
    obtain ⟨e', he', rfl⟩ := mem_list_iff.1 hmem
    refine has_prune.2 (fun hjoin ↦ hkept ?_) hu
    rw [(join_eq_ref_iff he he').1 hjoin]
    exact List.mem_map_of_mem hv

/-- A snapshot makes at most the directory of its tree, at that moment. -/
theorem has_of_has_snapshot {c : SnapshotCall} {s : Shelf} {name : GoString} {mtime : ℤ}
    (h : ((d.snapshot c).run s).2.Has name mtime) :
    s.Has name mtime ∨ name = hashTree c.tree ∧ mtime = c.now := by
  obtain ⟨e, he, rfl, rfl⟩ := h
  rcases mem_dirs_of_mem_snapshot he with he | ⟨hname, hmtime, -⟩
  · exact Or.inl ⟨e, he, rfl, rfl⟩
  · exact Or.inr ⟨hname, hmtime⟩

/-- **A fresh snapshot.** What it returns is the newest directory then; and if it returns nothing,
it has made no directory. -/
theorem newest_snapshot {c : SnapshotCall} {s : Shelf} (hfresh : c.Fresh s)
    (htime : ∀ name mtime, s.Has name mtime → mtime < c.now) :
    (∃ name, ((d.snapshot c).run s).1 = .ok (d.version name) ∧
      ((d.snapshot c).run s).2.Newest name) ∨
    ∃ err, (d.snapshot c).run s = (.error err, s) := by
  rcases hhash : c.hashErr with _ | err
  · obtain ⟨hstored, hcopied⟩ := hfresh hhash
    rcases @snapshot_cases d c s with h | ⟨hmem, h⟩ | ⟨_, h⟩ | ⟨hmem, _, _, hleaves, h⟩
    · exact Or.inr h
    · rw [h]
      exact Or.inl ⟨_, rfl, hstored hmem⟩
    · refine Or.inl ⟨hashTree c.tree, by rw [h], c.now, ?_, fun other x hx hne ↦ ?_⟩
      · rw [h]
        exact ⟨_, List.mem_cons_self, rfl, rfl⟩
      · exact htime other x ((has_of_has_snapshot hx).resolve_right fun hnew ↦ hne hnew.1)
    · exact absurd hleaves (hcopied hmem).not_leaves
  · refine Or.inr ⟨ascii "hash tree: ".toList ++ err, ?_⟩
    simp only [Effect.run, snapshot, hhash]

theorem lastVersion_concat (trace : List (Event × Answer)) (a : Event) (r : Answer) :
    lastVersion (trace ++ [(a, r)]) = (r.version?).or (lastVersion trace) := by
  rw [lastVersion, lastVersion, List.filterMap_append]
  rcases hr : r.version? with _ | v
  · simp [hr]
  · simp [hr]

variable (d) in
/-- What a run keeps: every directory is as old as some event, and the last version is the newest
directory. -/
structure Current (events : List Event) (s : Shelf) (trace : List (Event × Answer)) : Prop where
  /-- The ages. -/
  times : ∀ name mtime, s.Has name mtime → mtime ∈ events.map Event.time
  /-- The last version. -/
  newest : ∀ v, lastVersion trace = some v → ∃ name, v = d.version name ∧ s.Newest name

theorem current_empty : Current d [] .empty [] where
  times _ _ h := absurd h.choose_spec.1 List.not_mem_nil
  newest _ h := nomatch h

theorem Current.snapshot {events : List Event} {s : Shelf} {trace : List (Event × Answer)}
    (h : Current d events s trace) {c : SnapshotCall} (hfresh : c.Fresh s)
    (htime : ∀ time ∈ events.map Event.time, time < c.now) :
    Current d (events ++ [.snapshot c]) ((d.snapshot c).run s).2
      (trace ++ [(.snapshot c, .version ((d.snapshot c).run s).1)]) where
  times name mtime hhas := by
    rw [List.map_append, List.mem_append]
    rcases has_of_has_snapshot hhas with hhas | ⟨-, rfl⟩
    · exact Or.inl (h.times name mtime hhas)
    · exact Or.inr List.mem_cons_self
  newest v hv := by
    rw [lastVersion_concat] at hv
    have hbefore : ∀ name mtime, s.Has name mtime → mtime < c.now :=
      fun name mtime hhas ↦ htime mtime (h.times name mtime hhas)
    rcases @newest_snapshot d c s hfresh hbefore with ⟨name, hok, hnewest⟩ | ⟨err, herr⟩
    · rw [hok] at hv
      exact ⟨name, (Option.some.inj hv).symm, hnewest⟩
    · rw [herr] at hv ⊢
      exact h.newest v hv

theorem Current.tick {events : List Event} {s : Shelf} {trace : List (Event × Answer)}
    (h : Current d events s trace) {t : TickCall} (ht : 1 ≤ t.policy.keepLast) (r : Pruned) :
    Current d (events ++ [.tick t]) ((d.retainer t).tick t.now s).2
      (trace ++ [(.tick t, .pruned r)]) where
  times name mtime hhas := by
    rw [List.map_append, List.mem_append]
    exact Or.inl (h.times name mtime (has_of_has_tick hhas))
  newest v hv := by
    rw [lastVersion_concat] at hv
    obtain ⟨name, rfl, hnewest⟩ := h.newest v hv
    exact ⟨name, rfl, newest_tick ht hnewest⟩

end DevSnapshotter

open DevSnapshotter in
/-- **The version last committed is kept.** In a run at increasing times, with policies that keep at
least one version, in which every snapshot is fresh, the version that the most recent successful
snapshot has returned is in the store. -/
theorem last_version_retained (d : DevSnapshotter) (events : List Event)
    (htimes : (events.map Event.time).Pairwise (· < ·))
    (hkeep : ∀ t, .tick t ∈ events → 1 ≤ t.policy.keepLast)
    (hfresh : ∀ pre c, pre ++ [.snapshot c] <+: events → c.Fresh (d.retained.after .empty pre))
    (v : Version) (hv : lastVersion (d.retained.trace .empty events) = some v) :
    ∃ e, d.treeAt (d.retained.after .empty events) v.ref = some e ∧ e.name = v.id := by
  have hcurrent : Current d events (d.retained.after .empty events)
      (d.retained.trace .empty events) := by
    refine Machine.inv_trace_of_prefix (I := Current d) current_empty fun pre a hpre h ↦ ?_
    cases a with
    | snapshot c =>
      refine h.snapshot (hfresh pre c hpre) fun time htime ↦ ?_
      have hpairs := htimes.sublist (hpre.sublist.map Event.time)
      rw [List.map_append, List.pairwise_append] at hpairs
      exact hpairs.2.2 time htime c.now List.mem_cons_self
    | tick t => exact h.tick (hkeep t (hpre.subset (by simp))) _
  obtain ⟨name, rfl, mtime, ⟨e, he, rfl, -⟩, -⟩ := hcurrent.newest v hv
  exact ⟨e, treeAt_version he, rfl⟩

/-- A tick in which nothing goes wrong, that keeps one version. -/
def keepOne (now : ℤ) : TickCall :=
  ⟨now, ⟨1, 0⟩, 0, none, fun _ ↦ none⟩

/-- A tree without files. -/
def noFiles : WorkTree where
  walk := []
  nodup := List.nodup_nil
  isRel _ h := absurd h List.not_mem_nil

section Decidable

open DevSnapshotter

instance (s : Shelf) (name : GoString) : Decidable (s.Newest name) :=
  decidable_of_iff
    (∃ e ∈ s.dirs, e.name = name ∧ ∀ x ∈ s.dirs, x.name ≠ name → x.mtime < e.mtime) <| by
    constructor
    · rintro ⟨e, he, rfl, hnewest⟩
      refine ⟨e.mtime, ⟨e, he, rfl, rfl⟩, ?_⟩
      rintro other t ⟨x, hx, rfl, rfl⟩ hne
      exact hnewest x hx hne
    · rintro ⟨mtime, ⟨e, he, rfl, rfl⟩, hnewest⟩
      exact ⟨e, he, rfl, fun x hx hne ↦ hnewest _ _ ⟨x, hx, rfl, rfl⟩ hne⟩

instance (c : SnapshotCall) : Decidable c.Unbroken :=
  match h : c.fault with
  | none => .isTrue fun _ _ _ hfault ↦ nomatch h.symm.trans hfault
  | some (.start, _) => .isTrue fun _ _ _ hfault ↦ nomatch h.symm.trans hfault
  | some (.item done written, err) => .isFalse fun hunbroken ↦ hunbroken done written err h

instance (c : SnapshotCall) (s : Shelf) : Decidable (c.Fresh s) :=
  inferInstanceAs (Decidable (_ → _))

/-- A step that is fresh if it is a snapshot. -/
def DevSnapshotter.Event.Fresh (s : Shelf) : Event → Prop
  | .snapshot c => c.Fresh s
  | .tick _ => True

instance (s : Shelf) : (a : Event) → Decidable (a.Fresh s)
  | .snapshot c => inferInstanceAs (Decidable (c.Fresh s))
  | .tick _ => .isTrue trivial

end Decidable

open DevSnapshotter in
/-- Two trees and a tick. The second tree is committed again while its version is the newest, and
the tick prunes the version of the first one. -/
theorem last_version_retained_tick :
    let events : List Event := [.snapshot (.plain twoFiles 1), .snapshot (.plain noFiles 2),
      .snapshot (.plain noFiles 3), .tick (keepOne 4)]
    (∃ e, devSnapshotter.treeAt (devSnapshotter.retained.after .empty events)
        (devSnapshotter.version (hashTree noFiles)).ref = some e ∧
      e.name = hashTree noFiles) ∧
      devSnapshotter.treeAt (devSnapshotter.retained.after .empty events)
        (devSnapshotter.version (hashTree twoFiles)).ref = none := by
  intro events
  have hfresh : devSnapshotter.retained.Along (fun s a ↦ a.Fresh s) .empty events := by
    decide +kernel
  have hkeep : ∀ t, .tick t ∈ events → 1 ≤ t.policy.keepLast := by
    intro t ht
    have hall : ∀ a ∈ events, ∀ t, a = .tick t → 1 ≤ t.policy.keepLast := by
      simp [events, keepOne]
    exact hall _ ht t rfl
  refine ⟨last_version_retained devSnapshotter events (by decide) hkeep
    (fun pre c hpre ↦ hfresh.of_prefix hpre) (devSnapshotter.version (hashTree noFiles)) ?_, ?_⟩
  · decide +kernel
  · decide +kernel

open DevSnapshotter in
/-- **The version just committed is pruned.** A tree is committed, changed, and changed back; the
last commit finds the first version in the store, and the tick takes it for the older one of two. -/
theorem last_version_pruned :
    let events : List Event := [.snapshot (.plain twoFiles 1), .snapshot (.plain noFiles 2),
      .snapshot (.plain twoFiles 3), .tick (keepOne 4)]
    lastVersion (devSnapshotter.retained.trace .empty events) =
        some (devSnapshotter.version (hashTree twoFiles)) ∧
      devSnapshotter.treeAt (devSnapshotter.retained.after .empty events)
        (devSnapshotter.version (hashTree twoFiles)).ref = none := by
  decide +kernel

end SourceOS.Mount
