import SourceOS.Truth.Tick

/-!
# The records of the truth plane

The four programs that write into one store root: the surface emitter, the delta emitter, the
incident emitter, and the tick. Each derives the directory of a record from a plane, or from the
name of an event, and from a time stamp without its colons and hyphens, and writes the record there
whatever the directory holds.

A stamp may be any text, so it may lead anywhere: `walk` follows its names from a directory, up at
`..`. What a call writes, and where, is a matter of its arguments, its clock, and whether the
operating system lets it write (`Emit.records`); but for a tick's delta, which may be missing. A
file that is opened to be written is emptied first, so a write that breaks off leaves no record
where there may have been one.

**Records are kept** in every run of which no two calls have different records for one path
(`records_kept`). Where the stamps are plain names, as those of the clock are, this is a matter of
the kind of record, the plane or event and the stamp (`Slot.place_eq_iff`, `apart_of_short`): two
events of one kind within one second are enough for the first to be lost (`incident_overwritten`).
-/

namespace SourceOS.Truth

open Text Json

/-! ### Incidents -/

/-- The events of an incident. -/
inductive EventName
  | freeze
  | fork
  | kill
deriving DecidableEq

/-- The name of an event. -/
def EventName.text : EventName → Str
  | .freeze => "incident.freeze".toList
  | .fork => "incident.fork".toList
  | .kill => "incident.kill".toList

theorem EventName.text_injective : Function.Injective EventName.text := by
  intro x y
  cases x <;> cases y <;> decide

/-- The states of an event. -/
inductive EventStatus
  | requested
  | running
  | succeeded
  | failed
  | denied
  | archived

/-- The name of a state. -/
def EventStatus.text : EventStatus → Str
  | .requested => "requested".toList
  | .running => "running".toList
  | .succeeded => "succeeded".toList
  | .failed => "failed".toList
  | .denied => "denied".toList
  | .archived => "archived".toList

/-- Who acts. -/
inductive ActorKind
  | human
  | agent
  | service
  | scheduler

/-- The name of a kind of actor. -/
def ActorKind.text : ActorKind → Str
  | .human => "human".toList
  | .agent => "agent".toList
  | .service => "service".toList
  | .scheduler => "scheduler".toList

/-- The arguments of `sourceos_incident.py`. -/
structure IncidentArgs where
  eventName : EventName
  status : EventStatus
  eventId : Option Str
  occurredAt : Option Str
  actorKind : ActorKind
  actorId : Str
  runId : Option Str
  traceId : Option Str
  spanId : Option Str
  attempt : ℤ
  truthSurfaceRef : Option Str
  deltaSurfaceRef : Option Str
  evidenceBundleRef : Option Str
  cairnBeforeRef : Option Str
  cairnAfterRef : Option Str

/-- What a call reads besides its arguments. -/
structure IncidentHost where
  /-- `time.gmtime()`. -/
  now : StructTime
  /-- `uuid.uuid4().hex`, for the event. -/
  uuid : Str
  /-- `uuid.uuid4().hex`, for the run. -/
  runUuid : Str

section Incident

variable (a : IncidentArgs) (host : IncidentHost)

/-- The identifier of an event. -/
def incidentId : Str :=
  orDefault a.eventId ("evt_".toList ++ host.uuid)

/-- When an event occurred, as it says. -/
def incidentOccurredAt : Str :=
  orDefault a.occurredAt host.now.isoformat

/-- The references that are given. -/
def incidentRefs : Dict :=
  [("truth_surface_ref".toList, optional a.truthSurfaceRef),
    ("delta_surface_ref".toList, optional a.deltaSurfaceRef),
    ("evidence_bundle_ref".toList, optional a.evidenceBundleRef),
    ("cairn_before_ref".toList, optional a.cairnBeforeRef),
    ("cairn_after_ref".toList, optional a.cairnAfterRef)].filter fun m ↦ !(m.2 matches .null)

/-- The run an event belongs to, if one is named. -/
def incidentRun : Dict :=
  if orDefault a.runId [] = [] ∧ orDefault a.traceId [] = [] ∧ orDefault a.spanId [] = [] then []
  else [("run".toList, .obj
    [("run_id".toList, .str (orDefault a.runId ("run_".toList ++ host.runUuid))),
      ("trace_id".toList, optional a.traceId), ("span_id".toList, optional a.spanId),
      ("attempt".toList, .int a.attempt)])]

/-- The event that `main` of `sourceos_incident.py` emits. -/
def buildIncident : Dict :=
  [("event_id".toList, .str (incidentId a host)), ("event_name".toList, .str a.eventName.text),
    ("occurred_at".toList, .str (incidentOccurredAt a host)),
    ("actor".toList, .obj [("kind".toList, .str a.actorKind.text), ("id".toList, .str a.actorId)]),
    ("status".toList, .str a.status.text), ("refs".toList, .obj (incidentRefs a)),
    ("payload".toList, .obj [("notes".toList,
      .str "v0 event-only emitter; system actions not yet wired".toList)])] ++ incidentRun a host

end Incident

/-- The identifier of a delta. -/
def deltaId (a : DeltaArgs) (uuid : Str) : Str :=
  orDefault a.id ("urn:srcos:delta-surface:".toList ++ uuid)

/-- The identifier of a record. -/
def recordId (doc : Dict) : Option Json :=
  (doc.lookup "id".toList).or (doc.lookup "event_id".toList)

/-! ### Paths -/

/-- A path from the root of the file system, name by name. -/
abbrev Path := List Str

/-- One name further: `..` goes up, and no name and `.` stay. -/
def enter (dir : Path) (c : Str) : Path :=
  if c = [] ∨ c = ".".toList then dir
  else if c = "..".toList then dir.dropLast
  else dir ++ [c]

/-- Where names lead. -/
def walk (names : List Str) : Path :=
  names.foldl enter []

/-- A name that a directory can have. -/
def IsPlain (c : Str) : Prop :=
  c ≠ [] ∧ c ≠ ".".toList ∧ c ≠ "..".toList ∧ '/' ∉ c

instance (c : Str) : Decidable (IsPlain c) :=
  inferInstanceAs (Decidable (_ ∧ _ ∧ _ ∧ _))

/-- A store root, as a path that needs no resolving. -/
structure StoreRoot where
  path : Path
  plain : ∀ c ∈ path, IsPlain c

/-- The names of `base / stamp`: an absolute path replaces the base. -/
def joinStamp (base : Path) (stamp : Str) : List Str :=
  if stamp.head? = some '/' then stamp.splitOn '/' else base ++ stamp.splitOn '/'

/-- The planes. -/
inductive Plane
  | systemSealed
  | userControlled
  | agentOpen
  | witnessTwin
deriving DecidableEq

/-- The name of a plane. -/
def Plane.text : Plane → Str
  | .systemSealed => "system.sealed".toList
  | .userControlled => "user.controlled".toList
  | .agentOpen => "agent.open".toList
  | .witnessTwin => "witness.twin".toList

theorem Plane.text_injective : Function.Injective Plane.text := by
  intro x y
  cases x <;> cases y <;> decide

/-- The kind of a record with its plane, or the name of its event, and its time stamp as it is
given. -/
inductive Slot
  | surface (plane : Plane) (stamp : Str)
  | delta (plane : Plane) (stamp : Str)
  | incident (event : EventName) (stamp : Str)
deriving DecidableEq

namespace Slot

variable (root : StoreRoot)

/-- The directory with the directories of such records. -/
def base : Slot → Path
  | .surface plane _ => root.path ++ ["truth".toList, "surfaces".toList, plane.text]
  | .delta plane _ => root.path ++ ["truth".toList, "deltas".toList, plane.text]
  | .incident event _ => root.path ++ ["incidents".toList, event.text]

/-- The time stamp. -/
def stamp : Slot → Str
  | .surface _ s | .delta _ s | .incident _ s => s

/-- The name of the file. -/
def fileName : Slot → Str
  | .surface _ _ => "truth-surface.json".toList
  | .delta _ _ => "delta-surface.json".toList
  | .incident _ _ => "incident-event.json".toList

/-- The names of the record's directory. -/
def names (slot : Slot) : List Str :=
  joinStamp (slot.base root) (compact slot.stamp)

/-- The path of the record. -/
def place (slot : Slot) : Path :=
  walk (slot.names root) ++ [slot.fileName]

end Slot

/-- The path is in the directory of the operators' pointer. -/
def InLatest (root : StoreRoot) (p : Path) : Prop :=
  ∃ plane, (Slot.surface plane []).base root ++ [latest] <+: p

/-! ### The store -/

/-- What is in a file: a record, or the part of one that was written, which no program can read. -/
inductive Content
  | record (doc : Dict)
  | torn

/-- A store root: the files by their paths, and the directories that were made. -/
structure RecordStore where
  files : Path → Option Content
  dirs : List Path

/-- A store root that is empty. -/
def RecordStore.empty : RecordStore :=
  ⟨fun _ ↦ none, []⟩

/-- Where the operating system makes a write fail. -/
inductive Failure
  /-- A directory is not made. -/
  | mkdir
  /-- The file is not opened. -/
  | opening
  /-- The file is opened and gets a part of the record. -/
  | partway
  /-- The file gets all but the newline. -/
  | newline
deriving DecidableEq

/-- Whether the file is opened, and so emptied. -/
def opens : Option Failure → Bool
  | some .mkdir | some .opening => false
  | _ => true

/-- What a file that is opened is left with. -/
def contentOf (failure : Option Failure) (doc : Dict) : Content :=
  if failure = some .partway then .torn else .record doc

/-- `_write_json`, with whether it returns: the directories up to the record's are made, and the
record is written over what is there. A file in place of a directory and a directory in place of the
file make it raise, and so may the operating system. -/
def RecordStore.write (st : RecordStore) (failure : Option Failure) (names : List Str)
    (fileName : Str) (doc : Dict) : Bool × RecordStore :=
  let made := names.inits.map walk
  if failure = some .mkdir ∨ ∃ d ∈ made, (st.files d).isSome = true then (false, st)
  else
    let st := { st with dirs := st.dirs ++ made }
    let place := walk names ++ [fileName]
    if failure = some .opening ∨ place ∈ st.dirs then (false, st)
    else (failure.isNone,
      { st with files := Function.update st.files place (some (contentOf failure doc)) })

/-- `_list_surface_dirs`: the names of the directories in a directory, sorted. -/
def RecordStore.listDirs (st : RecordStore) (base : Path) : List Str :=
  (st.dirs.filterMap fun d ↦ if d.dropLast = base then d.getLast? else none).dedup.insertionSort
    (· ≤ ·)

/-- `_latest_two_surfaces`, and reading the two; `none` where reading raises. -/
def RecordStore.latestTwo (st : RecordStore) (base : Path) : Option (Option (Dict × Dict)) :=
  match (st.listDirs base).reverse with
  | b :: a :: _ =>
    let pa := base ++ [a, "truth-surface.json".toList]
    let pb := base ++ [b, "truth-surface.json".toList]
    match st.files pa, st.files pb with
    | some (.record fromTs), some (.record toTs) => some (some (fromTs, toTs))
    | fromTs, toTs =>
      if (fromTs.isSome = true ∨ pa ∈ st.dirs) ∧ (toTs.isSome = true ∨ pb ∈ st.dirs) then none
      else some none
  | _ => some none

/-! ### The programs -/

/-- Where a tick is made to fail: at the initialisation of the store, or at one of its writes. -/
structure TickFailure where
  init : Bool
  surface : Option Failure
  delta : Option Failure
  pointer : Option Failure

/-- A tick that nothing makes fail. -/
def TickFailure.none : TickFailure :=
  ⟨false, Option.none, Option.none, Option.none⟩

/-- One call of one of the four programs, with `--store-root`. -/
inductive Emit
  /-- `sourceos_truth_surface.py`. -/
  | surface (plane : Plane) (a : SurfaceArgs) (host : Host) (failure : Option Failure)
  /-- `sourceos_delta_surface.py`, with the two surfaces it reads. -/
  | delta (fromTs toTs : Dict) (a : DeltaArgs) (uuid : Str) (now : StructTime)
    (failure : Option Failure)
  /-- `sourceos_incident.py`. -/
  | incident (a : IncidentArgs) (host : IncidentHost) (failure : Option Failure)
  /-- `sourceos_truth_plane_tick.py`. -/
  | tick (plane : Plane) (i : TickInput) (failure : TickFailure)

section Programs

variable (lower : Str → Str) (rt : Runtime) (root : StoreRoot)

/-- A record written at the place of its slot. -/
def RecordStore.emit (st : RecordStore) (failure : Option Failure) (slot : Slot) (doc : Dict) :
    Bool × RecordStore :=
  st.write failure (slot.names root) slot.fileName doc

/-- The pointer for operators. -/
def RecordStore.point (st : RecordStore) (failure : Option Failure) (plane : Plane) (doc : Dict) :
    RecordStore :=
  (st.write failure ((Slot.surface plane []).base root ++ [latest])
    "truth-surface.json".toList doc).2

/-- The delta that a tick writes: whether the tick goes on. -/
def RecordStore.emitDelta (st : RecordStore) (failure : Option Failure) (plane : Plane)
    (i : TickInput) : Bool × RecordStore :=
  match st.latestTwo ((Slot.surface plane []).base root) with
  | none => (false, st)
  | some none => (true, st)
  | some (some (fromTs, toTs)) =>
    match buildDelta rt fromTs toTs (deltaArgs lower i) i.deltaUuid i.deltaNow with
    | none => (false, st)
    | some delta => st.emit root failure (.delta plane i.deltaNow.isoformat) delta

/-- The four programs on one store root. -/
def programs : Machine RecordStore Emit Unit where
  step st c := (·, ()) <|
    match c with
    | .surface plane a host failure =>
      (st.emit root failure (.surface plane (surfaceCreatedAt a host))
        (buildSurface { a with plane := plane.text } host)).2
    | .delta fromTs toTs a uuid now failure =>
      match buildDelta rt fromTs toTs a uuid now with
      | none => st
      | some delta =>
        (st.emit root failure (.delta .systemSealed (orDefault a.createdAt now.isoformat)) delta).2
    | .incident a host failure =>
      (st.emit root failure (.incident a.eventName (incidentOccurredAt a host))
        (buildIncident a host)).2
    | .tick plane i failure =>
      if failure.init = true then st
      else
        match st.emit root failure.surface (.surface plane i.host.now.isoformat)
            (surfaceOf lower plane.text i) with
        | (false, st) => st
        | (true, st) =>
          match st.emitDelta lower rt root failure.delta plane i with
          | (false, st) => st
          | (true, st) => st.point root failure.pointer plane (surfaceOf lower plane.text i)

/-- The record of a write that opens its file: where, and with which identifier. -/
def recordOf (failure : Option Failure) (slot : Slot) (id : Str) : List (Slot × Str) :=
  if opens failure then [(slot, id)] else []

/-- The records that a call may write. -/
def Emit.records : Emit → List (Slot × Str)
  | .surface plane a host failure =>
    recordOf failure (.surface plane (surfaceCreatedAt a host)) (surfaceId a host)
  | .delta fromTs toTs a uuid now failure =>
    match buildDelta rt fromTs toTs a uuid now with
    | none => []
    | some _ =>
      recordOf failure (.delta .systemSealed (orDefault a.createdAt now.isoformat))
        (deltaId a uuid)
  | .incident a host failure =>
    recordOf failure (.incident a.eventName (incidentOccurredAt a host)) (incidentId a host)
  | .tick plane i failure =>
    if failure.init = true then []
    else
      recordOf failure.surface (.surface plane i.host.now.isoformat) (idOf lower plane.text i) ++
        if failure.surface = none then
          recordOf failure.delta (.delta plane i.deltaNow.isoformat)
            (deltaId (deltaArgs lower i) i.deltaUuid)
        else []

/-- A write of the call breaks off. -/
def Emit.BreaksOff : Emit → Prop
  | .surface _ _ _ failure | .delta _ _ _ _ _ failure | .incident _ _ failure =>
    failure = some .partway
  | .tick _ _ failure => failure.surface = some .partway ∨ failure.delta = some .partway

/-- Two calls have no different records for one path outside the pointer's directory. -/
def Apart (c c' : Emit) : Prop :=
  ∀ r ∈ c.records lower rt, ∀ r' ∈ c'.records lower rt, r.1.place root = r'.1.place root →
    InLatest root (r.1.place root) ∨ r.2 = r'.2

end Programs

/-! ### Plain names -/

theorem enter_of_isPlain {c : Str} (hc : IsPlain c) (dir : Path) : enter dir c = dir ++ [c] := by
  rw [enter, if_neg (not_or.2 ⟨hc.1, hc.2.1⟩), if_neg hc.2.2.1]

/-- Plain names are gone through one by one. -/
theorem walk_append_of_isPlain {cs : List Str} (h : ∀ c ∈ cs, IsPlain c) (names : List Str) :
    walk (names ++ cs) = walk names ++ cs := by
  induction cs using List.reverseRecOn with
  | nil => rw [List.append_nil, List.append_nil]
  | append_singleton cs c ih =>
    rw [← List.append_assoc, walk, List.foldl_concat, ← walk,
      ih fun d hd ↦ h d (List.mem_append_left _ hd),
      enter_of_isPlain (h c (List.mem_append_right _ (List.mem_singleton_self c))),
      List.append_assoc]

theorem walk_of_isPlain {cs : List Str} (h : ∀ c ∈ cs, IsPlain c) : walk cs = cs := by
  have happend := walk_append_of_isPlain h []
  rwa [List.nil_append] at happend

/-- The directory of a kind of records is made of plain names. -/
theorem Slot.isPlain_base (slot : Slot) (root : StoreRoot) : ∀ c ∈ slot.base root, IsPlain c := by
  have hplane : ∀ plane : Plane, IsPlain plane.text := by
    rintro (_ | _ | _ | _) <;> decide
  have hevent : ∀ event : EventName, IsPlain event.text := by
    rintro (_ | _ | _) <;> decide
  intro c hc
  cases slot with
  | surface plane s =>
    simp only [base, List.mem_append, List.mem_cons, List.not_mem_nil, or_false] at hc
    rcases hc with hc | rfl | rfl | rfl
    exacts [root.plain c hc, by decide, by decide, hplane plane]
  | delta plane s =>
    simp only [base, List.mem_append, List.mem_cons, List.not_mem_nil, or_false] at hc
    rcases hc with hc | rfl | rfl | rfl
    exacts [root.plain c hc, by decide, by decide, hplane plane]
  | incident event s =>
    simp only [base, List.mem_append, List.mem_cons, List.not_mem_nil, or_false] at hc
    rcases hc with hc | rfl | rfl
    exacts [root.plain c hc, by decide, hevent event]

/-- A record whose stamp is a plain name is in the directory of that name. -/
theorem Slot.place_of_isPlain {slot : Slot} (root : StoreRoot) (h : IsPlain (compact slot.stamp)) :
    slot.place root = slot.base root ++ [compact slot.stamp, slot.fileName] := by
  have hhead : (compact slot.stamp).head? ≠ some '/' := fun hhead ↦
    h.2.2.2 (List.mem_of_mem_head? hhead)
  have hnames : slot.names root = slot.base root ++ [compact slot.stamp] := by
    rw [names, joinStamp, if_neg hhead, List.splitOn_eq_singleton h.2.2.2]
  rw [place, hnames, walk_append_of_isPlain (by simpa using h),
    walk_of_isPlain (slot.isPlain_base root), List.append_assoc]
  rfl

/-- Events are not where the pointer is. -/
theorem not_inLatest_incident {event : EventName} {stamp : Str} (root : StoreRoot)
    (h : IsPlain (compact stamp)) : ¬ InLatest root ((Slot.incident event stamp).place root) := by
  rintro ⟨plane, hle⟩
  rw [@Slot.place_of_isPlain (.incident event stamp) root h, Slot.base, Slot.base,
    List.append_assoc, List.append_assoc, List.prefix_append_right_inj] at hle
  have hne : "truth".toList ≠ "incidents".toList := by decide
  exact hne (List.cons_prefix_cons.1 hle).1

/-- The kind, the plane or event, and the stamp without colons and hyphens. -/
def Slot.short : Slot → Slot
  | .surface plane s => .surface plane (compact s)
  | .delta plane s => .delta plane (compact s)
  | .incident event s => .incident event (compact s)

/-- The record's path is told by these three. -/
theorem Slot.place_short {slot : Slot} (root : StoreRoot) (h : IsPlain (compact slot.stamp)) :
    slot.place root = slot.short.base root ++ [slot.short.stamp, slot.short.fileName] := by
  rw [place_of_isPlain root h]
  cases slot with
  | surface | delta | incident => rfl

private theorem surface_ne_delta : "truth-surface.json".toList ≠ "delta-surface.json".toList := by
  decide

private theorem surface_ne_incident :
    "truth-surface.json".toList ≠ "incident-event.json".toList := by
  decide

private theorem delta_ne_incident :
    "delta-surface.json".toList ≠ "incident-event.json".toList := by
  decide

/-- The name of the file tells the kind, and the base the plane or the event. -/
theorem Slot.eq_of_base {slot slot' : Slot} {root : StoreRoot}
    (hbase : slot.base root = slot'.base root) (hstamp : slot.stamp = slot'.stamp)
    (hfile : slot.fileName = slot'.fileName) : slot = slot' := by
  cases slot with
  | surface plane s =>
    cases slot' with
    | surface plane' s' =>
      have htail := List.append_cancel_left hbase
      simp only [List.cons.injEq, and_true, true_and] at htail
      exact congrArg₂ surface (Plane.text_injective htail) hstamp
    | delta => exact absurd hfile surface_ne_delta
    | incident => exact absurd hfile surface_ne_incident
  | delta plane s =>
    cases slot' with
    | delta plane' s' =>
      have htail := List.append_cancel_left hbase
      simp only [List.cons.injEq, and_true, true_and] at htail
      exact congrArg₂ delta (Plane.text_injective htail) hstamp
    | surface => exact absurd hfile.symm surface_ne_delta
    | incident => exact absurd hfile delta_ne_incident
  | incident event s =>
    cases slot' with
    | incident event' s' =>
      have htail := List.append_cancel_left hbase
      simp only [List.cons.injEq, and_true, true_and] at htail
      exact congrArg₂ incident (EventName.text_injective htail) hstamp
    | surface => exact absurd hfile.symm surface_ne_incident
    | delta => exact absurd hfile.symm delta_ne_incident

/-- **Where two records meet**: for plain stamps, two paths are the same exactly if the kind, the
plane or event, and the stamp without colons and hyphens are. -/
theorem Slot.place_eq_iff {slot slot' : Slot} (root : StoreRoot)
    (h : IsPlain (compact slot.stamp)) (h' : IsPlain (compact slot'.stamp)) :
    slot.place root = slot'.place root ↔ slot.short = slot'.short := by
  rw [place_short root h, place_short root h']
  constructor
  · intro heq
    obtain ⟨hbase, hlast⟩ := List.append_inj' heq rfl
    obtain ⟨hstamp, hfile⟩ := List.cons.inj hlast
    exact eq_of_base hbase hstamp (List.cons.inj hfile).1
  · intro heq
    rw [heq]

/-- The stamps of the clock are plain names. -/
theorem isPlain_compact_isoformat (t : StructTime) : IsPlain (compact t.isoformat) := by
  have hpad2 : ∀ n < 100, '/' ∉ StructTime.pad2 n := by
    intro n hn hmem
    have hdigit : ∀ d < 10, '/' ≠ Nat.digitChar d := by decide
    rcases List.mem_cons.1 hmem with h | h
    · exact hdigit (n / 10) (by omega) h
    · exact hdigit (n % 10) (by omega) (List.mem_singleton.1 h)
  obtain ⟨year, mon, mday, hour, min, sec, hyear, hmon, hmday, hhour, hmin, hsec⟩ := t
  have hslash : '/' ∉ compact (StructTime.isoformat
      ⟨year, mon, mday, hour, min, sec, hyear, hmon, hmday, hhour, hmin, hsec⟩) := by
    rw [StructTime.compact_isoformat, StructTime.pad4]
    simp only [List.mem_append, List.mem_singleton, not_or]
    exact ⟨⟨hpad2 _ (by omega), hpad2 _ (by omega)⟩, hpad2 _ (by omega), hpad2 _ (by omega),
      by decide, hpad2 _ (by omega), hpad2 _ (by omega), hpad2 _ (by omega), by decide⟩
  have hlength : (compact (StructTime.isoformat
      ⟨year, mon, mday, hour, min, sec, hyear, hmon, hmday, hhour, hmin, hsec⟩)).length = 16 := by
    rw [StructTime.compact_isoformat]
    rfl
  have hne : ∀ c : Str, c.length ≠ 16 → compact (StructTime.isoformat
      ⟨year, mon, mday, hour, min, sec, hyear, hmon, hmday, hhour, hmin, hsec⟩) ≠ c :=
    fun c hc h ↦ hc (by rw [← h, hlength])
  exact ⟨hne _ (by decide), hne _ (by decide), hne _ (by decide), hslash⟩

/-- Where the stamps are plain, two calls are apart if they have no different records of one kind,
for one plane or event, with stamps that agree without colons and hyphens. -/
theorem apart_of_short {lower : Str → Str} {rt : Runtime} (root : StoreRoot) {c c' : Emit}
    (hplain : ∀ r ∈ c.records lower rt, IsPlain (compact r.1.stamp))
    (hplain' : ∀ r ∈ c'.records lower rt, IsPlain (compact r.1.stamp))
    (h : ∀ r ∈ c.records lower rt, ∀ r' ∈ c'.records lower rt, r.1.short = r'.1.short →
      r.2 = r'.2) : Apart lower rt root c c' :=
  fun r hr r' hr' hplace ↦ Or.inr <|
    h r hr r' hr' ((Slot.place_eq_iff root (hplain r hr) (hplain' r' hr')).1 hplace)

/-! ### What a call writes -/

/-- **What a write can do**: it raises and leaves the files alone, or it opens the file and leaves
it with what the failure allows. -/
theorem write_cases (st : RecordStore) (failure : Option Failure) (names : List Str)
    (fileName : Str) (doc : Dict) :
    ((st.write failure names fileName doc).1 = false ∧
      (st.write failure names fileName doc).2.files = st.files) ∨
    ((st.write failure names fileName doc).1 = failure.isNone ∧ opens failure = true ∧
      (st.write failure names fileName doc).2.files =
        Function.update st.files (walk names ++ [fileName]) (some (contentOf failure doc))) := by
  rw [RecordStore.write]
  dsimp only
  split
  · exact Or.inl ⟨rfl, rfl⟩
  · rename_i hmkdir
    split
    · exact Or.inl ⟨rfl, rfl⟩
    · rename_i hopening
      refine Or.inr ⟨rfl, ?_, rfl⟩
      rcases failure with _ | _ | _ | _ | _
      · rfl
      · exact absurd (Or.inl rfl) hmkdir
      · exact absurd (Or.inl rfl) hopening
      · rfl
      · rfl

/-- A write that returns was let through. -/
theorem failure_eq_none_of_write {st st' : RecordStore} {failure : Option Failure}
    {names : List Str} {fileName : Str} {doc : Dict}
    (h : st.write failure names fileName doc = (true, st')) : failure = none := by
  have hcases := write_cases st failure names fileName doc
  rw [h] at hcases
  rcases hcases with ⟨hfalse, -⟩ | ⟨hnone, -⟩
  · cases hfalse
  · exact Option.isNone_iff_eq_none.1 hnone.symm

/-- No other file changes. -/
theorem files_write_of_ne {p : Path} {names : List Str} {fileName : Str}
    (hp : p ≠ walk names ++ [fileName]) (st : RecordStore) (failure : Option Failure) (doc : Dict) :
    (st.write failure names fileName doc).2.files p = st.files p := by
  rcases write_cases st failure names fileName doc with ⟨-, hfiles⟩ | ⟨-, -, hfiles⟩
  · rw [hfiles]
  · rw [hfiles, Function.update_of_ne hp]

theorem lookup_id_of_buildDelta {rt : Runtime} {fromTs toTs delta : Dict} {a : DeltaArgs}
    {uuid : Str} {now : StructTime} (h : buildDelta rt fromTs toTs a uuid now = some delta) :
    delta.lookup "id".toList = some (.str (deltaId a uuid)) := by
  obtain ⟨f, -, rfl⟩ := Option.map_eq_some_iff.1 h
  have hid : (deltaMembers a uuid now f).lookup "id".toList = some (.str (deltaId a uuid)) := rfl
  exact lookup_sealed (nodup_deltaMembers a uuid now f) hid (by simp)

theorem recordId_of_lookup {doc : Dict} {id : Str} (h : doc.lookup "id".toList = some (.str id)) :
    recordId doc = some (.str id) := by
  rw [recordId, h]
  rfl

theorem recordId_buildIncident (a : IncidentArgs) (host : IncidentHost) :
    recordId (buildIncident a host) = some (.str (incidentId a host)) := by
  have hid : (buildIncident a host).lookup "id".toList = none := by
    rw [buildIncident, List.lookup_append, incidentRun]
    split
    · rfl
    · rfl
  rw [recordId, hid]
  rfl

section Step

variable {lower : Str → Str} {rt : Runtime} {root : StoreRoot}

/-- The content of a file that was opened for a record: the record, or a part of it. -/
def Content.Of (id : Str) : Content → Prop
  | .record doc => recordId doc = some (.str id)
  | .torn => True

theorem of_contentOf {doc : Dict} {id : Str} (h : recordId doc = some (.str id))
    (failure : Option Failure) : (contentOf failure doc).Of id := by
  rw [contentOf]
  split
  · trivial
  · exact h

/-- What is at a path is what was there, or one of the records, and the whole of it if `whole`
says so. -/
def Filed (root : StoreRoot) (whole : Prop) (records : List (Slot × Str)) (st st' : RecordStore)
    (p : Path) : Prop :=
  st'.files p = st.files p ∨ ∃ r ∈ records, r.1.place root = p ∧
    ∃ content, st'.files p = some content ∧ content.Of r.2 ∧ (whole → content ≠ .torn)

theorem Filed.trans {whole : Prop} {records : List (Slot × Str)} {st st' st'' : RecordStore}
    {p : Path} (h : Filed root whole records st st' p) (h' : Filed root whole records st' st'' p) :
    Filed root whole records st st'' p := by
  rcases h' with hsame | hnew
  · rw [Filed, hsame]
    exact h
  · exact Or.inr hnew

theorem Filed.mono {whole whole' : Prop} {records records' : List (Slot × Str)}
    {st st' : RecordStore} {p : Path} (h : Filed root whole records st st' p)
    (hwhole : whole' → whole) (hsub : records ⊆ records') :
    Filed root whole' records' st st' p :=
  h.imp_right fun ⟨r, hr, hplace, content, hfile, hof, htorn⟩ ↦
    ⟨r, hsub hr, hplace, content, hfile, hof, htorn ∘ hwhole⟩

theorem filed_emit {slot : Slot} {id : Str} {doc : Dict} (hid : recordId doc = some (.str id))
    (st : RecordStore) (failure : Option Failure) (p : Path) :
    Filed root (failure ≠ some .partway) (recordOf failure slot id) st
      (st.emit root failure slot doc).2 p := by
  rcases write_cases st failure (slot.names root) slot.fileName doc with
    ⟨-, hfiles⟩ | ⟨-, hopens, hfiles⟩
  · exact Or.inl (congrFun hfiles p)
  · rcases eq_or_ne p (slot.place root) with rfl | hp
    · rw [recordOf, if_pos hopens]
      refine Or.inr ⟨(slot, id), List.mem_singleton_self _, rfl, contentOf failure doc,
        (congrFun hfiles _).trans (Function.update_self ..), of_contentOf hid failure, ?_⟩
      intro hwhole
      rw [contentOf, if_neg hwhole]
      nofun
    · exact Or.inl (files_write_of_ne hp st failure doc)

/-- The pointer is in its directory. -/
theorem files_point {p : Path} (hp : ¬ InLatest root p) (st : RecordStore)
    (failure : Option Failure) (plane : Plane) (doc : Dict) :
    (st.point root failure plane doc).files p = st.files p := by
  refine files_write_of_ne (fun hplace ↦ hp ?_) st failure doc
  rw [walk_append_of_isPlain (by decide),
    walk_of_isPlain ((Slot.surface plane []).isPlain_base root)] at hplace
  exact ⟨plane, hplace.symm ▸ List.prefix_append _ _⟩

theorem filed_emitDelta (st : RecordStore) (failure : Option Failure) (plane : Plane)
    (i : TickInput) (p : Path) :
    Filed root (failure ≠ some .partway) (recordOf failure (.delta plane i.deltaNow.isoformat)
      (deltaId (deltaArgs lower i) i.deltaUuid)) st
      (st.emitDelta lower rt root failure plane i).2 p := by
  rw [RecordStore.emitDelta]
  split
  · exact Or.inl rfl
  · exact Or.inl rfl
  · split
    · exact Or.inl rfl
    · rename_i delta hdelta
      exact filed_emit (recordId_of_lookup (lookup_id_of_buildDelta hdelta)) st failure p

/-- What a tick can do. -/
theorem filed_tick (st : RecordStore) (plane : Plane) (i : TickInput) (failure : TickFailure)
    {p : Path} (hp : ¬ InLatest root p) :
    Filed root (¬ (Emit.tick plane i failure).BreaksOff)
      ((Emit.tick plane i failure).records lower rt) st
      ((programs lower rt root).step st (.tick plane i failure)).1 p := by
  set surface := surfaceOf lower plane.text i with hdef
  set slot := Slot.surface plane i.host.now.isoformat with hslot
  rw [Emit.records, programs]
  dsimp only
  rw [← hdef, ← hslot]
  by_cases hinit : failure.init = true
  · rw [if_pos hinit, if_pos hinit]
    exact Or.inl rfl
  · rw [if_neg hinit, if_neg hinit]
    have hid : recordId surface = some (.str (idOf lower plane.text i)) :=
      recordId_of_lookup lookup_id_buildSurface
    have hsurface := (@filed_emit root slot _ _ hid st failure.surface p).mono
      (fun h : ¬ (Emit.tick plane i failure).BreaksOff ↦ (not_or.1 h).1)
      (List.subset_append_left _ (if failure.surface = none then
        recordOf failure.delta (.delta plane i.deltaNow.isoformat)
          (deltaId (deltaArgs lower i) i.deltaUuid) else []))
    rcases hemit : st.emit root failure.surface slot surface with ⟨_ | _, st₁⟩
    · -- the tick ends
      rw [hemit] at hsurface
      exact hsurface
    · have hnone : failure.surface = none := failure_eq_none_of_write hemit
      have hdelta := (@filed_emitDelta lower rt root st₁ failure.delta plane i p).mono
        (fun h : ¬ (Emit.tick plane i failure).BreaksOff ↦ (not_or.1 h).2)
        (List.subset_append_right (recordOf failure.surface slot (idOf lower plane.text i)) _)
      rw [hemit] at hsurface
      rw [if_pos hnone] at hsurface ⊢
      have hboth := hsurface.trans hdelta
      dsimp only
      rcases hgo : st₁.emitDelta lower rt root failure.delta plane i with ⟨_ | _, st₂⟩
      · rw [hgo] at hboth
        exact hboth
      · rw [hgo] at hboth
        exact hboth.trans (Or.inl (files_point hp st₂ failure.pointer plane surface))

/-- **What a call can do** outside the pointer's directory: a file is left alone, or is now one of
the records of the call, whole unless a write of the call breaks off. -/
theorem filed_step (st : RecordStore) (c : Emit) {p : Path} (hp : ¬ InLatest root p) :
    Filed root (¬ c.BreaksOff) (c.records lower rt) st
      ((programs lower rt root).step st c).1 p := by
  cases c with
  | surface plane a host failure =>
    exact filed_emit (recordId_of_lookup lookup_id_buildSurface) st failure p
  | delta fromTs toTs a uuid now failure =>
    rw [Emit.records, programs]
    dsimp only
    split
    · exact Or.inl rfl
    · rename_i delta hdelta
      exact filed_emit (recordId_of_lookup (lookup_id_of_buildDelta hdelta)) st failure p
  | incident a host failure =>
    exact filed_emit (recordId_buildIncident a host) st failure p
  | tick plane i failure => exact filed_tick st plane i failure hp

/-! ### Whole runs -/

/-- Every file came with a record of a call. -/
theorem exists_record_of_files (cs : List Emit) {p : Path} (hp : ¬ InLatest root p)
    {content : Content} (h : ((programs lower rt root).after .empty cs).files p = some content) :
    ∃ c ∈ cs, ∃ r ∈ c.records lower rt, r.1.place root = p ∧ content.Of r.2 := by
  induction cs using List.reverseRecOn generalizing content with
  | nil => cases h
  | append_singleton cs c ih =>
    rw [Machine.after_append] at h
    rcases filed_step ((programs lower rt root).after .empty cs) c hp with
      hsame | ⟨r, hr, hplace, content', hcontent', hof, -⟩
    · obtain ⟨c', hc', hrecord⟩ := ih (hsame.symm.trans h)
      exact ⟨c', List.mem_append_left _ hc', hrecord⟩
    · obtain rfl : content' = content := Option.some.inj (hcontent'.symm.trans h)
      exact ⟨c, List.mem_append_right _ (List.mem_singleton_self c), r, hr, hplace, hof⟩

end Step

/-- **Records are kept.** In every run of which no two calls have different records for one path, a
record outside the pointer's directory is never replaced by one with another identifier. Its file
stays, and holds a record with the same identifier as long as no write breaks off. -/
theorem records_kept (lower : Str → Str) (rt : Runtime) (root : StoreRoot) {cs : List Emit}
    (h : cs.Pairwise (Apart lower rt root)) {pre post : List Emit} (hcs : pre ++ post <+: cs)
    {p : Path} (hp : ¬ InLatest root p) {doc : Dict}
    (hdoc : ((programs lower rt root).after .empty pre).files p = some (.record doc)) :
    ∃ content, ((programs lower rt root).after .empty (pre ++ post)).files p = some content ∧
      (∀ doc', content = .record doc' → recordId doc' = recordId doc) ∧
      ((∀ c ∈ post, ¬ c.BreaksOff) → content ≠ .torn) := by
  induction post using List.reverseRecOn with
  | nil =>
    rw [List.append_nil]
    refine ⟨_, hdoc, fun doc' hdoc' ↦ ?_, nofun⟩
    rw [Content.record.inj hdoc']
  | append_singleton post c ih =>
    rw [← List.append_assoc] at hcs ⊢
    obtain ⟨content, hcontent, hid, hwhole⟩ := ih ((List.prefix_append _ _).trans hcs)
    rw [Machine.after_append]
    rcases filed_step ((programs lower rt root).after .empty (pre ++ post)) c hp with
      hsame | ⟨r, hr, hplace, content', hcontent', hof, htorn⟩
    · exact ⟨content, hsame.trans hcontent, hid,
        fun hpost ↦ hwhole fun c' hc' ↦ hpost c' (List.mem_append_left _ hc')⟩
    · -- the record that is replaced came with an earlier call
      obtain ⟨c', hc', r', hr', hplace', hrecord'⟩ := exists_record_of_files _ hp hdoc
      have hapart : Apart lower rt root c' c :=
        (List.pairwise_append.1 (h.sublist hcs.sublist)).2.2 c' (List.mem_append_left _ hc') c
          (List.mem_singleton_self c)
      have hsame : r'.2 = r.2 :=
        (hapart r' hr' r hr (hplace'.trans hplace.symm)).resolve_left fun hlatest ↦
          hp (hplace' ▸ hlatest)
      have hdocId : recordId doc = some (.str r'.2) := hrecord'
      refine ⟨content', hcontent', fun doc' hdoc' ↦ ?_,
        fun hpost ↦ htorn (hpost c (List.mem_append_right _ (List.mem_singleton_self c)))⟩
      subst hdoc'
      have hnew : recordId doc' = some (.str r.2) := hof
      rw [hnew, hdocId, hsame]

/-- `/var/lib/sourceos`. -/
def defaultRoot : StoreRoot where
  path := ["var".toList, "lib".toList, "sourceos".toList]
  plain := by decide

/-- An event at a minute, with the default arguments. -/
def incidentAt (event : EventName) (m : Fin 60) (uuid : Str) : Emit :=
  .incident
    ⟨event, .requested, none, none, .service, "sourceos-incident".toList, none, none, none, 1, none,
      none, none, none, none⟩ ⟨minute m, uuid, []⟩ none

/-- The programs, on an interpreter that knows about ASCII. -/
def defaultPrograms : Machine RecordStore Emit Unit :=
  programs id Runtime.ascii defaultRoot

/-- The path of an event at a minute. -/
def incidentPath (event : EventName) (m : Fin 60) : Path :=
  (Slot.incident event (minute m).isoformat).place defaultRoot

theorem not_inLatest_incidentPath (event : EventName) (m : Fin 60) :
    ¬ InLatest defaultRoot (incidentPath event m) :=
  not_inLatest_incident defaultRoot (isPlain_compact_isoformat (minute m))

/-- Events with different names or at different minutes are apart. -/
theorem apart_incidentAt {event event' : EventName} {m m' : Fin 60} (uuid uuid' : Str)
    (h : event = event' → compact (minute m).isoformat ≠ compact (minute m').isoformat) :
    Apart id Runtime.ascii defaultRoot (incidentAt event m uuid)
      (incidentAt event' m' uuid') := by
  refine apart_of_short defaultRoot (fun r hr ↦ ?_) (fun r hr ↦ ?_) fun r hr r' hr' hshort ↦ ?_
  · rw [List.mem_singleton.1 hr]
    exact isPlain_compact_isoformat (minute m)
  · rw [List.mem_singleton.1 hr]
    exact isPlain_compact_isoformat (minute m')
  · rw [List.mem_singleton.1 hr, List.mem_singleton.1 hr'] at hshort
    obtain ⟨hevent, hstamp⟩ := Slot.incident.inj hshort
    exact absurd hstamp (h hevent)

/-- Two events in one second, and one a minute later. -/
theorem records_kept_incidents :
    ∃ doc, (defaultPrograms.after .empty [incidentAt .freeze 0 "a".toList,
        incidentAt .kill 0 "b".toList, incidentAt .freeze 1 "c".toList]).files
          (incidentPath .freeze 0) = some (.record doc) ∧
      recordId doc = some (.str "evt_a".toList) := by
  have hminutes : compact (minute 0).isoformat ≠ compact (minute 1).isoformat := by decide
  have hpairwise : [incidentAt .freeze 0 "a".toList, incidentAt .kill 0 "b".toList,
      incidentAt .freeze 1 "c".toList].Pairwise (Apart id Runtime.ascii defaultRoot) := by
    refine List.pairwise_cons.2 ⟨fun c hc ↦ ?_, List.pairwise_pair.2 (apart_incidentAt _ _ nofun)⟩
    rcases List.mem_cons.1 hc with rfl | hc
    · exact apart_incidentAt _ _ nofun
    · rw [List.mem_singleton.1 hc]
      exact apart_incidentAt _ _ fun _ ↦ hminutes
  obtain ⟨content, hcontent, hid, hwhole⟩ := @records_kept id Runtime.ascii defaultRoot _ hpairwise
    [incidentAt .freeze 0 "a".toList] _ List.prefix_rfl (incidentPath .freeze 0)
    (not_inLatest_incidentPath .freeze 0) _ rfl
  have hnone : ∀ c ∈ [incidentAt .kill 0 "b".toList, incidentAt .freeze 1 "c".toList],
      ¬ c.BreaksOff := by
    intro c hc
    rcases List.mem_pair.1 hc with rfl | rfl
    · exact fun hbreaks ↦ nomatch hbreaks
    · exact fun hbreaks ↦ nomatch hbreaks
  rcases content with doc | _
  · exact ⟨doc, hcontent, (hid doc rfl).trans (recordId_buildIncident _ _)⟩
  · exact absurd rfl (hwhole hnone)

/-- **A record is overwritten.** Of two events of one kind within one second, only the second is
kept. -/
theorem incident_overwritten :
    ¬ InLatest defaultRoot (incidentPath .freeze 0) ∧
    ∃ doc doc', (defaultPrograms.after .empty [incidentAt .freeze 0 "a".toList]).files
        (incidentPath .freeze 0) = some (.record doc) ∧
      (defaultPrograms.after .empty [incidentAt .freeze 0 "a".toList,
        incidentAt .freeze 0 "b".toList]).files (incidentPath .freeze 0) = some (.record doc') ∧
      recordId doc = some (.str "evt_a".toList) ∧ recordId doc' = some (.str "evt_b".toList) :=
  ⟨not_inLatest_incidentPath .freeze 0, _, _, rfl, rfl, recordId_buildIncident _ _,
    recordId_buildIncident _ _⟩

end SourceOS.Truth
