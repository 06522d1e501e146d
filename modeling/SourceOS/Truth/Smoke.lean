import SourceOS.Truth.Records

/-!
# The smoke harness

`main` of `tools/sourceos_truth_plane_smoke.py`, without its optional parts: two surfaces, the delta
of the first and the second, and an event that refers to the second surface and the delta, each
written into the store root. With `--deterministic` the time stamps and the identifiers are fixed;
otherwise they come from the clock and from `uuid`.

The harness is meant as a proof that the four records fit together. `smoke_references_resolve` says
to what extent they do, for any number of runs on one store root: every reference leads to a record
with the identifier that it names, except that the delta's first one leads to the second surface
when the clock was read twice in one second.

The stores are those of `Records`. The initialisation of the gate's tables, which comes first, may
fail, and writes none of the records. Deterministic runs write over the records of one another, so
one that breaks off in the middle of a record destroys the one that was there.
-/

namespace SourceOS.Truth

open Text Json

/-! ### A run -/

/-- A run of the harness: its arguments, what it reads, and where the operating system makes it
fail. -/
structure SmokeRun where
  /-- `--deterministic`. -/
  deterministic : Bool
  /-- What the surface emitter reads, twice. -/
  host0 : Host
  host1 : Host
  /-- The readings of the clock. -/
  now0 : StructTime
  now1 : StructTime
  now2 : StructTime
  /-- The identifier that `uuid` would make up for the delta. -/
  deltaUuid : Str
  /-- Whether the initialisation raises. -/
  initFails : Bool
  /-- The failures of the four writes. -/
  failure0 : Option Failure
  failure1 : Option Failure
  failureDelta : Option Failure
  failureIncident : Option Failure

namespace SmokeRun

variable (r : SmokeRun)

/-- A fixed identifier, if the run is deterministic. -/
def fixedId (id : Str) : Option Str :=
  if r.deterministic then some id else none

/-- A fixed time stamp, if the run is deterministic, and otherwise that of the clock. -/
def stampOr (stamp : Str) (now : StructTime) : Str :=
  if r.deterministic then stamp else now.isoformat

/-- `created0`. -/
def created0 : Str :=
  r.stampOr "2026-04-15T00:00:00Z".toList r.now0

/-- `created1`. -/
def created1 : Str :=
  r.stampOr "2026-04-15T00:01:00Z".toList r.now1

/-- The time stamp of the delta and of the event. -/
def created2 : Str :=
  r.stampOr "2026-04-15T00:02:00Z".toList r.now2

/-- `ns0` and `ns1`. -/
def surfaceArgs (id : Option Str) (createdAt : Str) : SurfaceArgs where
  plane := Plane.systemSealed.text
  specVersion := "2.0.0".toList
  id := id
  createdAt := some createdAt
  signer := "sourceos-truth-surface".toList
  policyPackDigest := none
  riskScore := 0
  riskThreshold := 30
  humanApprovalRequired := false
  humanApproved := false
  evidenceRequired := ["logs".toList, "policy_decision".toList]
  evidencePresent := ["logs".toList, "policy_decision".toList]
  policyDecisionRef := []
  capabilityTokenId := []
  runRecordRef := []
  provenanceRef := []
  telemetryRef := []
  evidenceBundleRef := []
  cairnBeforeRef := none
  cairnAfterRef := none
  anchor := ["B1".toList]
  topic := ["boot.integrity".toList]
  glossaryRef := []
  extraHashPath := []

/-- The arguments of the first surface. -/
def args0 : SurfaceArgs :=
  surfaceArgs (r.fixedId "urn:srcos:truth-surface:ts_smoke_0000".toList) r.created0

/-- The arguments of the second surface. -/
def args1 : SurfaceArgs :=
  surfaceArgs (r.fixedId "urn:srcos:truth-surface:ts_smoke_0001".toList) r.created1

/-- `dns`. -/
def deltaArgs : DeltaArgs where
  specVersion := "2.0.0".toList
  id := r.fixedId "urn:srcos:delta-surface:ds_smoke_0001".toList
  createdAt := some r.created2
  signer := "sourceos-delta-surface".toList
  fromRef := none
  toRef := none
  gate := ⟨0, 30, false, false⟩

/-- The identifier of the event. -/
def eventId : Str :=
  if r.deterministic then "evt_smoke_0001".toList else "evt_".toList ++ compact r.created2

/-- The event, with the references to a surface and a delta. -/
def incident (surface delta : Dict) : Dict :=
  [("event_id".toList, .str r.eventId),
    ("event_name".toList, .str EventName.freeze.text),
    ("occurred_at".toList, .str r.created2),
    ("actor".toList, .obj [("kind".toList, .str ActorKind.service.text),
      ("id".toList, .str "sourceos-incident".toList)]),
    ("status".toList, .str EventStatus.succeeded.text),
    ("refs".toList, .obj
      [("truth_surface_ref".toList, (surface.lookup "id".toList).getD .null),
        ("delta_surface_ref".toList, (delta.lookup "id".toList).getD .null)]),
    ("payload".toList, .obj
      [("notes".toList, .str "smoke harness event-only; no privileged actions".toList)])]

/-- The failures of the writes. -/
def failures : List (Option Failure) :=
  [r.failure0, r.failure1, r.failureDelta, r.failureIncident]

/-- The two surfaces. -/
def surface0 : Dict :=
  buildSurface r.args0 r.host0

@[inherit_doc surface0]
def surface1 : Dict :=
  buildSurface r.args1 r.host1

/-- Where the records are kept. -/
def slot0 : Slot := .surface .systemSealed r.created0

@[inherit_doc slot0]
def slot1 : Slot := .surface .systemSealed r.created1

@[inherit_doc slot0]
def slotDelta : Slot := .delta .systemSealed r.created2

@[inherit_doc slot0]
def slotIncident : Slot := .incident .freeze r.created2

end SmokeRun

/-- Records written one after the other, until one write raises. -/
def RecordStore.emitAll (root : StoreRoot) (st : RecordStore) :
    List (Option Failure × Slot × Dict) → Bool × RecordStore
  | [] => (true, st)
  | (failure, slot, doc) :: rest =>
    match st.emit root failure slot doc with
    | (false, st) => (false, st)
    | (true, st) => st.emitAll root rest

section Harness

variable (rt : Runtime) (root : StoreRoot)

/-- `main`, with whether it returns. -/
def RecordStore.smoke (st : RecordStore) (r : SmokeRun) : Bool × RecordStore :=
  if r.initFails then (false, st)
  else
    match st.emitAll root
        [(r.failure0, r.slot0, r.surface0), (r.failure1, r.slot1, r.surface1)] with
    | (false, st) => (false, st)
    | (true, st) =>
      match buildDelta rt r.surface0 r.surface1 r.deltaArgs r.deltaUuid r.now2 with
      | none => (false, st)
      | some delta => st.emitAll root [(r.failureDelta, r.slotDelta, delta),
          (r.failureIncident, r.slotIncident, r.incident r.surface1 delta)]

/-- Runs of the harness on one store root. -/
def harness : Machine RecordStore SmokeRun Bool where
  step st r := ((st.smoke rt root r).2, (st.smoke rt root r).1)

end Harness

/-! ### What is written -/

section Emit

variable {root : StoreRoot}

/-- **What a list of writes can do**: a file is left alone, or has what its write left. -/
theorem files_emitAll (docs : List (Option Failure × Slot × Dict)) (st : RecordStore) (p : Path) :
    (st.emitAll root docs).2.files p = st.files p ∨
      ∃ x ∈ docs, x.2.1.place root = p ∧
        (st.emitAll root docs).2.files p = some (contentOf x.1 x.2.2) := by
  induction docs generalizing st with
  | nil => exact Or.inl rfl
  | cons x docs ih =>
    obtain ⟨failure, slot, doc⟩ := x
    have hone : (st.emit root failure slot doc).2.files p = st.files p ∨
        slot.place root = p ∧
          (st.emit root failure slot doc).2.files p = some (contentOf failure doc) := by
      rcases write_cases st failure (slot.names root) slot.fileName doc with
        ⟨-, hfiles⟩ | ⟨-, -, hfiles⟩
      · exact Or.inl (congrFun hfiles p)
      · by_cases hp : slot.place root = p
        · refine Or.inr ⟨hp, ?_⟩
          rw [← hp]
          exact (congrFun hfiles _).trans (Function.update_self ..)
        · exact Or.inl (files_write_of_ne (Ne.symm hp) st failure doc)
    rw [RecordStore.emitAll]
    rcases hemit : st.emit root failure slot doc with ⟨_ | _, st'⟩
    · rw [hemit] at hone
      exact hone.imp_right fun h ↦ ⟨_, List.mem_cons_self, h⟩
    · rw [hemit] at hone
      rcases ih st' with hsame | ⟨x, hx, hfile⟩
      · rw [hsame]
        exact hone.imp_right fun h ↦ ⟨_, List.mem_cons_self, h⟩
      · exact Or.inr ⟨x, List.mem_cons_of_mem _ hx, hfile⟩

/-- A write that returns has its record at its place. -/
theorem files_of_emit {st st' : RecordStore} {failure : Option Failure} {slot : Slot} {doc : Dict}
    (h : st.emit root failure slot doc = (true, st')) :
    st'.files = Function.update st.files (slot.place root) (some (.record doc)) := by
  have hcases := write_cases st failure (slot.names root) slot.fileName doc
  have hwrite : st.write failure (slot.names root) slot.fileName doc = (true, st') := h
  obtain rfl := failure_eq_none_of_write hwrite
  rw [hwrite] at hcases
  rcases hcases with ⟨hfalse, -⟩ | ⟨-, -, hfiles⟩
  · cases hfalse
  · exact hfiles

/-- Two writes that return: the second is over the first. -/
theorem files_of_emitAll_pair {st st' : RecordStore} {f g : Option Failure} {slot slot' : Slot}
    {doc doc' : Dict}
    (h : st.emitAll root [(f, slot, doc), (g, slot', doc')] = (true, st')) :
    st'.files = Function.update (Function.update st.files (slot.place root) (some (.record doc)))
      (slot'.place root) (some (.record doc')) := by
  rw [RecordStore.emitAll] at h
  rcases hfirst : st.emit root f slot doc with ⟨_ | _, st₁⟩
  · rw [hfirst] at h
    cases h
  · rw [hfirst] at h
    dsimp only at h
    rw [RecordStore.emitAll] at h
    rcases hsecond : st₁.emit root g slot' doc' with ⟨_ | _, st₂⟩
    · rw [hsecond] at h
      cases h
    · rw [hsecond] at h
      obtain rfl : st₂ = st' := congrArg Prod.snd h
      rw [files_of_emit hsecond, files_of_emit hfirst]

end Emit

/-! ### What the records say -/

namespace SmokeRun

variable (r : SmokeRun)

/-- The identifiers of the two surfaces and of the delta. -/
def id0 : Str := surfaceId r.args0 r.host0

@[inherit_doc id0]
def id1 : Str := surfaceId r.args1 r.host1

@[inherit_doc id0]
def deltaId : Str := Truth.deltaId r.deltaArgs r.deltaUuid

/-- A surface with an identifier is at the place of a record. -/
def SurfaceAt (root : StoreRoot) (st : RecordStore) (slot : Slot) (id : Str) : Prop :=
  ∃ doc, st.files (slot.place root) = some (.record doc) ∧ recordId doc = some (.str id)

/-- The delta of the run: it goes from the first surface to the second, and permits. -/
structure IsDelta (doc : Dict) : Prop where
  id : recordId doc = some (.str r.deltaId)
  fromRef : doc.lookup "fromRef".toList = some (.str r.id0)
  toRef : doc.lookup "toRef".toList = some (.str r.id1)
  permits : ∃ gate, doc.lookup "gate".toList = some (.obj gate) ∧
    gate.lookup "status".toList = some (.str "permit".toList)

/-- The event of the run, with the references to the second surface and to the delta. -/
structure IsIncident (doc : Dict) : Prop where
  id : recordId doc = some (.str r.eventId)
  refs : ∃ refs, doc.lookup "refs".toList = some (.obj refs) ∧
    refs.lookup "truth_surface_ref".toList = some (.str r.id1) ∧
    refs.lookup "delta_surface_ref".toList = some (.str r.deltaId)

/-- What the gate finds in the second surface. -/
def smokeFacts : GateFacts :=
  let evidence := sortedSet (["logs".toList, "policy_decision".toList].filter (· ≠ []))
  .ofStrings evidence evidence 0 30 false false

/-- **The gate permits**: all evidence is there, there is no risk, and no approval is asked for. -/
theorem exists_delta (rt : Runtime) : ∃ delta,
    buildDelta rt r.surface0 r.surface1 r.deltaArgs r.deltaUuid r.now2 = some delta ∧
      r.IsDelta delta := by
  obtain ⟨delta, gate, hdelta, hgate, hfrom, hto, hlookup⟩ := @exists_buildDelta rt r.args0 r.host0
    r.args1 r.host1 r.deltaArgs r.deltaUuid r.now2
  have hstatus : gate.lookup "status".toList = some (.str "permit".toList) := by
    rw [computeGate, gateFacts_buildSurface, Option.map_some] at hgate
    obtain rfl : smokeFacts.gate rt = gate := Option.some.inj hgate
    have hmissing : smokeFacts.missing = [] := by decide
    have hdenied : ¬ smokeFacts.Denied := by decide
    have hpermit : (smokeFacts.verdict rt).1 = "permit".toList := by
      rw [GateFacts.fst_verdict, if_neg hdenied, hmissing]
      rfl
    show some (Json.str (smokeFacts.verdict rt).1) = _
    rw [hpermit]
  exact ⟨delta, hdelta, recordId_of_lookup (lookup_id_of_buildDelta hdelta), hfrom, hto, gate,
    hlookup, hstatus⟩

theorem isIncident_incident {delta : Dict}
    (h : delta.lookup "id".toList = some (.str r.deltaId)) :
    r.IsIncident (r.incident r.surface1 delta) := by
  refine ⟨rfl, _, rfl, ?_, ?_⟩
  · have hid : r.surface1.lookup "id".toList = some (.str r.id1) := lookup_id_buildSurface
    show some ((r.surface1.lookup "id".toList).getD .null) = _
    rw [hid]
    rfl
  · show some ((delta.lookup "id".toList).getD .null) = _
    rw [h]
    rfl

/-- What a run writes where. -/
inductive Writes : Slot → Dict → Prop
  | surface0 : Writes r.slot0 r.surface0
  | surface1 : Writes r.slot1 r.surface1
  | delta {doc : Dict} (h : r.IsDelta doc) : Writes r.slotDelta doc
  | incident {doc : Dict} (h : r.IsIncident doc) : Writes r.slotIncident doc

end SmokeRun

section Runs

variable (rt : Runtime) (root : StoreRoot) (r : SmokeRun)

/-- **What a run can do**: a file is left alone, or has what the write of one of the four records
left. -/
theorem files_smoke (st : RecordStore) (p : Path) :
    (st.smoke rt root r).2.files p = st.files p ∨
      ∃ slot doc failure, r.Writes slot doc ∧ failure ∈ r.failures ∧ slot.place root = p ∧
        (st.smoke rt root r).2.files p = some (contentOf failure doc) := by
  obtain ⟨delta, hdelta, his⟩ := r.exists_delta rt
  have hincident : r.IsIncident (r.incident r.surface1 delta) :=
    r.isIncident_incident (lookup_id_of_buildDelta hdelta)
  rw [RecordStore.smoke]
  by_cases hinit : r.initFails = true
  · rw [if_pos hinit]
    exact Or.inl rfl
  rw [if_neg hinit]
  have hsurfaces : ∀ x ∈ [(r.failure0, r.slot0, r.surface0), (r.failure1, r.slot1, r.surface1)],
      r.Writes x.2.1 x.2.2 ∧ x.1 ∈ r.failures := by
    intro x hx
    rcases List.mem_pair.1 hx with rfl | rfl
    · exact ⟨.surface0, by simp [SmokeRun.failures]⟩
    · exact ⟨.surface1, by simp [SmokeRun.failures]⟩
  have hrest : ∀ x ∈ [(r.failureDelta, r.slotDelta, delta),
      (r.failureIncident, r.slotIncident, r.incident r.surface1 delta)],
      r.Writes x.2.1 x.2.2 ∧ x.1 ∈ r.failures := by
    intro x hx
    rcases List.mem_pair.1 hx with rfl | rfl
    · exact ⟨.delta his, by simp [SmokeRun.failures]⟩
    · exact ⟨.incident hincident, by simp [SmokeRun.failures]⟩
  have hfirst := @files_emitAll root
    [(r.failure0, r.slot0, r.surface0), (r.failure1, r.slot1, r.surface1)] st p
  rcases hrun : st.emitAll root [(r.failure0, r.slot0, r.surface0),
    (r.failure1, r.slot1, r.surface1)] with ⟨_ | _, st'⟩
  · rw [hrun] at hfirst
    exact hfirst.imp_right fun ⟨x, hx, hplace, hfile⟩ ↦
      ⟨_, _, _, (hsurfaces x hx).1, (hsurfaces x hx).2, hplace, hfile⟩
  · rw [hrun] at hfirst
    dsimp only
    rw [hdelta]
    dsimp only
    rcases @files_emitAll root [(r.failureDelta, r.slotDelta, delta),
        (r.failureIncident, r.slotIncident, r.incident r.surface1 delta)] st' p with
      hsame | ⟨x, hx, hplace, hfile⟩
    · rw [hsame]
      exact hfirst.imp_right fun ⟨x, hx, hplace, hfile⟩ ↦
      ⟨_, _, _, (hsurfaces x hx).1, (hsurfaces x hx).2, hplace, hfile⟩
    · exact Or.inr ⟨_, _, _, (hrest x hx).1, (hrest x hx).2, hplace, hfile⟩

/-- **What a run that returns has written**, each record over the ones before. -/
theorem files_of_smoke {st st' : RecordStore} (h : st.smoke rt root r = (true, st')) :
    ∃ delta incident, r.IsDelta delta ∧ r.IsIncident incident ∧
      st'.files = Function.update (Function.update (Function.update (Function.update st.files
        (r.slot0.place root) (some (.record r.surface0)))
        (r.slot1.place root) (some (.record r.surface1)))
        (r.slotDelta.place root) (some (.record delta)))
        (r.slotIncident.place root) (some (.record incident)) := by
  obtain ⟨delta, hdelta, his⟩ := r.exists_delta rt
  have hincident : r.IsIncident (r.incident r.surface1 delta) :=
    r.isIncident_incident (lookup_id_of_buildDelta hdelta)
  refine ⟨delta, _, his, hincident, ?_⟩
  rw [RecordStore.smoke] at h
  by_cases hinit : r.initFails = true
  · rw [if_pos hinit] at h
    cases h
  rw [if_neg hinit] at h
  rcases hrun : st.emitAll root [(r.failure0, r.slot0, r.surface0),
    (r.failure1, r.slot1, r.surface1)] with ⟨_ | _, st₁⟩
  · rw [hrun] at h
    cases h
  · rw [hrun] at h
    dsimp only at h
    rw [hdelta] at h
    rw [files_of_emitAll_pair h, files_of_emitAll_pair hrun]

end Runs

/-! ### Stamps -/

namespace SmokeRun

/-- **Every stamp is that of a clock.** -/
theorem exists_isoformat (r : SmokeRun) :
    (∃ t : StructTime, r.created0 = t.isoformat) ∧ (∃ t : StructTime, r.created1 = t.isoformat) ∧
      ∃ t : StructTime, r.created2 = t.isoformat := by
  have hstamp : ∀ {stamp : Str} {now fixed : StructTime}, stamp = fixed.isoformat →
      ∃ t : StructTime, r.stampOr stamp now = t.isoformat := by
    intro stamp now fixed h
    rw [stampOr]
    split
    · exact ⟨fixed, h⟩
    · exact ⟨now, rfl⟩
  have hfixed0 : "2026-04-15T00:00:00Z".toList = (minute 0).isoformat := by decide
  have hfixed1 : "2026-04-15T00:01:00Z".toList = (minute 1).isoformat := by decide
  have hfixed2 : "2026-04-15T00:02:00Z".toList = (minute 2).isoformat := by decide
  exact ⟨hstamp hfixed0, hstamp hfixed1, hstamp hfixed2⟩

/-- The slots of a run. -/
def slots (r : SmokeRun) : List Slot :=
  [r.slot0, r.slot1, r.slotDelta, r.slotIncident]

theorem exists_isoformat_of_mem_slots {r : SmokeRun} {slot : Slot} (h : slot ∈ r.slots) :
    ∃ t : StructTime, slot.stamp = t.isoformat := by
  obtain ⟨h0, h1, h2⟩ := r.exists_isoformat
  simp only [slots, List.mem_cons, List.not_mem_nil, or_false] at h
  rcases h with rfl | rfl | rfl | rfl
  exacts [h0, h1, h2, h2]

/-- Places are told apart by the kinds of records and the stamps. -/
theorem place_eq_iff {r r' : SmokeRun} {slot slot' : Slot} (root : StoreRoot) (h : slot ∈ r.slots)
    (h' : slot' ∈ r'.slots) : slot.place root = slot'.place root ↔ slot = slot' := by
  obtain ⟨t, ht⟩ := exists_isoformat_of_mem_slots h
  obtain ⟨t', ht'⟩ := exists_isoformat_of_mem_slots h'
  have hplain : IsPlain (compact slot.stamp) := ht ▸ isPlain_compact_isoformat t
  have hplain' : IsPlain (compact slot'.stamp) := ht' ▸ isPlain_compact_isoformat t'
  rw [Slot.place_eq_iff root hplain hplain']
  have hstamp : compact slot.stamp = compact slot'.stamp ↔ slot.stamp = slot'.stamp := by
    rw [ht, ht', StructTime.compact_isoformat_inj]
  cases slot with
  | surface plane s =>
    cases slot' <;> simp_all [Slot.short, Slot.stamp]
  | delta plane s =>
    cases slot' <;> simp_all [Slot.short, Slot.stamp]
  | incident event s =>
    cases slot' <;> simp_all [Slot.short, Slot.stamp]

theorem Writes.mem_slots {r : SmokeRun} {slot : Slot} {doc : Dict} (h : r.Writes slot doc) :
    slot ∈ r.slots := by
  cases h <;> simp [slots]

/-! ### What is there in the end -/

/-- The records of a run are there: the second surface, the delta and the event, and the first
surface if it was not at the place of the second, or has its identifier. -/
structure Kept (root : StoreRoot) (st : RecordStore) (r : SmokeRun) : Prop where
  surface1 : SurfaceAt root st r.slot1 r.id1
  delta : ∃ doc, st.files (r.slotDelta.place root) = some (.record doc) ∧ r.IsDelta doc
  incident : ∃ doc, st.files (r.slotIncident.place root) = some (.record doc) ∧ r.IsIncident doc
  surface0 : SurfaceAt root st r.slot0 r.id0 ↔ r.created0 ≠ r.created1 ∨ r.id0 = r.id1

/-- A run comes after another: both are deterministic and it does not break off in the middle of a
record, or they have no time stamp in common. -/
def After (r r' : SmokeRun) : Prop :=
  r.deterministic = true ∧ r'.deterministic = true ∧ some .partway ∉ r'.failures ∨
    ∀ s ∈ [r.created0, r.created1, r.created2], ∀ s' ∈ [r'.created0, r'.created1, r'.created2],
      s ≠ s'

theorem recordId_surface0 (r : SmokeRun) : recordId r.surface0 = some (.str r.id0) :=
  recordId_of_lookup lookup_id_buildSurface

theorem recordId_surface1 (r : SmokeRun) : recordId r.surface1 = some (.str r.id1) :=
  recordId_of_lookup lookup_id_buildSurface

/-- **A run that returns has its records.** -/
theorem kept_of_smoke {rt : Runtime} {root : StoreRoot} {r : SmokeRun} {st st' : RecordStore}
    (h : st.smoke rt root r = (true, st')) : Kept root st' r := by
  obtain ⟨delta, incident, hdelta, hincident, hfiles⟩ := files_of_smoke rt root r h
  have h0 : r.slot0 ∈ r.slots := by simp [slots]
  have h1 : r.slot1 ∈ r.slots := by simp [slots]
  have hD : r.slotDelta ∈ r.slots := by simp [slots]
  have hI : r.slotIncident ∈ r.slots := by simp [slots]
  have hkind : ∀ slot ∈ [r.slot0, r.slot1], slot.place root ≠ r.slotDelta.place root ∧
      slot.place root ≠ r.slotIncident.place root := by
    intro slot hslot
    have hmem : slot ∈ r.slots := by
      rcases List.mem_pair.1 hslot with rfl | rfl
      · exact h0
      · exact h1
    rw [Ne, place_eq_iff root hmem hD, Ne, place_eq_iff root hmem hI]
    rcases List.mem_pair.1 hslot with rfl | rfl
    · exact ⟨nofun, nofun⟩
    · exact ⟨nofun, nofun⟩
  have hDI : r.slotDelta.place root ≠ r.slotIncident.place root := by
    rw [Ne, place_eq_iff root hD hI]
    nofun
  have hfile1 : st'.files (r.slot1.place root) = some (.record r.surface1) := by
    obtain ⟨hd, hi⟩ := hkind r.slot1 (by simp)
    rw [hfiles, Function.update_of_ne hi, Function.update_of_ne hd, Function.update_self]
  have hfile0 : st'.files (r.slot0.place root) =
      some (.record (if r.created0 = r.created1 then r.surface1 else r.surface0)) := by
    obtain ⟨hd, hi⟩ := hkind r.slot0 (by simp)
    have hsame : r.slot0.place root = r.slot1.place root ↔ r.created0 = r.created1 := by
      rw [place_eq_iff root h0 h1]
      simp [slot0, slot1]
    split
    · rename_i heq
      rw [hsame.2 heq]
      exact hfile1
    · rename_i hne
      rw [hfiles, Function.update_of_ne hi, Function.update_of_ne hd,
        Function.update_of_ne (mt hsame.1 hne), Function.update_self]
  refine ⟨⟨_, hfile1, r.recordId_surface1⟩, ⟨delta, ?_, hdelta⟩, ⟨incident, ?_, hincident⟩, ?_⟩
  · rw [hfiles, Function.update_of_ne hDI, Function.update_self]
  · rw [hfiles, Function.update_self]
  · rw [SurfaceAt, hfile0]
    by_cases heq : r.created0 = r.created1
    · rw [if_pos heq]
      simp [heq, r.recordId_surface1, eq_comm]
    · rw [if_neg heq]
      simp [heq, r.recordId_surface0]

/-- Deterministic runs have the same places and the same identifiers. -/
theorem eq_of_deterministic {r r' : SmokeRun} (h : r.deterministic = true)
    (h' : r'.deterministic = true) : (r'.slot0 = r.slot0 ∧ r'.slot1 = r.slot1) ∧
      r'.id0 = r.id0 ∧ r'.id1 = r.id1 ∧ r'.deltaId = r.deltaId ∧ r'.eventId = r.eventId := by
  simp [slot0, slot1, created0, created1, stampOr, id0, id1, deltaId, Truth.deltaId, args0, args1,
    deltaArgs, surfaceArgs, surfaceId, fixedId, orDefault, eventId, h, h']

/-- The places of a deterministic run are four. -/
theorem created_ne_of_deterministic {r : SmokeRun} (h : r.deterministic = true) :
    r.created0 ≠ r.created1 := by
  rw [created0, created1, stampOr, stampOr, if_pos h, if_pos h]
  decide

/-- **What a later run can do to a record**: nothing, or write the like. -/
theorem files_of_after {rt : Runtime} {root : StoreRoot} {r r' : SmokeRun} (hafter : After r r')
    (st : RecordStore) {slot : Slot} (h : slot ∈ r.slots) :
    (st.smoke rt root r').2.files (slot.place root) = st.files (slot.place root) ∨
      r.deterministic = true ∧ r'.deterministic = true ∧ ∃ doc, r'.Writes slot doc ∧
        (st.smoke rt root r').2.files (slot.place root) = some (.record doc) := by
  refine (files_smoke rt root r' st (slot.place root)).imp_right ?_
  intro ⟨slot', doc, failure, hwrites, hfailure, hplace, hfile⟩
  obtain rfl := (place_eq_iff root hwrites.mem_slots h).1 hplace
  rcases hafter with ⟨hdet, hdet', hwhole⟩ | hstamps
  · have hne : failure ≠ some .partway := fun heq ↦ hwhole (heq ▸ hfailure)
    rw [contentOf, if_neg hne] at hfile
    exact ⟨hdet, hdet', doc, hwrites, hfile⟩
  · -- the slot would be one of both runs
    have hstamp : ∀ {x : SmokeRun}, slot' ∈ x.slots →
        slot'.stamp ∈ [x.created0, x.created1, x.created2] := by
      intro x hx
      simp only [slots, List.mem_cons, List.not_mem_nil, or_false] at hx
      rcases hx with rfl | rfl | rfl | rfl <;>
        simp [slot0, slot1, slotDelta, slotIncident, Slot.stamp]
    exact absurd rfl (hstamps _ (hstamp h) _ (hstamp hwrites.mem_slots))

/-- What a deterministic run writes over a record of another is like it. -/
theorem Writes.like {r r' : SmokeRun} (h : r.deterministic = true) (h' : r'.deterministic = true)
    {slot : Slot} {doc : Dict} (hwrites : r'.Writes slot doc) :
    (slot = r.slot0 → recordId doc = some (.str r.id0)) ∧
      (slot = r.slot1 → recordId doc = some (.str r.id1)) ∧
      (slot = r.slotDelta → r.IsDelta doc) ∧ (slot = r.slotIncident → r.IsIncident doc) := by
  obtain ⟨⟨hslot0, hslot1⟩, hid0, hid1, hdelta, hevent⟩ := eq_of_deterministic h h'
  have hne : r.slot0 ≠ r.slot1 := by
    intro heq
    exact created_ne_of_deterministic h (Slot.surface.inj heq).2
  cases hwrites with
  | surface0 =>
    refine ⟨fun _ ↦ ?_, fun heq ↦ absurd (hslot0.symm.trans heq) hne, nofun, nofun⟩
    rw [r'.recordId_surface0, hid0]
  | surface1 =>
    refine ⟨fun heq ↦ absurd (hslot1.symm.trans heq).symm hne, fun _ ↦ ?_, nofun, nofun⟩
    rw [r'.recordId_surface1, hid1]
  | delta hdoc =>
    refine ⟨nofun, nofun, fun _ ↦ ⟨?_, ?_, ?_, hdoc.permits⟩, nofun⟩
    · rw [hdoc.id, hdelta]
    · rw [hdoc.fromRef, hid0]
    · rw [hdoc.toRef, hid1]
  | incident hdoc =>
    obtain ⟨refs, hrefs, hsurface, hdeltaRef⟩ := hdoc.refs
    refine ⟨nofun, nofun, nofun, fun _ ↦ ⟨?_, refs, hrefs, ?_, ?_⟩⟩
    · rw [hdoc.id, hevent]
    · rw [hsurface, hid1]
    · rw [hdeltaRef, hdelta]

/-- **A later run leaves the records there.** -/
theorem Kept.smoke {rt : Runtime} {root : StoreRoot} {r r' : SmokeRun} {st : RecordStore}
    (hk : Kept root st r) (hafter : After r r') : Kept root (st.smoke rt root r').2 r := by
  have hslots : r.slot0 ∈ r.slots ∧ r.slot1 ∈ r.slots ∧ r.slotDelta ∈ r.slots ∧
      r.slotIncident ∈ r.slots := by
    simp [slots]
  obtain ⟨h0, h1, hD, hI⟩ := hslots
  refine ⟨?_, ?_, ?_, ?_⟩
  · rcases @files_of_after rt root r r' hafter st _ h1 with
      hsame | ⟨hdet, hdet', doc, hwrites, hfile⟩
    · rw [SurfaceAt, hsame]
      exact hk.surface1
    · exact ⟨doc, hfile, (hwrites.like hdet hdet').2.1 rfl⟩
  · rcases @files_of_after rt root r r' hafter st _ hD with
      hsame | ⟨hdet, hdet', doc, hwrites, hfile⟩
    · rw [hsame]
      exact hk.delta
    · exact ⟨doc, hfile, (hwrites.like hdet hdet').2.2.1 rfl⟩
  · rcases @files_of_after rt root r r' hafter st _ hI with
      hsame | ⟨hdet, hdet', doc, hwrites, hfile⟩
    · rw [hsame]
      exact hk.incident
    · exact ⟨doc, hfile, (hwrites.like hdet hdet').2.2.2 rfl⟩
  · rcases @files_of_after rt root r r' hafter st _ h0 with
      hsame | ⟨hdet, hdet', doc, hwrites, hfile⟩
    · rw [SurfaceAt, hsame]
      exact hk.surface0
    · -- it was there, and is again
      exact iff_of_true ⟨doc, hfile, (hwrites.like hdet hdet').1 rfl⟩
        (Or.inl (created_ne_of_deterministic hdet))

end SmokeRun

open SmokeRun in
/-- **The references resolve**, whatever was in the store before. Take any runs of the harness on
one store root, of which any two have no time stamp in common, or are both deterministic and the
later does not break off in the middle of a record; otherwise any of them may fail at any point. In
the end, for each run that returned, the second surface is at its place, and so are the delta, which
goes from the first surface to the second and permits, and the event, which refers to the second
surface and to the delta, each with its identifier. The first surface, from which the delta goes, is
at its place if and only if the clock was not read twice in the same second. -/
theorem smoke_references_resolve (rt : Runtime) (root : StoreRoot) {runs : List SmokeRun}
    (hruns : runs.Pairwise After) (st : RecordStore) {pre post : List SmokeRun} {r : SmokeRun}
    (hsplit : runs = pre ++ r :: post)
    (hreturned : (((harness rt root).after st pre).smoke rt root r).1 = true) :
    Kept root ((harness rt root).after st runs) r := by
  subst hsplit
  obtain ⟨-, hrest, -⟩ := List.pairwise_append.1 hruns
  have hpost := (List.pairwise_cons.1 hrest).1
  rw [Machine.after_append, Machine.after_cons]
  set before := (harness rt root).after st pre
  have hown : Kept root (before.smoke rt root r).2 r := by
    exact kept_of_smoke (Prod.ext hreturned rfl)
  refine Machine.inv_after_of_mem (I := fun s ↦ Kept root s r) hown fun s r' hr' hs ↦ ?_
  exact hs.smoke (hpost r' hr')

/-- A run that nothing makes fail, with the clock read at three minutes. -/
def smokeAt (deterministic : Bool) (m n k : Fin 60) : SmokeRun :=
  ⟨deterministic, (tickAt m none ['a']).host, (tickAt n none ['b']).host, minute m, minute n,
    minute k, ['u'], false, none, none, none, none⟩

/-- Such a run returns on an empty store root. -/
theorem returned_smokeAt : (RecordStore.empty.smoke Runtime.ascii defaultRoot
    (smokeAt false 3 3 4)).1 = true := by
  obtain ⟨delta, hdelta, -⟩ := (smokeAt false 3 3 4).exists_delta Runtime.ascii
  -- whether the writes return does not depend on what is written
  have hwrites : ∀ d d' e e' : Dict,
      (match RecordStore.empty.emitAll defaultRoot [(none, (smokeAt false 3 3 4).slot0, d),
          (none, (smokeAt false 3 3 4).slot1, d')] with
        | (false, st) => (false, st)
        | (true, st) => st.emitAll defaultRoot [(none, (smokeAt false 3 3 4).slotDelta, e),
            (none, (smokeAt false 3 3 4).slotIncident, e')]).1 = true :=
    fun _ _ _ _ ↦ rfl
  have hinit : ¬ (smokeAt false 3 3 4).initFails = true := by decide
  rw [RecordStore.smoke, if_neg hinit, hdelta]
  generalize (smokeAt false 3 3 4).surface0 = d
  generalize (smokeAt false 3 3 4).surface1 = d'
  generalize (smokeAt false 3 3 4).incident d' delta = e'
  exact hwrites d d' delta e'

open SmokeRun in
/-- The first reading of the clock is repeated within the second: the delta of the run goes from a
surface that is not there, also after another run. -/
theorem smoke_references_resolve_within_second :
    SurfaceAt defaultRoot ((harness Runtime.ascii defaultRoot).after .empty
        [smokeAt false 3 3 4, smokeAt true 5 6 7])
      (smokeAt false 3 3 4).slot1 (smokeAt false 3 3 4).id1 ∧
    ¬ SurfaceAt defaultRoot ((harness Runtime.ascii defaultRoot).after .empty
        [smokeAt false 3 3 4, smokeAt true 5 6 7])
      (smokeAt false 3 3 4).slot0 (smokeAt false 3 3 4).id0 := by
  have hafter : [smokeAt false 3 3 4, smokeAt true 5 6 7].Pairwise After :=
    List.pairwise_pair.2 (Or.inr (by decide))
  have hreturned : (((harness Runtime.ascii defaultRoot).after .empty []).smoke
      Runtime.ascii defaultRoot (smokeAt false 3 3 4)).1 = true := by
    rw [Machine.after_nil]
    exact returned_smokeAt
  have hsplit : [smokeAt false 3 3 4, smokeAt true 5 6 7] =
      [] ++ smokeAt false 3 3 4 :: [smokeAt true 5 6 7] := rfl
  have hkept := smoke_references_resolve Runtime.ascii defaultRoot hafter .empty hsplit
    hreturned
  have hids : (smokeAt false 3 3 4).id0 ≠ (smokeAt false 3 3 4).id1 := by
    simp [SmokeRun.id0, SmokeRun.id1, SmokeRun.args0, SmokeRun.args1, SmokeRun.surfaceArgs,
      surfaceId, SmokeRun.fixedId, orDefault, smokeAt, tickAt]
  have hstamps : (smokeAt false 3 3 4).created0 = (smokeAt false 3 3 4).created1 := by
    simp [SmokeRun.created0, SmokeRun.created1, SmokeRun.stampOr, smokeAt]
  refine ⟨hkept.surface1, ?_⟩
  rw [hkept.surface0, not_or, not_ne_iff]
  exact ⟨hstamps, hids⟩

end SourceOS.Truth
