import Mathlib.Data.List.Perm.Basic
import SourceOS.Foundation.Run
import SourceOS.Truth.Delta

/-!
# The Truth Plane tick

`main` of `tools/sourceos_truth_plane_tick.py`: a tick emits a surface for a plane, writes it into a
directory named by its time, compares the latest two surfaces there are, and leaves a pointer to the
new one for operators, in a directory `LATEST` beside the others.

The latest two are found by sorting the names of the directories, and `LATEST` sorts behind every
time. So from the second tick on the pair is **the new surface and the one that the pointer still
shows**, in this order: the delta goes from the new surface to the old one
(`exists_reversed_delta`). `delta_pair_iff` says when this cannot be noticed.

A store is modelled for one plane: the surfaces and the deltas with the names of their directories.
What is written as JSON is read back as the object it was.
-/

namespace SourceOS.Truth

open Text Json

/-! ### The store -/

/-- The directories of a plane, each with the object in it. -/
structure TruthStore where
  /-- `truth/surfaces/<plane>`. -/
  surfaces : List (Str × Dict)
  /-- `truth/deltas/<plane>`. -/
  deltas : List (Str × Dict)

/-- A store root that is empty. -/
def TruthStore.empty : TruthStore :=
  ⟨[], []⟩

/-- An object written into a directory, over what was there. -/
def put (name : Str) (doc : Dict) (dirs : List (Str × Dict)) : List (Str × Dict) :=
  dirs.filter (·.1 ≠ name) ++ [(name, doc)]

/-- The order of directories, by name. -/
def ByDir (e f : Str × Dict) : Prop :=
  e.1 ≤ f.1

instance : DecidableRel ByDir := fun e f ↦ inferInstanceAs (Decidable (e.1 ≤ f.1))

instance : IsTrans (Str × Dict) ByDir := ⟨fun _ _ _ h h' ↦ le_trans h h'⟩

instance : Std.Total ByDir := ⟨fun e f ↦ le_total e.1 f.1⟩

/-- `_list_surface_dirs`. -/
def listSurfaceDirs (dirs : List (Str × Dict)) : List (Str × Dict) :=
  dirs.insertionSort ByDir

/-- `_latest_two_surfaces`, read. -/
def latestTwoSurfaces (dirs : List (Str × Dict)) : Option (Dict × Dict) :=
  match (listSurfaceDirs dirs).reverse with
  | b :: a :: _ => some (a.2, b.2)
  | _ => none

/-- `doc["createdAt"]` without colons and hyphens. -/
def created (doc : Dict) : Str :=
  match doc.lookup "createdAt".toList with
  | some (.str s) => compact s
  | _ => []

/-- The name of the operators' pointer. -/
def latest : Str :=
  "LATEST".toList

/-! ### A tick -/

/-- A call of the tick: its arguments, and what it reads. -/
structure TickInput where
  /-- `--id-suffix`. -/
  idSuffix : Option Str
  /-- `--policy-pack-digest`. -/
  policyPackDigest : Option Str
  /-- `--evidence-required`. -/
  evidenceRequired : List Str
  /-- `--evidence-present`. -/
  evidencePresent : List Str
  /-- What the surface emitter reads. -/
  host : Host
  /-- The identifier that `uuid` would make up for the delta. -/
  deltaUuid : Str
  /-- The clock of the delta. -/
  deltaNow : StructTime

/-- What a tick emits. -/
structure Emitted where
  /-- The surface. -/
  surface : Dict
  /-- The delta, if there is one. -/
  delta : Option Dict

section Tick

variable (lower : Str → Str) (rt : Runtime) (plane : Str)

/-- A deterministic identifier, if a suffix is given; `lower` is `str.lower`. -/
def suffixed (stem : Str) : Option Str → Option Str
  | some (c :: s) => some (lower (stem ++ c :: s))
  | _ => none

/-- The arguments that the surface is built with. -/
def surfaceArgs (i : TickInput) : SurfaceArgs where
  plane := plane
  specVersion := "2.0.0".toList
  id := suffixed lower "urn:srcos:truth-surface:ts_".toList i.idSuffix
  createdAt := none
  signer := "sourceos-truth-surface".toList
  policyPackDigest := i.policyPackDigest
  riskScore := 0
  riskThreshold := 30
  humanApprovalRequired := false
  humanApproved := false
  evidenceRequired := i.evidenceRequired
  evidencePresent := i.evidencePresent
  policyDecisionRef := []
  capabilityTokenId := []
  runRecordRef := []
  provenanceRef := []
  telemetryRef := []
  evidenceBundleRef := []
  cairnBeforeRef := none
  cairnAfterRef := none
  anchor := []
  topic := ["boot.integrity".toList]
  glossaryRef := []
  extraHashPath := []

/-- The gate arguments of a tick. -/
def gateArgs : GateArgs :=
  ⟨0, 30, false, false⟩

/-- The arguments that the delta is built with. -/
def deltaArgs (i : TickInput) : DeltaArgs where
  specVersion := "2.0.0".toList
  id := suffixed lower "urn:srcos:delta-surface:ds_".toList i.idSuffix
  createdAt := none
  signer := "sourceos-delta-surface".toList
  fromRef := none
  toRef := none
  gate := gateArgs

/-- The surface that a tick builds. -/
def surfaceOf (i : TickInput) : Dict :=
  buildSurface (surfaceArgs lower plane i) i.host

/-- Its identifier. -/
def idOf (i : TickInput) : Str :=
  surfaceId (surfaceArgs lower plane i) i.host

/-- Ticks for one plane. A tick whose delta raises has written its surface and nothing else, and
emits nothing. -/
def tick : Machine TruthStore TickInput (Option Emitted) where
  step st i :=
    let surface := surfaceOf lower plane i
    let surfaces := put (created surface) surface st.surfaces
    match latestTwoSurfaces surfaces with
    | none => (⟨put latest surface surfaces, st.deltas⟩, some ⟨surface, none⟩)
    | some (fromTs, toTs) =>
      match buildDelta rt fromTs toTs (deltaArgs lower i) i.deltaUuid i.deltaNow with
      | none => (⟨surfaces, st.deltas⟩, none)
      | some delta =>
        (⟨put latest surface surfaces, put (created delta) delta st.deltas⟩,
          some ⟨surface, some delta⟩)

end Tick

/-! ### The latest two directories -/

/-- The last one of a sorted listing is the one behind all others. -/
theorem exists_concat_of_sorted {s rest : List (Str × Dict)} {x : Str × Dict}
    (hs : s.Pairwise ByDir) (hperm : s.Perm (rest ++ [x])) (hlast : ∀ r ∈ rest, r.1 < x.1) :
    ∃ s', s = s' ++ [x] ∧ s'.Perm rest := by
  have hx : x ∈ s := hperm.mem_iff.2 (by simp)
  rcases List.eq_nil_or_concat' s with rfl | ⟨s', z, rfl⟩
  · exact absurd hx List.not_mem_nil
  · obtain rfl : z = x := by
      by_contra hne
      have hz : z ∈ rest ++ [x] := hperm.mem_iff.1 (by simp)
      have hlt : z.1 < x.1 :=
        hlast z ((List.mem_append.1 hz).resolve_right fun h ↦ hne (List.mem_singleton.1 h))
      have hx' : x ∈ s' :=
        (List.mem_append.1 hx).resolve_right fun h ↦ hne (List.mem_singleton.1 h).symm
      have hle : x.1 ≤ z.1 := (List.pairwise_append.1 hs).2.2 x hx' z (by simp)
      exact not_lt_of_ge hle hlt
    exact ⟨s', rfl, (List.perm_append_right_iff [z]).1 hperm⟩

/-- **The latest two**, of directories of which two are behind all others. -/
theorem latestTwoSurfaces_of_perm {dirs rest : List (Str × Dict)} {x y : Str × Dict}
    (hperm : dirs.Perm (rest ++ [y] ++ [x])) (hy : ∀ r ∈ rest, r.1 < y.1)
    (hx : ∀ r ∈ rest ++ [y], r.1 < x.1) : latestTwoSurfaces dirs = some (y.2, x.2) := by
  have hsorted : (listSurfaceDirs dirs).Pairwise ByDir := List.pairwise_insertionSort ByDir dirs
  obtain ⟨s, hs, hsperm⟩ := exists_concat_of_sorted hsorted
    ((List.perm_insertionSort ByDir dirs).trans hperm) hx
  rw [hs] at hsorted
  obtain ⟨s', rfl, -⟩ :=
    exists_concat_of_sorted (List.pairwise_append.1 hsorted).1 hsperm hy
  rw [latestTwoSurfaces, hs]
  simp

/-! ### What a tick leaves behind -/

section Run

variable {lower : Str → Str} {rt : Runtime} {plane : Str}

theorem created_surfaceOf (i : TickInput) :
    created (surfaceOf lower plane i) = compact i.host.now.isoformat := by
  have h : (surfaceOf lower plane i).lookup "createdAt".toList =
      some (.str i.host.now.isoformat) := lookup_createdAt_buildSurface
  rw [created, h]

theorem compact_lt_latest (t : StructTime) : compact t.isoformat < latest :=
  t.compact_lt_of_letter (by decide) "ATEST".toList

variable (lower plane) in
/-- After a tick there are directories named by times up to its own, and the pointer to its
surface. -/
def Pointed (surfaces : List (Str × Dict)) (i : TickInput) : Prop :=
  ∃ rest, surfaces.Perm (rest ++ [(latest, surfaceOf lower plane i)]) ∧
    ∀ r ∈ rest, ∃ t : StructTime, r.1 = compact t.isoformat ∧ ∀ u, i.host.now < u → t < u

/-- The surface of the next tick gets a directory of its own. -/
theorem put_created {surfaces : List (Str × Dict)} {i j : TickInput}
    (h : Pointed lower plane surfaces i) (hij : i.host.now < j.host.now) :
    ∃ rest, (put (created (surfaceOf lower plane j)) (surfaceOf lower plane j) surfaces).Perm
        (rest ++ [(created (surfaceOf lower plane j), surfaceOf lower plane j)] ++
          [(latest, surfaceOf lower plane i)]) ∧
      ∀ r ∈ rest, ∃ t : StructTime, r.1 = compact t.isoformat ∧ ∀ u, i.host.now < u → t < u := by
  obtain ⟨rest, hperm, hrest⟩ := h
  refine ⟨rest, ?_, hrest⟩
  have hfresh : surfaces.filter (·.1 ≠ created (surfaceOf lower plane j)) = surfaces := by
    refine List.filter_eq_self.2 fun r hr ↦ decide_eq_true ?_
    rw [created_surfaceOf]
    rcases List.mem_append.1 (hperm.mem_iff.1 hr) with hr | hr
    · obtain ⟨t, ht, hlt⟩ := hrest r hr
      rw [ht]
      exact fun h ↦ List.lt_irrefl _ (h ▸ StructTime.compact_lt_compact (hlt _ hij))
    · rw [List.mem_singleton.1 hr]
      exact fun h ↦ List.lt_irrefl _ (h ▸ compact_lt_latest j.host.now)
  rw [put, hfresh]
  refine (hperm.append_right _).trans ?_
  rw [List.append_assoc, List.append_assoc]
  exact (List.perm_append_comm).append_left rest

/-- **The pair of a tick** that is not the first: its own surface, and the one before it. -/
theorem latestTwoSurfaces_put {surfaces : List (Str × Dict)} {i j : TickInput}
    (h : Pointed lower plane surfaces i) (hij : i.host.now < j.host.now) :
    latestTwoSurfaces (put (created (surfaceOf lower plane j)) (surfaceOf lower plane j) surfaces) =
      some (surfaceOf lower plane j, surfaceOf lower plane i) := by
  obtain ⟨rest, hperm, hrest⟩ := put_created h hij
  refine latestTwoSurfaces_of_perm hperm (fun r hr ↦ ?_) fun r hr ↦ ?_
  · obtain ⟨t, ht, hlt⟩ := hrest r hr
    rw [ht, created_surfaceOf]
    exact StructTime.compact_lt_compact (hlt _ hij)
  · rcases List.mem_append.1 hr with hr | hr
    · obtain ⟨t, ht, -⟩ := hrest r hr
      rw [ht]
      exact compact_lt_latest t
    · rw [List.mem_singleton.1 hr, created_surfaceOf]
      exact compact_lt_latest _

/-- The pointer is moved to the new surface. -/
theorem pointed_put_latest {surfaces rest : List (Str × Dict)} {doc : Dict} {i : TickInput}
    (hperm : surfaces.Perm (rest ++ [(latest, doc)]))
    (hrest : ∀ r ∈ rest, ∃ t : StructTime, r.1 = compact t.isoformat ∧
      ∀ u, i.host.now < u → t < u) :
    Pointed lower plane (put latest (surfaceOf lower plane i) surfaces) i := by
  refine ⟨rest, ?_, hrest⟩
  have hfilter : (surfaces.filter (·.1 ≠ latest)).Perm rest := by
    refine (hperm.filter _).trans ?_
    rw [List.filter_append, List.filter_eq_self.2, List.filter_eq_nil_iff.2, List.append_nil]
    · intro r hr
      rw [List.mem_singleton.1 hr]
      simp
    · intro r hr
      obtain ⟨t, ht, -⟩ := hrest r hr
      rw [ht, decide_eq_true_iff]
      exact fun h ↦ List.lt_irrefl _ (h ▸ compact_lt_latest t)
  exact hfilter.append_right _

/-- The first tick. -/
theorem pointed_first (i : TickInput) :
    Pointed lower plane ((tick lower rt plane).step .empty i).1.surfaces i := by
  have hpair : latestTwoSurfaces
      (put (created (surfaceOf lower plane i)) (surfaceOf lower plane i) []) = none := rfl
  have hstep : ((tick lower rt plane).step .empty i).1.surfaces =
      put latest (surfaceOf lower plane i)
        (put (created (surfaceOf lower plane i)) (surfaceOf lower plane i) []) := by
    simp only [tick, TruthStore.empty, hpair]
  rw [hstep, put, created_surfaceOf]
  refine ⟨[(compact i.host.now.isoformat, surfaceOf lower plane i)], ?_, ?_⟩
  · have hne : compact i.host.now.isoformat ≠ latest :=
      fun h ↦ List.lt_irrefl _ (h ▸ compact_lt_latest i.host.now)
    have hfilter : [(compact i.host.now.isoformat, surfaceOf lower plane i)].filter (·.1 ≠ latest) =
        [(compact i.host.now.isoformat, surfaceOf lower plane i)] := by
      simp [hne]
    rw [put, List.filter_nil, List.nil_append, hfilter]
  · intro r hr
    rw [List.mem_singleton.1 hr]
    exact ⟨i.host.now, rfl, fun _ h ↦ h⟩

/-- **What a tick that is not the first emits**: the delta from its own surface to the one before
it. It leaves the pointer to its own surface. -/
theorem exists_reversed_delta {st : TruthStore} {i j : TickInput}
    (h : Pointed lower plane st.surfaces i) (hij : i.host.now < j.host.now) :
    (∃ delta gate, ((tick lower rt plane).step st j).2 =
        some ⟨surfaceOf lower plane j, some delta⟩ ∧
      computeGate rt (surfaceOf lower plane j) (surfaceOf lower plane i) gateArgs = some gate ∧
      delta.lookup "fromRef".toList = some (.str (idOf lower plane j)) ∧
      delta.lookup "toRef".toList = some (.str (idOf lower plane i)) ∧
      delta.lookup "gate".toList = some (.obj gate)) ∧
    Pointed lower plane ((tick lower rt plane).step st j).1.surfaces j := by
  obtain ⟨delta, gate, hdelta, hgate, hfrom, hto, hmember⟩ :=
    @exists_buildDelta rt (surfaceArgs lower plane j) j.host (surfaceArgs lower plane i) i.host
      (deltaArgs lower j) j.deltaUuid j.deltaNow
  have hdelta : buildDelta rt (surfaceOf lower plane j) (surfaceOf lower plane i)
      (deltaArgs lower j) j.deltaUuid j.deltaNow = some delta := hdelta
  have hstep : (tick lower rt plane).step st j =
      (⟨put latest (surfaceOf lower plane j)
          (put (created (surfaceOf lower plane j)) (surfaceOf lower plane j) st.surfaces),
        put (created delta) delta st.deltas⟩, some ⟨surfaceOf lower plane j, some delta⟩) := by
    simp only [tick, latestTwoSurfaces_put h hij, hdelta]
  rw [hstep]
  refine ⟨⟨delta, gate, rfl, hgate, hfrom, hto, hmember⟩, ?_⟩
  obtain ⟨rest, hperm, hrest⟩ := put_created h hij
  refine pointed_put_latest hperm fun r hr ↦ ?_
  rcases List.mem_append.1 hr with hr | hr
  · obtain ⟨t, ht, hlt⟩ := hrest r hr
    exact ⟨t, ht, fun u hu ↦ hlt u (List.lt_trans hij hu)⟩
  · rw [List.mem_singleton.1 hr]
    exact ⟨j.host.now, created_surfaceOf j, fun _ hu ↦ hu⟩

/-- **After every run** the pointer is at the surface of the last tick. -/
theorem pointed_after {pre : List TickInput} {i : TickInput}
    (htimes : ((pre ++ [i]).map (·.host.now)).Pairwise (· < ·)) :
    Pointed lower plane ((tick lower rt plane).after .empty (pre ++ [i])).surfaces i := by
  induction pre using List.reverseRecOn generalizing i with
  | nil => exact pointed_first i
  | append_singleton pre j ih =>
    rw [List.map_append, List.pairwise_append] at htimes
    rw [Machine.after_append]
    exact (exists_reversed_delta (ih htimes.1)
      (htimes.2.2 j.host.now (by simp) i.host.now (by simp))).2

end Run

/-- Two ticks with the same sets of evidence; the empty string is none. -/
def SameEvidence (i j : TickInput) : Prop :=
  ∀ s, s ≠ [] → (s ∈ i.evidenceRequired ↔ s ∈ j.evidenceRequired) ∧
    (s ∈ i.evidencePresent ↔ s ∈ j.evidencePresent)

/-- The gates of two surfaces are the same exactly when the evidence is. -/
theorem computeGate_eq_iff {lower : Str → Str} {rt : Runtime} {plane : Str}
    (fromTs fromTs' : Dict) (i j : TickInput) :
    computeGate rt fromTs (surfaceOf lower plane i) gateArgs =
      computeGate rt fromTs' (surfaceOf lower plane j) gateArgs ↔ SameEvidence i j := by
  have hfacts : ∀ k : TickInput, gateFacts rt (surfaceOf lower plane k) gateArgs =
      some (.ofStrings (sortedSet (k.evidenceRequired.filter (· ≠ [])))
        (sortedSet (k.evidencePresent.filter (· ≠ []))) 0 30 false false) :=
    fun k ↦ gateFacts_buildSurface gateArgs
  have hidem : ∀ ss : List Str, sortedSet (sortedSet ss) = sortedSet ss :=
    fun ss ↦ sortedSet_eq_iff.2 fun s ↦ mem_sortedSet
  have hinj : Function.Injective (List.map (Json.str : Str → Json)) :=
    List.map_injective_iff.2 fun _ _ ↦ Json.str.inj
  rw [computeGate, computeGate, hfacts, hfacts, Option.map_some, Option.map_some,
    Option.some_inj]
  have hsets : SameEvidence i j ↔
      sortedSet (i.evidenceRequired.filter (· ≠ [])) =
          sortedSet (j.evidenceRequired.filter (· ≠ [])) ∧
        sortedSet (i.evidencePresent.filter (· ≠ [])) =
          sortedSet (j.evidencePresent.filter (· ≠ [])) := by
    rw [sortedSet_eq_iff, sortedSet_eq_iff, ← forall_and]
    refine forall_congr' fun s ↦ ?_
    by_cases hs : s = []
    · simp [hs]
    · simp [hs]
  rw [hsets]
  constructor
  · intro h
    obtain ⟨hrequired, hpresent⟩ := GateFacts.evidence_eq_of_gate_eq h
    replace hrequired := hinj hrequired
    replace hpresent := hinj hpresent
    rw [hidem, hidem] at hrequired hpresent
    exact ⟨hrequired, hpresent⟩
  · rintro ⟨hrequired, hpresent⟩
    rw [hrequired, hpresent]

/-- **When a delta is from the last surface to the new one.** In a run of ticks at increasing times,
every tick but the first writes a delta; it goes from the surface before to the surface of the tick,
with the gate of this pair, exactly when the two surfaces have the same identifier and the two ticks
the same evidence — when it cannot be told which is which. -/
theorem delta_pair_iff (lower : Str → Str) (rt : Runtime) (plane : Str) (ticks : List TickInput)
    (htimes : (ticks.map (·.host.now)).Pairwise (· < ·)) (k : ℕ) (hk : k + 1 < ticks.length) :
    ∃ delta, ((tick lower rt plane).step
        ((tick lower rt plane).after .empty (ticks.take (k + 1))) ticks[k + 1]).2 =
          some ⟨surfaceOf lower plane ticks[k + 1], some delta⟩ ∧
      ((delta.lookup "fromRef".toList = (surfaceOf lower plane ticks[k]).lookup "id".toList ∧
        delta.lookup "toRef".toList = (surfaceOf lower plane ticks[k + 1]).lookup "id".toList ∧
        delta.lookup "gate".toList = (computeGate rt (surfaceOf lower plane ticks[k])
          (surfaceOf lower plane ticks[k + 1]) gateArgs).map .obj) ↔
      idOf lower plane ticks[k] = idOf lower plane ticks[k + 1] ∧
        SameEvidence ticks[k] ticks[k + 1]) := by
  have htake : ticks.take (k + 1) = ticks.take k ++ [ticks[k]] :=
    List.take_succ_eq_append_getElem (by omega)
  have hlt : ticks[k].host.now < ticks[k + 1].host.now := by
    have := List.pairwise_iff_getElem.1 htimes k (k + 1) (by simp; omega) (by simpa) (by omega)
    simpa using this
  have hpointed : Pointed lower plane
      ((tick lower rt plane).after .empty (ticks.take (k + 1))).surfaces ticks[k] := by
    rw [htake]
    refine pointed_after ?_
    rw [← htake]
    exact htimes.sublist ((List.take_sublist _ _).map _)
  obtain ⟨⟨delta, gate, hemitted, hgate, hfrom, hto, hmember⟩, -⟩ :=
    @exists_reversed_delta lower rt plane _ _ _ hpointed hlt
  have hid : ∀ i, (surfaceOf lower plane i).lookup "id".toList = some (.str (idOf lower plane i)) :=
    fun i ↦ lookup_id_buildSurface
  refine ⟨delta, hemitted, ?_⟩
  rw [hfrom, hto, hmember, hid, hid]
  have hgates : some (Json.obj gate) = (computeGate rt (surfaceOf lower plane ticks[k])
      (surfaceOf lower plane ticks[k + 1]) gateArgs).map .obj ↔
      SameEvidence ticks[k] ticks[k + 1] := by
    rw [← computeGate_eq_iff (surfaceOf lower plane ticks[k + 1]) (surfaceOf lower plane ticks[k]),
      hgate]
    rcases computeGate rt (surfaceOf lower plane ticks[k]) (surfaceOf lower plane ticks[k + 1])
      gateArgs with _ | gate'
    · simp
    · simp
  rw [hgates]
  constructor
  · rintro ⟨-, hids, hevidence⟩
    exact ⟨Json.str.inj (Option.some.inj hids), hevidence⟩
  · rintro ⟨hids, hevidence⟩
    rw [hids]
    exact ⟨rfl, rfl, hevidence⟩

/-- A minute of an hour. -/
def minute (m : Fin 60) : StructTime :=
  { StructTime.midnight 2026 4 15 (by decide) (by decide) (by decide) with
    min := m
    min_ok := by omega }

/-- A tick at a minute, with the default evidence. -/
def tickAt (m : Fin 60) (idSuffix : Option Str) (uuid : Str) : TickInput where
  idSuffix := idSuffix
  policyPackDigest := none
  evidenceRequired := ["logs".toList, "policy_decision".toList]
  evidencePresent := ["logs".toList]
  host := ⟨minute m, uuid, ⟨[], [], [], [], [], []⟩, none, none, fun _ ↦ none⟩
  deltaUuid := uuid
  deltaNow := minute m

/-- The ticks of a sealed system, on an interpreter that knows about ASCII. -/
def sealedTick : Machine TruthStore TickInput (Option Emitted) :=
  tick id Runtime.ascii "system.sealed".toList

/-- Two ticks with one identifier and one kind of evidence. -/
theorem delta_pair_iff_demo :
    let i := tickAt 0 (some "demo_0001".toList) "a".toList
    let j := tickAt 1 (some "demo_0001".toList) "b".toList
    ∃ delta, (sealedTick.step (sealedTick.after .empty [i]) j).2 =
        some ⟨surfaceOf id "system.sealed".toList j, some delta⟩ ∧
      delta.lookup "fromRef".toList = (surfaceOf id "system.sealed".toList i).lookup "id".toList ∧
      delta.lookup "toRef".toList = (surfaceOf id "system.sealed".toList j).lookup "id".toList := by
  intro i j
  have htimes : ([i, j].map (·.host.now)).Pairwise (· < ·) :=
    List.pairwise_pair.2 (show minute 0 < minute 1 by decide)
  obtain ⟨delta, hemitted, hiff⟩ := delta_pair_iff id Runtime.ascii "system.sealed".toList
    [i, j] htimes 0 (by decide)
  obtain ⟨hfrom, hto, -⟩ := hiff.2 ⟨rfl, fun _ _ ↦ ⟨Iff.rfl, Iff.rfl⟩⟩
  simp only [Nat.zero_add, List.take_succ_cons, List.take_zero, List.getElem_cons_zero,
    List.getElem_cons_succ] at hemitted hfrom hto
  rw [sealedTick]
  exact ⟨delta, hemitted, hfrom, hto⟩

/-- **The delta is reversed.** Of two ticks with identifiers of their own, the second writes a delta
that does not come from the first surface. -/
theorem delta_not_from_first :
    let i := tickAt 0 none "a".toList
    let j := tickAt 1 none "b".toList
    ∃ delta, (sealedTick.step (sealedTick.after .empty [i]) j).2 =
        some ⟨surfaceOf id "system.sealed".toList j, some delta⟩ ∧
      delta.lookup "fromRef".toList ≠
        (surfaceOf id "system.sealed".toList i).lookup "id".toList := by
  intro i j
  obtain ⟨⟨delta, gate, hemitted, -, hfrom, -, -⟩, -⟩ :=
    @exists_reversed_delta id Runtime.ascii "system.sealed".toList _ i j
      (@pointed_first id Runtime.ascii "system.sealed".toList i)
      (show minute 0 < minute 1 by decide)
  rw [sealedTick, Machine.after_cons, Machine.after_nil]
  refine ⟨delta, hemitted, fun h ↦ ?_⟩
  have hid : (surfaceOf id "system.sealed".toList i).lookup "id".toList =
      some (.str (idOf id "system.sealed".toList i)) := lookup_id_buildSurface
  rw [hfrom, hid] at h
  have hne : idOf id "system.sealed".toList j ≠ idOf id "system.sealed".toList i := by decide
  exact hne (Json.str.inj (Option.some.inj h))

end SourceOS.Truth
