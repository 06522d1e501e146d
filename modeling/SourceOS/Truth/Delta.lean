import SourceOS.Foundation.JsonSet
import SourceOS.Foundation.Lists
import SourceOS.Truth.Surface

/-!
# The DeltaSurface emitter

`build_delta` and `compute_gate` of `tools/sourceos_delta_surface.py`: two TruthSurfaces are
compared, and the gate says whether the second one is to be permitted — by the evidence it requires
and has, by its risk score, and by human approval.

The gate looks at the *to* surface only: which of two surfaces is which decides everything about it.

Both functions read JSON that may come from anywhere. Evidence and topics are put in sets, so they
may be anything that can be hashed, and the evidence has to be sorted as well. `build_surface`
writes strings. Where the source raises, the result is `none`.
-/

namespace SourceOS.Truth

open Text Json Python

variable (rt : Runtime)

/-! ### Reading a surface -/

/-- `d.get(k) or {}`, if that is a dictionary. -/
def sectionOf? (d : Dict) (k : Str) : Option Dict :=
  match d.lookup k with
  | none => some []
  | some (.obj ms) => some ms
  | some j => if truthy j then none else some []

/-- `_listify`. -/
def listify : Option Json → List Json
  | none => []
  | some .null => []
  | some (.arr xs) => xs
  | some j => [j]

/-! ### The gate -/

/-- What the gate falls back on where a surface says nothing. -/
structure GateArgs where
  riskScore : ℤ
  riskThreshold : ℤ
  humanApprovalRequired : Bool
  humanApproved : Bool

/-- What a gate decides from. -/
structure GateFacts where
  /-- The evidence that is required, in order. -/
  required : List Json
  /-- The evidence that is present, in order. -/
  present : List Json
  /-- The evidence that is missing, in order. -/
  missing : List Json
  riskScore : ℤ
  riskThreshold : ℤ
  humanRequired : Bool
  humanApproved : Bool

/-- The facts of a surface. -/
def gateFacts (toTs : Dict) (args : GateArgs) : Option GateFacts := do
  let ev ← sectionOf? toTs "evidence".toList
  let required ← setOf? rt (listify (ev.lookup "required".toList))
  let present ← setOf? rt (listify (ev.lookup "present".toList))
  let missing ← sorted? (difference required present)
  let gov ← sectionOf? toTs "governance".toList
  let riskScore ← (int rt ((gov.lookup "riskScore".toList).getD (.int args.riskScore))).toOption
  let riskThreshold ←
    (int rt ((gov.lookup "riskThreshold".toList).getD (.int args.riskThreshold))).toOption
  let humanRequired :=
    truthy ((gov.lookup "humanApprovalRequired".toList).getD (.bool args.humanApprovalRequired))
  let humanApproved :=
    truthy ((gov.lookup "humanApproved".toList).getD (.bool args.humanApproved))
  let evidenceRequired ← sorted? required
  let evidencePresent ← sorted? present
  return ⟨evidenceRequired, evidencePresent, missing, riskScore, riskThreshold, humanRequired,
    humanApproved⟩

namespace GateFacts

variable (f : GateFacts)

/-- The reason for an item that is missing. -/
def missingReason (j : Json) : Str :=
  "missing required evidence: ".toList ++ str rt.unicode j

/-- The verdict with its reasons; a later check overrides the verdict and adds to the reasons. -/
def verdict : Str × List Str :=
  let status := "permit".toList
  let reasons := []
  let (status, reasons) := if f.missing ≠ [] then
    ("needs_more_evidence".toList, f.missing.map (missingReason rt))
    else (status, reasons)
  let (status, reasons) := if f.riskScore > f.riskThreshold then
    ("deny".toList, reasons ++ ["risk score ".toList ++ decimal f.riskScore ++
      " exceeds threshold ".toList ++ decimal f.riskThreshold])
    else (status, reasons)
  if f.humanRequired && !f.humanApproved then
    ("deny".toList, reasons ++ ["human approval required but not present".toList])
  else (status, reasons)

/-- What the gate denies: a score above the threshold, or an approval that is required and not
there. -/
def Denied : Prop :=
  f.riskThreshold < f.riskScore ∨ f.humanRequired = true ∧ f.humanApproved = false

instance : Decidable f.Denied :=
  inferInstanceAs (Decidable (_ ∨ _))

theorem denied_iff : f.Denied ↔
    f.riskThreshold < f.riskScore ∨ (f.humanRequired && !f.humanApproved) = true := by
  simp [Denied]

/-- **The status**, whatever was overwritten on the way. -/
theorem fst_verdict : (f.verdict rt).1 =
    if f.Denied then "deny".toList
    else if f.missing ≠ [] then "needs_more_evidence".toList else "permit".toList := by
  unfold verdict
  simp only [denied_iff]
  by_cases happroval : (f.humanRequired && !f.humanApproved) = true
  · simp only [happroval, or_true, if_true]
  · by_cases hrisk : f.riskThreshold < f.riskScore
    · simp only [happroval, hrisk, or_false, if_true, if_false, Bool.false_eq_true]
    · by_cases hmissing : f.missing = [] <;>
        simp [happroval, hrisk, hmissing]

/-- **The reasons**: one for each missing item, one for the risk, one for the approval. -/
theorem snd_verdict : (f.verdict rt).2 =
    f.missing.map (missingReason rt) ++
      (if f.riskThreshold < f.riskScore then ["risk score ".toList ++ decimal f.riskScore ++
        " exceeds threshold ".toList ++ decimal f.riskThreshold] else []) ++
      (if f.humanRequired && !f.humanApproved then
        ["human approval required but not present".toList] else []) := by
  unfold verdict
  by_cases happroval : (f.humanRequired && !f.humanApproved) = true <;>
    by_cases hrisk : f.riskThreshold < f.riskScore <;> by_cases hmissing : f.missing = [] <;>
      simp [happroval, hrisk, hmissing]

/-- The gate as it is emitted. -/
def gate : Dict :=
  [("status".toList, .str (f.verdict rt).1),
   ("riskScore".toList, .int f.riskScore),
   ("riskThreshold".toList, .int f.riskThreshold),
   ("humanApprovalRequired".toList, .bool f.humanRequired),
   ("humanApproved".toList, .bool f.humanApproved),
   ("evidenceRequired".toList, .arr f.required),
   ("evidencePresent".toList, .arr f.present),
   ("evidenceMissing".toList, .arr f.missing),
   ("reasons".toList, strings (f.verdict rt).2)]

end GateFacts

/-- `compute_gate`. -/
def computeGate (_fromTs toTs : Dict) (args : GateArgs) : Option Dict :=
  (gateFacts rt toTs args).map (GateFacts.gate rt)

/-! ### The delta -/

/-- The arguments of `build_delta`. -/
structure DeltaArgs where
  specVersion : Str
  id : Option Str
  createdAt : Option Str
  signer : Str
  fromRef : Option Str
  toRef : Option Str
  gate : GateArgs

/-- `ts.get("id") or ref`. -/
def refOr (ts : Dict) (ref : Option Str) : Json :=
  match ts.lookup "id".toList with
  | some j => if truthy j then j else optional ref
  | none => optional ref

/-- The topics of a surface, as a set. -/
def topics? (ts : Dict) : Option (List (Rank × Json)) := do
  let semantics ← sectionOf? ts "semantics".toList
  setOf? rt (listify (semantics.lookup "topics".toList))

/-- What a delta compares. -/
structure DeltaFacts where
  gate : Dict
  fromRef : Json
  toRef : Json
  fromTopics : List (Rank × Json)
  toTopics : List (Rank × Json)
  fromRuntime : Dict
  toRuntime : Dict
  refs : Dict

/-- The facts of two surfaces. -/
def deltaFacts (fromTs toTs : Dict) (args : DeltaArgs) : Option DeltaFacts := do
  let gate ← computeGate rt fromTs toTs args.gate
  let fromTopics ← topics? rt fromTs
  let toTopics ← topics? rt toTs
  let fromRuntime ← sectionOf? fromTs "runtime".toList
  let toRuntime ← sectionOf? toTs "runtime".toList
  let refs ← sectionOf? toTs "refs".toList
  return ⟨gate, refOr fromTs args.fromRef, refOr toTs args.toRef, fromTopics, toTopics, fromRuntime,
    toRuntime, refs⟩

/-- The object before nulls are dropped, with the identifier that `uuid` would make up and the
clock. -/
def deltaMembers (args : DeltaArgs) (uuid : Str) (now : StructTime) (f : DeltaFacts) : Dict :=
  [("id".toList, .str (orDefault args.id ("urn:srcos:delta-surface:".toList ++ uuid))),
   ("type".toList, .str "DeltaSurface".toList),
   ("specVersion".toList, .str args.specVersion),
   ("fromRef".toList, f.fromRef),
   ("toRef".toList, f.toRef),
   ("createdAt".toList, .str (orDefault args.createdAt now.isoformat)),
   ("signer".toList, .str args.signer),
   ("metrics".toList, .obj
     [("semantic".toList, .obj
        [("topic_overlap".toList, .int ((f.fromTopics.filter fun x ↦
          x.1 ∈ f.toTopics.map Prod.fst).length : ℕ))]),
      ("runtime".toList, .obj
        [("from_integrity".toList, (f.fromRuntime.lookup "integrity".toList).getD .null),
         ("to_integrity".toList, (f.toRuntime.lookup "integrity".toList).getD .null)]),
      ("governance".toList, .obj
        [("gate_status".toList, (f.gate.lookup "status".toList).getD .null)])]),
   ("gate".toList, .obj f.gate),
   ("refs".toList, .obj
     [("cairnBeforeRef".toList, (f.refs.lookup "cairnBeforeRef".toList).getD .null),
      ("cairnAfterRef".toList, (f.refs.lookup "cairnAfterRef".toList).getD .null)])]

/-- `build_delta`. -/
def buildDelta (fromTs toTs : Dict) (args : DeltaArgs) (uuid : Str) (now : StructTime) :
    Option Dict :=
  (deltaFacts rt fromTs toTs args).map fun f ↦ sealed (deltaMembers args uuid now f) []

/-! ### Surfaces that were emitted -/

theorem sectionOf?_of_lookup {d : Dict} {k : Str} {ms : Dict} (h : d.lookup k = some (.obj ms)) :
    sectionOf? d k = some ms := by
  rw [sectionOf?, h]

/-- A section of an emitted object. -/
theorem sectionOf?_sealed {members : Dict} {extraBlobs : List (List UInt8)} {k : Str} {ms : Dict}
    (hnodup : (members.map Prod.fst).Nodup) (h : members.lookup k = some (.obj ms)) :
    sectionOf? (sealed members extraBlobs) k = some (dropNullMembers ms) :=
  sectionOf?_of_lookup (lookup_sealed hnodup h (by simp))

variable {rt}

/-- What a gate decides from, where the evidence is strings. -/
def GateFacts.ofStrings (required present : List Str) (riskScore riskThreshold : ℤ)
    (humanRequired humanApproved : Bool) : GateFacts :=
  ⟨(sortedSet required).map .str, (sortedSet present).map .str,
    (sortedSet (required.filter (· ∉ present))).map .str, riskScore, riskThreshold, humanRequired,
    humanApproved⟩

/-- **What the gate finds** where everything it looks for is there. -/
theorem gateFacts_of_lookup {d ev gov : Dict} {req pres : List Str} {score threshold : ℤ}
    {required approved : Bool} (args : GateArgs)
    (hev : d.lookup "evidence".toList = some (.obj ev))
    (hgov : d.lookup "governance".toList = some (.obj gov))
    (hreq : ev.lookup "required".toList = some (strings req))
    (hpres : ev.lookup "present".toList = some (strings pres))
    (hscore : gov.lookup "riskScore".toList = some (.int score))
    (hthreshold : gov.lookup "riskThreshold".toList = some (.int threshold))
    (hrequired : gov.lookup "humanApprovalRequired".toList = some (.bool required))
    (happroved : gov.lookup "humanApproved".toList = some (.bool approved)) :
    gateFacts rt d args = some (.ofStrings req pres score threshold required approved) := by
  obtain ⟨s, t, hs, ht, hsort, hmissing⟩ := sorted?_setOf?_strings rt req pres
  obtain ⟨t', _, ht', -, hsort', -⟩ := sorted?_setOf?_strings rt pres req
  obtain rfl := Option.some.inj (ht.symm.trans ht')
  have hlist : ∀ ss : List Str, listify (some (strings ss)) = ss.map .str := fun _ ↦ rfl
  rw [gateFacts, sectionOf?_of_lookup hev, sectionOf?_of_lookup hgov]
  simp only [Option.bind_eq_bind, Option.bind_some, hreq, hpres, hlist, hs, ht, hmissing, hscore,
    hthreshold, hrequired, happroved, hsort, hsort']
  rfl

variable {a : SurfaceArgs} {host : Host}

/-- **What the gate finds in a surface.** -/
theorem gateFacts_buildSurface (args : GateArgs) : gateFacts rt (buildSurface a host) args =
    some (.ofStrings (sortedSet (a.evidenceRequired.filter (· ≠ [])))
      (sortedSet (a.evidencePresent.filter (· ≠ []))) a.riskScore a.riskThreshold
      a.humanApprovalRequired a.humanApproved) :=
  gateFacts_of_lookup args lookup_evidence_buildSurface lookup_governance_buildSurface rfl rfl
    (lookup_dropNullMembers_governance (v := .int a.riskScore) rfl (by simp))
    (lookup_dropNullMembers_governance (v := .int a.riskThreshold) rfl (by simp))
    (lookup_dropNullMembers_governance (v := .bool a.humanApprovalRequired) rfl (by simp))
    (lookup_dropNullMembers_governance (v := .bool a.humanApproved) rfl (by simp))

/-- A gate that decides from strings has no nulls. -/
theorem GateFacts.dropNullMembers_gate_ofStrings (required present : List Str)
    (riskScore riskThreshold : ℤ) (humanRequired humanApproved : Bool) :
    let f := ofStrings required present riskScore riskThreshold humanRequired humanApproved
    dropNullMembers (f.gate rt) = f.gate rt := by
  simp [gate, ofStrings, dropNullMembers, dropNulls, strings, dropNullItems_strings]

/-- **A gate tells the evidence.** -/
theorem GateFacts.evidence_eq_of_gate_eq {f g : GateFacts} (h : f.gate rt = g.gate rt) :
    f.required = g.required ∧ f.present = g.present := by
  have hrequired : (f.gate rt).lookup "evidenceRequired".toList = some (.arr f.required) := rfl
  have hpresent : (f.gate rt).lookup "evidencePresent".toList = some (.arr f.present) := rfl
  rw [h] at hrequired hpresent
  exact ⟨(Json.arr.inj (Option.some.inj hrequired)).symm,
    (Json.arr.inj (Option.some.inj hpresent)).symm⟩

theorem surfaceId_ne_nil : surfaceId a host ≠ [] := by
  rw [surfaceId]
  rcases a.id with _ | _ | ⟨c, s⟩
  · exact List.cons_ne_nil _ _
  · exact List.cons_ne_nil _ _
  · exact List.cons_ne_nil _ _

theorem refOr_buildSurface (ref : Option Str) :
    refOr (buildSurface a host) ref = .str (surfaceId a host) := by
  rw [refOr, lookup_id_buildSurface]
  have htruthy : truthy (.str (surfaceId a host)) = true := by
    simp [truthy, surfaceId_ne_nil]
  exact if_pos htruthy

/-- The topics of a surface. -/
theorem topics?_buildSurface : topics? rt (buildSurface a host) =
    some (distinct (a.topic.map textElement)) := by
  rw [topics?, sectionOf?_of_lookup lookup_semantics_buildSurface]
  exact setOf?_strings rt a.topic

theorem nodup_deltaMembers (args : DeltaArgs) (uuid : Str) (now : StructTime) (f : DeltaFacts) :
    ((deltaMembers args uuid now f).map Prod.fst).Nodup := by
  simp only [deltaMembers, List.map_cons, List.map_nil]
  decide

/-- What is compared of two surfaces that were emitted. -/
theorem exists_deltaFacts {b : SurfaceArgs} {host' : Host} (args : DeltaArgs) : ∃ f g,
    deltaFacts rt (buildSurface a host) (buildSurface b host') args = some f ∧
      f.fromRef = .str (surfaceId a host) ∧ f.toRef = .str (surfaceId b host') ∧
      gateFacts rt (buildSurface b host') args.gate = some g ∧ f.gate = g.gate rt ∧
      dropNullMembers (g.gate rt) = g.gate rt := by
  have hsection : ∀ {x : SurfaceArgs} {y : Host} {k : Str} {ms : Dict},
      (surfaceMembers x y).lookup k = some (.obj ms) →
        sectionOf? (buildSurface x y) k = some (dropNullMembers ms) :=
    fun h ↦ sectionOf?_sealed nodup_surfaceMembers h
  have hfrom := hsection
    (show (surfaceMembers a host).lookup "runtime".toList = some (.obj _) from rfl)
  have hto := hsection
    (show (surfaceMembers b host').lookup "runtime".toList = some (.obj _) from rfl)
  have hrefs := hsection
    (show (surfaceMembers b host').lookup "refs".toList = some (.obj _) from rfl)
  rw [deltaFacts, computeGate, gateFacts_buildSurface, topics?_buildSurface, topics?_buildSurface,
    hfrom, hto, hrefs]
  exact ⟨_, _, rfl, refOr_buildSurface _, refOr_buildSurface _, rfl, rfl,
    GateFacts.dropNullMembers_gate_ofStrings _ _ _ _ _ _⟩

/-- **The delta of two surfaces** is there, refers to the one and the other, and has their gate. -/
theorem exists_buildDelta {b : SurfaceArgs} {host' : Host} (args : DeltaArgs) (uuid : Str)
    (now : StructTime) : ∃ delta gate,
      buildDelta rt (buildSurface a host) (buildSurface b host') args uuid now = some delta ∧
      computeGate rt (buildSurface a host) (buildSurface b host') args.gate = some gate ∧
      delta.lookup "fromRef".toList = some (.str (surfaceId a host)) ∧
      delta.lookup "toRef".toList = some (.str (surfaceId b host')) ∧
      delta.lookup "gate".toList = some (.obj gate) := by
  obtain ⟨f, g, hf, hfrom, hto, hg, hgate, hnulls⟩ :=
    @exists_deltaFacts rt a host b host' args
  have hlookup : ∀ {k : Str} {v : Json}, (deltaMembers args uuid now f).lookup k = some v →
      v ≠ .null → (sealed (deltaMembers args uuid now f) []).lookup k = some (dropNulls v) :=
    fun h hv ↦ lookup_sealed (nodup_deltaMembers args uuid now f) h hv
  have hfromRef : (deltaMembers args uuid now f).lookup "fromRef".toList = some f.fromRef := rfl
  have htoRef : (deltaMembers args uuid now f).lookup "toRef".toList = some f.toRef := rfl
  have hgateMember : (deltaMembers args uuid now f).lookup "gate".toList = some (.obj f.gate) := rfl
  rw [hfrom] at hfromRef
  rw [hto] at htoRef
  rw [hgate] at hgateMember
  refine ⟨sealed (deltaMembers args uuid now f) [], g.gate rt, ?_, ?_, hlookup hfromRef (by simp),
    hlookup htoRef (by simp), ?_⟩
  · rw [buildDelta, hf, Option.map_some]
  · rw [computeGate, hg, Option.map_some]
  · rw [hlookup hgateMember (by simp), dropNulls, hnulls]

end SourceOS.Truth
