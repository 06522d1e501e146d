import SourceOS.Foundation.JsonFile
import SourceOS.Truth.Attestation
import SourceOS.Truth.Delta

/-!
# A surface in its file

The emitters keep what they make with `_write_json`, and read it with `json.loads`: what comes back
is the surface with its keys in order. This module says what survives the trip.

* **The signature** (`signature_canonical`) is a function of the surface without its two digests, as
  a JSON value, and determines it where no digest collides. It can be recomputed from the file.
* **The gate** (`gate_of_stored_surface`) decides from a stored surface what the call that made it
  said: the evidence as a set, the risk, and the approval. Zero and false come back as zero and
  false, so that the gate's own arguments are never asked.
-/

namespace SourceOS.Truth

open Text Json

/-- The text that `_write_json` writes. -/
def storedText (doc : Dict) : Str :=
  fileText (.obj doc)

/-- A surface as it is read from its file. -/
def storedSurface (a : SurfaceArgs) (host : Host) : Dict :=
  (sortMembers (buildSurface a host)).insertionSort KeyLE

/-- A document without `merkleRoot` and `signature`. -/
def withoutDigests (doc : Dict) : Dict :=
  doc.filter fun m ↦ m.1 ≠ "merkleRoot".toList ∧ m.1 ≠ "signature".toList

section Stored

variable {a b : SurfaceArgs} {host host' : Host}

theorem plain_buildSurface : Plain (.obj (buildSurface a host)) := by
  refine ⟨nodup_buildSurface, plainMembers_iff.2 fun m hm ↦ ?_⟩
  rw [buildSurface_eq, List.mem_append] at hm
  rcases hm with hm | hm
  · have hplain : Plain (.obj (surfaceWithoutSig a host)) := plain_surfaceWithoutSig
    exact plainMembers_iff.1 hplain.2 m hm
  · simp only [List.mem_cons, List.not_mem_nil, or_false] at hm
    rcases hm with rfl | rfl <;> exact trivial

/-- **A surface is read back from its file.** -/
theorem loads_storedText (rf : Str → PyFloat) :
    loads rf (storedText (buildSurface a host)) = some (.obj (storedSurface a host)) :=
  loads_fileText rf plain_buildSurface

theorem same_storedSurface : Same (.obj (storedSurface a host)) (.obj (buildSurface a host)) :=
  same_sortKeys (.obj (buildSurface a host))

theorem nodup_storedSurface : ((storedSurface a host).map Prod.fst).Nodup := by
  have hplain : Plain (.obj (storedSurface a host)) := plain_sortKeys plain_buildSurface
  exact hplain.1

/-- What a stored surface says under a key. -/
theorem lookup_storedSurface {k : Str} {v : Json} (h : (buildSurface a host).lookup k = some v) :
    (storedSurface a host).lookup k = some (sortKeys v) := by
  have hget := get?_sortKeys (@nodup_buildSurface a host) k
  rw [show (Json.obj (buildSurface a host)).get? k = some v from h] at hget
  exact hget

/-- The members of a section with its keys in order. -/
theorem lookup_sorted {ms : Dict} (h : (ms.map Prod.fst).Nodup) {k : Str} {v : Json}
    (hv : ms.lookup k = some v) :
    ((sortMembers ms).insertionSort KeyLE).lookup k = some (sortKeys v) := by
  have hget := get?_sortKeys h k
  rw [show (Json.obj ms).get? k = some v from hv] at hget
  exact hget

/-! ### The signature -/

/-- What an emitted surface says besides its digests. -/
theorem withoutDigests_buildSurface :
    withoutDigests (buildSurface a host) = surfaceWithoutSig a host := by
  have hkeep : ∀ m ∈ surfaceWithoutSig a host,
      decide (m.1 ≠ "merkleRoot".toList ∧ m.1 ≠ "signature".toList) = true := by
    intro m hm
    have hkey := (sublist_dropNullMembers _).subset (List.mem_map_of_mem hm)
    -- the keys before the digests are added do not depend on the call
    have hall : ∀ k ∈ (surfaceMembers a host).map Prod.fst,
        k ≠ "merkleRoot".toList ∧ k ≠ "signature".toList := by
      simp only [surfaceMembers, List.map_cons, List.map_nil]
      decide
    exact decide_eq_true (hall _ hkey)
  rw [withoutDigests, buildSurface_eq, List.filter_append, List.filter_eq_self.2 hkeep]
  rfl

/-- A stored surface without its digests is the emitted one without its digests. -/
theorem same_withoutDigests : Same (.obj (withoutDigests (storedSurface a host)))
    (.obj (surfaceWithoutSig a host)) := by
  rw [← withoutDigests_buildSurface]
  exact same_storedSurface.filter nodup_storedSurface fun k ↦
    decide (k ≠ "merkleRoot".toList ∧ k ≠ "signature".toList)

/-- The signature in the file. -/
theorem lookup_signature_storedSurface : (storedSurface a host).lookup "signature".toList =
    some (.str (devSignature (surfaceWithoutSig a host))) := by
  have h := @lookup_storedSurface a host _ _ lookup_signature_buildSurface
  rwa [sortKeys_str] at h

/-- The same documents have one signature. -/
theorem devSignature_eq {d d' : Dict} (h : Same (.obj d) (.obj d')) :
    devSignature d = devSignature d' := by
  unfold devSignature
  rw [h.c14n_eq]

/-- **The signature is canonical.** Two signatures are equal if and only if the surfaces without
`merkleRoot` and `signature` are the same JSON value, where no digest collides; and what is left of
a stored surface without these two has the signature that is stored in it. -/
theorem signature_canonical (a b : SurfaceArgs) (host host' : Host)
    (hsum : Set.InjOn Sha256.sum256 {t | t = signedText a host ∨ t = signedText b host'}) :
    ((buildSurface a host).lookup "signature".toList =
        (buildSurface b host').lookup "signature".toList ↔
      Same (.obj (withoutDigests (buildSurface a host)))
        (.obj (withoutDigests (buildSurface b host')))) ∧
    ∀ rf : Str → PyFloat, ∃ stored,
      loads rf (storedText (buildSurface a host)) = some (.obj stored) ∧
        stored.lookup "signature".toList = (buildSurface a host).lookup "signature".toList ∧
        stored.lookup "signature".toList = some (.str (devSignature (withoutDigests stored))) := by
  refine ⟨?_, fun rf ↦ ⟨storedSurface a host, loads_storedText rf, ?_, ?_⟩⟩
  · rw [signature_eq_iff hsum, sayTheSame_iff, withoutDigests_buildSurface,
      withoutDigests_buildSurface]
  · rw [lookup_signature_storedSurface, lookup_signature_buildSurface]
    rfl
  · rw [lookup_signature_storedSurface, devSignature_eq same_withoutDigests]

/-- The signatures of two hosts with the lines of `/etc/os-release` in another order. -/
theorem signature_canonical_reordered :
    let x := linedHost ["A=1".toList, "B=2".toList]
    let y := linedHost ["B=2".toList, "A=1".toList]
    ((buildSurface (sampleArgs []) x).lookup "signature".toList =
        (buildSurface (sampleArgs []) y).lookup "signature".toList ↔
      Same (.obj (withoutDigests (buildSurface (sampleArgs []) x)))
        (.obj (withoutDigests (buildSurface (sampleArgs []) y)))) ∧
    ∀ rf : Str → PyFloat, ∃ stored,
      loads rf (storedText (buildSurface (sampleArgs []) x)) = some (.obj stored) ∧
        stored.lookup "signature".toList =
          (buildSurface (sampleArgs []) x).lookup "signature".toList ∧
        stored.lookup "signature".toList = some (.str (devSignature (withoutDigests stored))) := by
  have htext : signedText (sampleArgs []) (linedHost ["A=1".toList, "B=2".toList]) =
      signedText (sampleArgs []) (linedHost ["B=2".toList, "A=1".toList]) := by decide +kernel
  exact signature_canonical _ _ _ _ (injOn_of_eq htext)

/-! ### The gate -/

/-- What the gate finds in a stored surface, with the evidence as sets. -/
def storedFacts (a : SurfaceArgs) : GateFacts :=
  .ofStrings (sortedSet (a.evidenceRequired.filter (· ≠ [])))
    (sortedSet (a.evidencePresent.filter (· ≠ []))) a.riskScore a.riskThreshold
    a.humanApprovalRequired a.humanApproved

/-- What the gate finds in a stored surface is what it finds in the surface. -/
theorem gateFacts_storedSurface {rt : Runtime} (args : GateArgs) :
    gateFacts rt (storedSurface a host) args = some (storedFacts a) := by
  have hgovernance : ((dropNullMembers (governance a)).map Prod.fst).Nodup :=
    (nodup_governance a).sublist (sublist_dropNullMembers _)
  have hgov : ∀ {k : Str} {v : Json}, (governance a).lookup k = some v → v ≠ .null →
      ((sortMembers (dropNullMembers (governance a))).insertionSort KeyLE).lookup k =
        some (sortKeys (dropNulls v)) :=
    fun h hv ↦ lookup_sorted hgovernance (lookup_dropNullMembers_governance h hv)
  have hpanel : ∀ {k : Str} {ss : List Str},
      (evidencePanel a.evidenceRequired a.evidencePresent).lookup k = some (strings ss) →
        ((sortMembers (evidencePanel a.evidenceRequired a.evidencePresent)).insertionSort
          KeyLE).lookup k = some (strings ss) := by
    intro k ss h
    rw [lookup_sorted (nodup_evidencePanel _ _) h, strings, sortKeys_strings]
  -- all six are there, so neither a default nor an argument of the gate is looked at
  exact gateFacts_of_lookup args (lookup_storedSurface lookup_evidence_buildSurface)
    (lookup_storedSurface lookup_governance_buildSurface) (hpanel rfl) (hpanel rfl)
    (hgov (v := .int a.riskScore) rfl (by simp)) (hgov (v := .int a.riskThreshold) rfl (by simp))
    (hgov (v := .bool a.humanApprovalRequired) rfl (by simp))
    (hgov (v := .bool a.humanApproved) rfl (by simp))

/-- What a call requires and does not have. -/
def missingEvidence (a : SurfaceArgs) : List Str :=
  sortedSet ((a.evidenceRequired.filter (· ≠ [])).filter
    (· ∉ a.evidencePresent.filter (· ≠ [])))

theorem mem_missingEvidence {s : Str} : s ∈ missingEvidence a ↔
    s ≠ [] ∧ s ∈ a.evidenceRequired ∧ s ∉ a.evidencePresent := by
  rw [missingEvidence, mem_sortedSet]
  simp only [List.mem_filter, decide_eq_true_eq]
  tauto

/-- A surface says what is missing. -/
theorem lookup_missing_storedSurface : ∃ panel,
    (storedSurface a host).lookup "evidence".toList = some (.obj panel) ∧
      panel.lookup "missing".toList = some (strings (missingEvidence a)) := by
  refine ⟨_, lookup_storedSurface lookup_evidence_buildSurface, ?_⟩
  refine (lookup_sorted (nodup_evidencePanel _ _)
    (v := strings (missingEvidence a)) rfl).trans ?_
  rw [strings, sortKeys_strings]

theorem missing_storedFacts : (storedFacts a).missing = (missingEvidence a).map .str := by
  refine congrArg (List.map Json.str) (sortedSet_eq_iff.2 fun s ↦ ?_)
  simp only [List.mem_filter, mem_sortedSet, decide_eq_true_eq]

/-- A call is denied: its score is above the threshold, or it lacks an approval that it requires. -/
def Refused (a : SurfaceArgs) : Prop :=
  a.riskThreshold < a.riskScore ∨ a.humanApprovalRequired = true ∧ a.humanApproved = false

instance : Decidable (Refused a) :=
  inferInstanceAs (Decidable (_ ∨ _))

/-- The reasons of a gate for a call. -/
def gateReasons (a : SurfaceArgs) : List Str :=
  (missingEvidence a).map ("missing required evidence: ".toList ++ ·) ++
    (if a.riskThreshold < a.riskScore then ["risk score ".toList ++ decimal a.riskScore ++
      " exceeds threshold ".toList ++ decimal a.riskThreshold] else []) ++
    (if a.humanApprovalRequired && !a.humanApproved then
      ["human approval required but not present".toList] else [])

theorem gateReasons_eq_nil_iff : gateReasons a = [] ↔ ¬ Refused a ∧ missingEvidence a = [] := by
  rw [gateReasons, List.append_eq_nil_iff, List.append_eq_nil_iff, List.map_eq_nil_iff,
    ite_eq_right_iff, ite_eq_right_iff, Refused, not_or]
  simp only [List.cons_ne_nil, imp_false, Bool.and_eq_true, Bool.not_eq_true']
  tauto

/-- Calls that give the evidence in another order, or an item of it more than once, and have the
same risk and approval. -/
structure SameGate (a b : SurfaceArgs) : Prop where
  evidenceRequired : ∀ s, s ∈ a.evidenceRequired ↔ s ∈ b.evidenceRequired
  evidencePresent : ∀ s, s ∈ a.evidencePresent ↔ s ∈ b.evidencePresent
  riskScore : a.riskScore = b.riskScore
  riskThreshold : a.riskThreshold = b.riskThreshold
  humanApprovalRequired : a.humanApprovalRequired = b.humanApprovalRequired
  humanApproved : a.humanApproved = b.humanApproved

theorem SameGate.storedFacts_eq (h : SameGate a b) : storedFacts a = storedFacts b := by
  have hset : ∀ {ss ts : List Str}, (∀ s, s ∈ ss ↔ s ∈ ts) →
      sortedSet (ss.filter (· ≠ [])) = sortedSet (ts.filter (· ≠ [])) := by
    intro ss ts hmem
    refine sortedSet_eq_iff.2 fun s ↦ ?_
    rw [List.mem_filter, List.mem_filter, hmem]
  rw [storedFacts, storedFacts, hset h.evidenceRequired, hset h.evidencePresent, h.riskScore,
    h.riskThreshold, h.humanApprovalRequired, h.humanApproved]

/-- Three verdicts, the first over the second over the third, tell what they were decided by. -/
theorem verdict_iff {α : Type} {deny more permit : α} (hdm : deny ≠ more) (hdp : deny ≠ permit)
    (hmp : more ≠ permit) {p q : Prop} [Decidable p] [Decidable q] {status : α}
    (h : status = if p then deny else if q then more else permit) :
    (status = deny ↔ p) ∧ (status = more ↔ ¬ p ∧ q) ∧ (status = permit ↔ ¬ p ∧ ¬ q) := by
  subst h
  by_cases hp : p
  · simp [hp, hdm, hdp]
  · by_cases hq : q
    · simp [hp, hq, hdm.symm, hmp]
    · simp [hp, hq, hdp.symm, hmp.symm]

/-- The gate of a stored surface is a matter of the call that made it. -/
theorem computeGate_storedSurface {rt : Runtime} (fromTs : Dict) (args : GateArgs) :
    computeGate rt fromTs (storedSurface a host) args = some ((storedFacts a).gate rt) := by
  rw [computeGate, gateFacts_storedSurface]
  rfl

theorem verdict_storedFacts (rt : Runtime) : (storedFacts a).verdict rt =
    (if Refused a then "deny".toList
      else if missingEvidence a ≠ [] then "needs_more_evidence".toList else "permit".toList,
      gateReasons a) := by
  refine Prod.ext ?_ ?_
  · simp only [GateFacts.fst_verdict, missing_storedFacts, ne_eq, List.map_eq_nil_iff]
    rfl
  · rw [GateFacts.snd_verdict, missing_storedFacts, List.map_map]
    rfl

/-- **Emitter and gate agree.** The file of a surface reads back, and the gate on what is read is
the same whatever the surface it is compared with, whatever the gate's own arguments, and in
whatever order and how often the evidence was given. It misses what the surface says is missing —
the required items that are not present, without the empty string, in order and once each. It denies
if and only if the risk or the approval says so, asks for more evidence if and only if nothing else
is wrong and something is missing, and permits otherwise; and there is a reason for each missing
item and for each cause of a denial, and no other. -/
theorem gate_of_stored_surface (rt : Runtime) (rf : Str → PyFloat) (a : SurfaceArgs)
    (host : Host) : ∃ stored panel missing gate status reasons,
      loads rf (storedText (buildSurface a host)) = some (.obj stored) ∧
      stored.lookup "evidence".toList = some (.obj panel) ∧
      panel.lookup "missing".toList = some (strings missing) ∧
      missing.Pairwise (· < ·) ∧
      (∀ s, s ∈ missing ↔ s ≠ [] ∧ s ∈ a.evidenceRequired ∧ s ∉ a.evidencePresent) ∧
      (∀ fromTs args, computeGate rt fromTs stored args = some gate) ∧
      gate.lookup "evidenceMissing".toList = some (strings missing) ∧
      gate.lookup "status".toList = some (.str status) ∧
      gate.lookup "reasons".toList = some (strings reasons) ∧
      (status = "deny".toList ↔ Refused a) ∧
      (status = "needs_more_evidence".toList ↔ ¬ Refused a ∧ missing ≠ []) ∧
      (status = "permit".toList ↔ ¬ Refused a ∧ missing = []) ∧
      (reasons = [] ↔ status = "permit".toList) ∧
      reasons = missing.map ("missing required evidence: ".toList ++ ·) ++
        (if a.riskThreshold < a.riskScore then ["risk score ".toList ++ decimal a.riskScore ++
          " exceeds threshold ".toList ++ decimal a.riskThreshold] else []) ++
        (if a.humanApprovalRequired && !a.humanApproved then
          ["human approval required but not present".toList] else []) ∧
      ∀ b host', SameGate a b → ∃ stored',
        loads rf (storedText (buildSurface b host')) = some (.obj stored') ∧
          ∀ fromTs args, computeGate rt fromTs stored' args = some gate := by
  obtain ⟨panel, hpanel, hmissing⟩ := @lookup_missing_storedSurface a host
  have hevidence : ((storedFacts a).gate rt).lookup "evidenceMissing".toList =
      some (strings (missingEvidence a)) := by
    rw [strings, ← missing_storedFacts]
    rfl
  have hstatus : ((storedFacts a).gate rt).lookup "status".toList =
      some (.str ((storedFacts a).verdict rt).1) := rfl
  have hreasons : ((storedFacts a).gate rt).lookup "reasons".toList =
      some (strings ((storedFacts a).verdict rt).2) := rfl
  rw [verdict_storedFacts] at hstatus hreasons
  obtain ⟨hdeny, hmore, hpermit⟩ := @verdict_iff Str "deny".toList "needs_more_evidence".toList
    "permit".toList (by decide) (by decide) (by decide) (Refused a) (missingEvidence a ≠ []) _ _ _
    rfl
  rw [not_ne_iff] at hpermit
  refine ⟨storedSurface a host, panel, missingEvidence a, (storedFacts a).gate rt, _, _,
    loads_storedText rf, hpanel, hmissing, pairwise_sortedSet _, fun s ↦ mem_missingEvidence,
    fun fromTs args ↦ computeGate_storedSurface fromTs args, hevidence, hstatus, hreasons,
    hdeny, hmore, hpermit, gateReasons_eq_nil_iff.trans hpermit.symm, rfl, fun b host' h ↦
      ⟨storedSurface b host', loads_storedText rf, fun fromTs args ↦ ?_⟩⟩
  rw [computeGate_storedSurface, h.storedFacts_eq]

/-- A call that requires some evidence and has some. -/
def evidenceArgs (required present : List Str) : SurfaceArgs :=
  { sampleArgs [] with evidenceRequired := required, evidencePresent := present }

/-- The gates of two calls that repeat and reorder the evidence: one of two items is missing. -/
theorem gate_of_stored_surface_repeated : ∃ stored stored' gate,
    loads Runtime.ascii.readFloat (storedText (buildSurface
      (evidenceArgs [['q'], ['p'], [], ['q']] [['p']]) (linedHost []))) = some (.obj stored) ∧
    loads Runtime.ascii.readFloat (storedText (buildSurface
      (evidenceArgs [[], ['p'], ['q']] [['p'], ['p']]) (linedHost []))) = some (.obj stored') ∧
    computeGate Runtime.ascii [] stored ⟨90, 0, true, false⟩ = some gate ∧
    computeGate Runtime.ascii stored stored' ⟨0, 30, false, false⟩ = some gate ∧
    gate.lookup "status".toList = some (.str "needs_more_evidence".toList) := by
  have hmemRequired : ∀ x y z s : Str, s ∈ [x, y, z, x] ↔ s ∈ [z, y, x] := by
    intro x y z s
    simp only [List.mem_cons, List.not_mem_nil, or_false]
    tauto
  have hmemPresent : ∀ x s : Str, s ∈ [x] ↔ s ∈ [x, x] := by simp
  obtain ⟨stored, panel, missing, gate, status, reasons, hload, -, -, -, hmem, hgate, -, hstatus,
    -, -, hmore, -, -, -, hsame⟩ := gate_of_stored_surface Runtime.ascii
      Runtime.ascii.readFloat (evidenceArgs [['q'], ['p'], [], ['q']] [['p']]) (linedHost [])
  obtain ⟨stored', hload', hgate'⟩ := hsame
    (evidenceArgs [[], ['p'], ['q']] [['p'], ['p']]) (linedHost [])
    { evidenceRequired := hmemRequired _ _ _
      evidencePresent := hmemPresent _
      riskScore := rfl
      riskThreshold := rfl
      humanApprovalRequired := rfl
      humanApproved := rfl }
  have hmissing : ['q'] ∈ missing := (hmem ['q']).2 (by decide)
  obtain rfl := hmore.2 ⟨by decide, List.ne_nil_of_mem hmissing⟩
  exact ⟨stored, stored', gate, hload, hload', hgate _ _, hgate' _ _, hstatus⟩

end Stored

end SourceOS.Truth
