import SourceOS.Foundation.CanonicalText
import SourceOS.Truth.Surface

/-!
# What the digests of a surface cover

A surface carries two digests: the `merkleRoot`, of its canonical text followed by the contents of
the named files, and the `signature`, of its canonical text alone. Both are computed from the
surface without these two members.

The text tells where it ends, so the root determines the surface and the bytes after it; but the
contents follow each other without a boundary, and a file that cannot be read leaves nothing. What
the root determines is the surface and **the contents in one piece** (`merkle_root_binds`).

The signature does not cover the root. Two calls that say the same and were given other files make
surfaces of one signature with different roots; `signature_covers_iff` says that this is the only
way.
-/

namespace SourceOS.Truth

open Text Json

/-! ### Surfaces without their digests -/

section Without

variable (a : SurfaceArgs) (host : Host)

/-- `surface_wo_sig`. -/
def surfaceWithoutSig : Dict :=
  dropNullMembers (surfaceMembers a host)

/-- The contents of the files that are named and can be read. -/
def extraBlobs : List (List UInt8) :=
  a.extraHashPath.filterMap host.readBytes

/-- The text of which the signature is the digest. -/
def signedText : List UInt8 :=
  utf8 (c14n (.obj (surfaceWithoutSig a host)))

/-- The text of which the root is the digest. -/
def rootText : List UInt8 :=
  signedText a host ++ (extraBlobs a host).flatten

variable {a host}

/-- What an emitted surface is. -/
theorem buildSurface_eq : buildSurface a host = surfaceWithoutSig a host ++
    [("merkleRoot".toList, .str ("sha256:".toList ++ hexdigest (Sha256.sum256 (rootText a host)))),
      ("signature".toList,
        .str ("sig:dev:sha256:".toList ++ hexdigest (Sha256.sum256 (signedText a host))))] :=
  rfl

/-- The two digests are not among the members that they are computed from. -/
theorem lookup_surfaceWithoutSig_of_digest {k : Str}
    (hk : (surfaceMembers a host).lookup k = none) :
    (surfaceWithoutSig a host).lookup k = none := by
  rw [surfaceWithoutSig, lookup_dropNullMembers nodup_surfaceMembers, hk]
  rfl

theorem lookup_merkleRoot_buildSurface : (buildSurface a host).lookup "merkleRoot".toList =
    some (.str ("sha256:".toList ++ hexdigest (Sha256.sum256 (rootText a host)))) := by
  rw [buildSurface_eq, List.lookup_append, lookup_surfaceWithoutSig_of_digest rfl]
  rfl

theorem lookup_signature_buildSurface : (buildSurface a host).lookup "signature".toList =
    some (.str ("sig:dev:sha256:".toList ++ hexdigest (Sha256.sum256 (signedText a host)))) := by
  rw [buildSurface_eq, List.lookup_append, lookup_surfaceWithoutSig_of_digest rfl]
  rfl

/-- The keys that are left are keys that were there. -/
theorem sublist_dropNullMembers (ms : Dict) :
    ((dropNullMembers ms).map Prod.fst).Sublist (ms.map Prod.fst) := by
  induction ms with
  | nil => exact List.Sublist.slnil
  | cons m ms ih =>
    obtain ⟨k, v⟩ := m
    by_cases hv : v = .null
    · subst hv
      exact ih.cons _
    · rw [dropNullMembers_cons hv]
      exact ih.cons_cons _

/-- The members of an emitted surface have distinct keys. -/
theorem nodup_buildSurface : ((buildSurface a host).map Prod.fst).Nodup := by
  have hkeys : ∀ k ∈ (surfaceWithoutSig a host).map Prod.fst,
      k ∈ (surfaceMembers a host).map Prod.fst :=
    fun k hk ↦ (sublist_dropNullMembers _).subset hk
  rw [buildSurface_eq, List.map_append]
  refine List.nodup_append.2 ⟨nodup_surfaceMembers.sublist (sublist_dropNullMembers _), ?_, ?_⟩
  · simp only [List.map_cons, List.map_nil]
    decide
  · intro k hk k' hk' heq
    have hmem := hkeys k hk
    rw [heq] at hmem
    simp only [List.map_cons, List.map_nil, List.mem_cons, List.not_mem_nil, or_false] at hk'
    simp only [surfaceMembers, List.map_cons, List.map_nil] at hmem
    rcases hk' with rfl | rfl <;> exact absurd hmem (by decide)

mutual

/-- Dropping nulls leaves a plain value plain. -/
theorem plain_dropNulls : ∀ {j : Json}, Plain j → Plain (dropNulls j)
  | .null, _ | .bool _, _ | .int _, _ | .str _, _ => trivial
  | .float _, h => h
  | .arr _, h => plain_dropNullItems h
  | .obj _, h => ⟨h.1.sublist (sublist_dropNullMembers _), plain_dropNullMembers h.2⟩

theorem plain_dropNullItems : ∀ {xs : List Json}, PlainItems xs → PlainItems (dropNullItems xs)
  | [], _ => trivial
  | x :: xs, h => by
    by_cases hx : x = .null
    · subst hx
      rw [dropNullItems]
      exact plain_dropNullItems h.2
    · rw [dropNullItems_cons hx]
      exact ⟨plain_dropNulls h.1, plain_dropNullItems h.2⟩

theorem plain_dropNullMembers : ∀ {ms : Dict}, PlainMembers ms → PlainMembers (dropNullMembers ms)
  | [], _ => trivial
  | (k, v) :: ms, h => by
    by_cases hv : v = .null
    · subst hv
      rw [dropNullMembers]
      exact plain_dropNullMembers h.2
    · rw [dropNullMembers_cons hv]
      exact ⟨plain_dropNulls h.1, plain_dropNullMembers h.2⟩

end

theorem plain_optional (x : Option Str) : Plain (optional x) := by
  cases x <;> exact trivial

theorem nodup_readOsRelease (text : Option Str) :
    ((readOsRelease text).map Prod.fst).Nodup := by
  cases text with
  | none => exact List.nodup_nil
  | some s => exact nodup_ofMembers _

/-- What is read from `/etc/os-release` is strings. -/
theorem exists_str_of_mem_readOsRelease {text : Option Str} {m : Str × Json}
    (h : m ∈ readOsRelease text) : ∃ s, m.2 = .str s := by
  cases text with
  | none => exact absurd h List.not_mem_nil
  | some s =>
    obtain ⟨line, -, hline⟩ := List.mem_filterMap.1 (mem_of_mem_ofMembers h)
    rw [readOsReleaseLine] at hline
    split at hline
    · cases hline
    · obtain rfl := Option.some.inj hline
      exact ⟨_, rfl⟩

theorem plainMembers_readOsRelease (text : Option Str) : PlainMembers (readOsRelease text) := by
  refine plainMembers_iff.2 fun m hm ↦ ?_
  obtain ⟨s, hs⟩ := exists_str_of_mem_readOsRelease hm
  rw [hs]
  exact trivial

theorem plain_surfaceMembers : Plain (.obj (surfaceMembers a host)) := by
  refine ⟨nodup_surfaceMembers, ?_⟩
  have hstrings : ∀ ss, Plain (strings ss) := plain_strings
  simp [surfaceMembers, governance, evidencePanel, PlainMembers, Plain, hstrings, plain_optional,
    nodup_readOsRelease, plainMembers_readOsRelease]

theorem plain_surfaceWithoutSig : Plain (.obj (surfaceWithoutSig a host)) :=
  plain_dropNulls plain_surfaceMembers

end Without

section Calls

variable {a b : SurfaceArgs} {host host' : Host}

/-! ### The root -/

/-- The texts of the roots determine the surface and the contents in one piece. -/
theorem rootText_eq_iff : rootText a host = rootText b host' ↔
    Same (.obj (surfaceWithoutSig a host)) (.obj (surfaceWithoutSig b host')) ∧
      (extraBlobs a host).flatten = (extraBlobs b host').flatten :=
  utf8_c14n_append_inj plain_surfaceWithoutSig plain_surfaceWithoutSig

/-- Roots are equal if and only if their texts are, where no digest collides. -/
theorem merkleRoot_eq_iff
    (hsum : Set.InjOn Sha256.sum256 {t | t = rootText a host ∨ t = rootText b host'}) :
    (buildSurface a host).lookup "merkleRoot".toList =
        (buildSurface b host').lookup "merkleRoot".toList ↔
      rootText a host = rootText b host' := by
  rw [lookup_merkleRoot_buildSurface, lookup_merkleRoot_buildSurface]
  constructor
  · intro h
    have hdigest := List.append_cancel_left (Json.str.inj (Option.some.inj h))
    exact hsum (Or.inl rfl) (Or.inr rfl) (hexdigest_injective hdigest)
  · intro h
    rw [h]

/-- **What the root binds**: two roots are equal if and only if the surfaces without their digests
are the same and the contents of the files that could be read, one after the other, are the same
bytes. Contents of the same sizes are then the same, one by one. -/
theorem merkle_root_binds (a b : SurfaceArgs) (host host' : Host)
    (hsum : Set.InjOn Sha256.sum256 {t | t = rootText a host ∨ t = rootText b host'}) :
    ((buildSurface a host).lookup "merkleRoot".toList =
        (buildSurface b host').lookup "merkleRoot".toList ↔
      Same (.obj (surfaceWithoutSig a host)) (.obj (surfaceWithoutSig b host')) ∧
        (extraBlobs a host).flatten = (extraBlobs b host').flatten) ∧
    ((buildSurface a host).lookup "merkleRoot".toList =
        (buildSurface b host').lookup "merkleRoot".toList →
      (extraBlobs a host).map List.length = (extraBlobs b host').map List.length →
        extraBlobs a host = extraBlobs b host') := by
  have hiff := (merkleRoot_eq_iff hsum).trans rootText_eq_iff
  exact ⟨hiff, fun hroot hsizes ↦ List.eq_iff_flatten_eq.2 ⟨(hiff.1 hroot).2, hsizes⟩⟩

/-- A call with nothing but files named for hashing. -/
def sampleArgs (paths : List Str) : SurfaceArgs :=
  ⟨[], [], some ['i'], some ['t'], [], none, 0, 0, false, false, [], [], [], [], [], [], [], [],
    none, none, [], [], [], paths⟩

/-- A host with files. -/
def sampleHost (readBytes : Str → Option (List UInt8)) : Host :=
  ⟨.midnight 2024 1 1 (by decide) (by decide) (by decide), [], ⟨[], [], [], [], [], []⟩, none, none,
    readBytes⟩

/-- A host with the files `a` and `b`. -/
def splitHost : Host :=
  sampleHost fun p ↦
    if p = ['a'] then some [0x78] else if p = ['b'] then some [0x79, 0x7a] else none

/-- The same host after a byte was moved from the one file to the other. -/
def shiftedHost : Host :=
  sampleHost fun p ↦
    if p = ['a'] then some [0x78, 0x79] else if p = ['b'] then some [0x7a] else none

/-- A set of one text has no collisions in it. -/
theorem injOn_of_eq {s t : List UInt8} (h : s = t) :
    Set.InjOn Sha256.sum256 {u | u = s ∨ u = t} := by
  subst h
  rintro u (rfl | rfl) v (rfl | rfl) - <;> rfl

/-- The root of two hosts that differ in where one file ends, at work. -/
theorem merkle_root_binds_shifted :
    let args := sampleArgs [['a'], ['b']]
    ((buildSurface args splitHost).lookup "merkleRoot".toList =
        (buildSurface args shiftedHost).lookup "merkleRoot".toList ↔
      Same (.obj (surfaceWithoutSig args splitHost)) (.obj (surfaceWithoutSig args shiftedHost)) ∧
        (extraBlobs args splitHost).flatten = (extraBlobs args shiftedHost).flatten) ∧
    ((buildSurface args splitHost).lookup "merkleRoot".toList =
        (buildSurface args shiftedHost).lookup "merkleRoot".toList →
      (extraBlobs args splitHost).map List.length =
        (extraBlobs args shiftedHost).map List.length →
      extraBlobs args splitHost = extraBlobs args shiftedHost) :=
  merkle_root_binds _ _ _ _ (injOn_of_eq (rootText_eq_iff.2 ⟨Same.refl _, by decide⟩))

/-- **One root, other contents.** A byte that moves from the end of one file to the start of the
next, and a file that is named but cannot be read, leave the root as it is. No digest collides: the
texts are the same. -/
theorem merkle_root_not_entrywise :
    let args := sampleArgs [['a'], ['b']]
    let argsMore := sampleArgs [['a'], ['b'], ['c']]
    (Set.InjOn Sha256.sum256 {t | t = rootText args splitHost ∨ t = rootText args shiftedHost} ∧
      (buildSurface args splitHost).lookup "merkleRoot".toList =
        (buildSurface args shiftedHost).lookup "merkleRoot".toList ∧
      args.extraHashPath.map splitHost.readBytes ≠ args.extraHashPath.map shiftedHost.readBytes) ∧
    Set.InjOn Sha256.sum256 {t | t = rootText args splitHost ∨ t = rootText argsMore splitHost} ∧
      (buildSurface args splitHost).lookup "merkleRoot".toList =
        (buildSurface argsMore splitHost).lookup "merkleRoot".toList ∧
      (args.extraHashPath.map splitHost.readBytes).length ≠
        (argsMore.extraHashPath.map splitHost.readBytes).length := by
  have hshifted : rootText (sampleArgs [['a'], ['b']]) splitHost =
      rootText (sampleArgs [['a'], ['b']]) shiftedHost :=
    rootText_eq_iff.2 ⟨Same.refl _, by decide⟩
  have hmore : rootText (sampleArgs [['a'], ['b']]) splitHost =
      rootText (sampleArgs [['a'], ['b'], ['c']]) splitHost :=
    rootText_eq_iff.2 ⟨Same.refl _, by decide⟩
  exact ⟨⟨injOn_of_eq hshifted, (merkleRoot_eq_iff (injOn_of_eq hshifted)).2 hshifted, by decide⟩,
    injOn_of_eq hmore, (merkleRoot_eq_iff (injOn_of_eq hmore)).2 hmore, by decide⟩

/-! ### What a surface says -/

/-- Two calls say the same: the arguments that are written down agree, evidence as a set, and the
hosts agree. -/
structure SayTheSame (a : SurfaceArgs) (host : Host) (b : SurfaceArgs) (host' : Host) : Prop where
  plane : a.plane = b.plane
  specVersion : a.specVersion = b.specVersion
  id : surfaceId a host = surfaceId b host'
  createdAt : surfaceCreatedAt a host = surfaceCreatedAt b host'
  signer : a.signer = b.signer
  policyPackDigest : a.policyPackDigest = b.policyPackDigest
  riskScore : a.riskScore = b.riskScore
  riskThreshold : a.riskThreshold = b.riskThreshold
  humanApprovalRequired : a.humanApprovalRequired = b.humanApprovalRequired
  humanApproved : a.humanApproved = b.humanApproved
  evidenceRequired : ∀ s, s ≠ [] → (s ∈ a.evidenceRequired ↔ s ∈ b.evidenceRequired)
  evidencePresent : ∀ s, s ≠ [] → (s ∈ a.evidencePresent ↔ s ∈ b.evidencePresent)
  policyDecisionRef : a.policyDecisionRef = b.policyDecisionRef
  capabilityTokenId : a.capabilityTokenId = b.capabilityTokenId
  runRecordRef : a.runRecordRef = b.runRecordRef
  provenanceRef : a.provenanceRef = b.provenanceRef
  telemetryRef : a.telemetryRef = b.telemetryRef
  evidenceBundleRef : a.evidenceBundleRef = b.evidenceBundleRef
  cairnBeforeRef : a.cairnBeforeRef = b.cairnBeforeRef
  cairnAfterRef : a.cairnAfterRef = b.cairnAfterRef
  anchor : a.anchor = b.anchor
  topic : a.topic = b.topic
  glossaryRef : a.glossaryRef = b.glossaryRef
  osRelease : ∀ k,
    (readOsRelease host.osRelease).lookup k = (readOsRelease host'.osRelease).lookup k
  uname : host.uname = host'.uname
  ima : host.ima = host'.ima

/-- Evidence that agrees as a set has one panel. -/
theorem evidencePanel_eq {req pres req' pres' : List Str}
    (hreq : ∀ s, s ≠ [] → (s ∈ req ↔ s ∈ req')) (hpres : ∀ s, s ≠ [] → (s ∈ pres ↔ s ∈ pres')) :
    evidencePanel req pres = evidencePanel req' pres' := by
  have hmem : ∀ {ss ts : List Str}, (∀ s, s ≠ [] → (s ∈ ss ↔ s ∈ ts)) →
      ∀ s, s ∈ ss.filter (· ≠ []) ↔ s ∈ ts.filter (· ≠ []) := by
    intro ss ts h s
    simp only [List.mem_filter, decide_eq_true_eq]
    exact and_congr_left (h s)
  have hmissing : sortedSet ((req.filter (· ≠ [])).filter (· ∉ pres.filter (· ≠ []))) =
      sortedSet ((req'.filter (· ≠ [])).filter (· ∉ pres'.filter (· ≠ []))) := by
    refine sortedSet_eq_iff.2 fun s ↦ ?_
    refine List.mem_filter.trans ((and_congr (hmem hreq s) ?_).trans List.mem_filter.symm)
    rw [decide_eq_true_eq, decide_eq_true_eq, hmem hpres s]
  rw [evidencePanel, evidencePanel, sortedSet_eq_iff.2 (hmem hreq), sortedSet_eq_iff.2 (hmem hpres),
    hmissing]

/-- Strings have no nulls to drop. -/
theorem dropNullMembers_readOsRelease (text : Option Str) :
    dropNullMembers (readOsRelease text) = readOsRelease text := by
  have haux : ∀ ms : Dict, (∀ m ∈ ms, ∃ s, m.2 = .str s) → dropNullMembers ms = ms := by
    intro ms
    induction ms with
    | nil => exact fun _ ↦ rfl
    | cons m ms ih =>
      obtain ⟨k, v⟩ := m
      intro h
      obtain ⟨s, rfl⟩ := h (k, v) List.mem_cons_self
      rw [dropNullMembers_cons (by simp), ih fun m hm ↦ h m (List.mem_cons_of_mem _ hm)]
      rfl
  exact haux _ fun m hm ↦ exists_str_of_mem_readOsRelease hm

/-- Calls that say the same make the same surface. -/
theorem SayTheSame.same (h : SayTheSame a host b host') :
    Same (.obj (surfaceWithoutSig a host)) (.obj (surfaceWithoutSig b host')) := by
  have hsame := same_obj_of_lookup (nodup_readOsRelease _) (nodup_readOsRelease _) h.osRelease
  have hos : (sortMembers (dropNullMembers (readOsRelease host.osRelease))).insertionSort KeyLE =
      (sortMembers (dropNullMembers (readOsRelease host'.osRelease))).insertionSort KeyLE := by
    rw [dropNullMembers_readOsRelease, dropNullMembers_readOsRelease]
    exact Json.obj.inj hsame
  have hpanel := evidencePanel_eq h.evidenceRequired h.evidencePresent
  simp only [Same, surfaceWithoutSig, surfaceMembers, governance, hpanel, h.plane, h.specVersion,
    h.id, h.createdAt, h.signer, h.policyPackDigest, h.riskScore, h.riskThreshold,
    h.humanApprovalRequired, h.humanApproved, h.policyDecisionRef, h.capabilityTokenId,
    h.runRecordRef, h.provenanceRef, h.telemetryRef, h.evidenceBundleRef, h.cairnBeforeRef,
    h.cairnAfterRef, h.anchor, h.topic, h.glossaryRef, h.uname, h.ima]
  simp only [dropNullMembers, dropNulls, sortKeys, sortMembers, hos]

/-- What stands under a key of the same objects is the same. -/
theorem same_member {ms ns : Dict} (hms : (ms.map Prod.fst).Nodup) (hns : (ns.map Prod.fst).Nodup)
    (h : Same (.obj (dropNullMembers ms)) (.obj (dropNullMembers ns))) (k : Str) {v w : Json}
    (hv : ms.lookup k = some v) (hw : ns.lookup k = some w) (hv₀ : v ≠ .null) (hw₀ : w ≠ .null) :
    Same (dropNulls v) (dropNulls w) := by
  have hlookup := h.lookup (hms.sublist (sublist_dropNullMembers ms))
    (hns.sublist (sublist_dropNullMembers ns)) k
  rw [lookup_dropNullMembers_of_ne_null hms hv hv₀,
    lookup_dropNullMembers_of_ne_null hns hw hw₀] at hlookup
  exact Option.some.inj hlookup

/-- A string that may be missing is told by its member. -/
theorem eq_of_same_optional {ms ns : Dict} (hms : (ms.map Prod.fst).Nodup)
    (hns : (ns.map Prod.fst).Nodup)
    (h : Same (.obj (dropNullMembers ms)) (.obj (dropNullMembers ns)))
    (k : Str) {x y : Option Str} (hx : ms.lookup k = some (optional x))
    (hy : ns.lookup k = some (optional y)) : x = y := by
  have hlookup := h.lookup (hms.sublist (sublist_dropNullMembers ms))
    (hns.sublist (sublist_dropNullMembers ns)) k
  rw [lookup_dropNullMembers hms, lookup_dropNullMembers hns, hx, hy] at hlookup
  rcases x with _ | x <;> rcases y with _ | y
  · rfl
  · simp [optional] at hlookup
  · simp [optional] at hlookup
  · have hstr : Same (.str x) (.str y) := Option.some.inj hlookup
    exact congrArg some (Json.str.inj hstr)

/-- A string is told by its member. -/
theorem eq_of_same_str {ms ns : Dict} (hms : (ms.map Prod.fst).Nodup)
    (hns : (ns.map Prod.fst).Nodup)
    (h : Same (.obj (dropNullMembers ms)) (.obj (dropNullMembers ns)))
    (k : Str) {x y : Str} (hx : ms.lookup k = some (.str x)) (hy : ns.lookup k = some (.str y)) :
    x = y :=
  Json.str.inj (same_member hms hns h k hx hy (by simp) (by simp))

theorem eq_of_same_strings {ss ts : List Str} (h : Same (dropNulls (strings ss))
    (dropNulls (strings ts))) : ss = ts := by
  rw [dropNulls_strings, dropNulls_strings, Same, strings, strings, sortKeys_strings,
    sortKeys_strings] at h
  exact strings_inj h

/-- The members of `refs`. -/
def refsMembers (a : SurfaceArgs) : Dict :=
  [("policyDecisionRefs".toList, strings a.policyDecisionRef),
   ("capabilityTokenIds".toList, strings a.capabilityTokenId),
   ("runRecordRefs".toList, strings a.runRecordRef),
   ("provenanceRefs".toList, strings a.provenanceRef),
   ("telemetryRefs".toList, strings a.telemetryRef),
   ("evidenceBundleRefs".toList, strings a.evidenceBundleRef),
   ("cairnBeforeRef".toList, optional a.cairnBeforeRef),
   ("cairnAfterRef".toList, optional a.cairnAfterRef)]

/-- The members of `semantics`. -/
def semanticsMembers (a : SurfaceArgs) : Dict :=
  [("anchors".toList, strings a.anchor), ("topics".toList, strings a.topic),
   ("glossary".toList, strings a.glossaryRef)]

/-- The members of `uname`. -/
def unameMembers (u : Uname) : Dict :=
  [("system".toList, .str u.system), ("node".toList, .str u.node),
   ("release".toList, .str u.release), ("version".toList, .str u.version),
   ("machine".toList, .str u.machine), ("processor".toList, .str u.processor)]

/-- The state of IMA, as it is written. -/
def imaText (ima : Option Bool) : Str :=
  match ima with
  | some true => "enabled".toList
  | some false => "disabled".toList
  | none => "unknown".toList

/-- The members of `runtime`. -/
def runtimeMembers (host : Host) : Dict :=
  [("osRelease".toList, .obj (readOsRelease host.osRelease)),
   ("uname".toList, .obj (unameMembers host.uname)),
   ("integrity".toList, .obj [("ima".toList, .str (imaText host.ima))])]

theorem imaText_injective : Function.Injective imaText := by
  intro x y
  rcases x with _ | _ | _ <;> rcases y with _ | _ | _ <;> decide

/-- What the evidence panel tells: the sets. -/
theorem mem_iff_of_same_panel {req pres req' pres' : List Str}
    (h : Same (.obj (dropNullMembers (evidencePanel req pres)))
      (.obj (dropNullMembers (evidencePanel req' pres')))) :
    (∀ s, s ≠ [] → (s ∈ req ↔ s ∈ req')) ∧ ∀ s, s ≠ [] → (s ∈ pres ↔ s ∈ pres') := by
  have hset : ∀ {ss ts : List Str},
      sortedSet (ss.filter (· ≠ [])) = sortedSet (ts.filter (· ≠ [])) →
        ∀ s, s ≠ [] → (s ∈ ss ↔ s ∈ ts) := by
    intro ss ts hss s hs
    have hmem := sortedSet_eq_iff.1 hss s
    rwa [List.mem_filter, List.mem_filter, decide_eq_true_eq, and_iff_left hs,
      and_iff_left hs] at hmem
  have hmember := same_member (nodup_evidencePanel req pres) (nodup_evidencePanel req' pres') h
  exact ⟨hset (eq_of_same_strings (hmember "required".toList rfl rfl (by simp [strings])
      (by simp [strings]))),
    hset (eq_of_same_strings (hmember "present".toList rfl rfl (by simp [strings])
      (by simp [strings])))⟩

/-- What is looked up in what was read from `/etc/os-release` has no keys to sort. -/
theorem map_sortKeys_lookup_readOsRelease (text : Option Str) (k : Str) :
    ((readOsRelease text).lookup k).map sortKeys = (readOsRelease text).lookup k := by
  rcases hv : (readOsRelease text).lookup k with _ | v
  · rfl
  · obtain ⟨s, hs⟩ := exists_str_of_mem_readOsRelease
      ((lookup_eq_some_iff_mem (nodup_readOsRelease text)).1 hv)
    have hs : v = .str s := hs
    rw [hs]
    rfl

theorem nodup_runtimeMembers (host : Host) : ((runtimeMembers host).map Prod.fst).Nodup := by
  simp only [runtimeMembers, List.map_cons, List.map_nil]
  decide

theorem nodup_unameMembers (u : Uname) : ((unameMembers u).map Prod.fst).Nodup := by
  simp only [unameMembers, List.map_cons, List.map_nil]
  decide

theorem nodup_refsMembers (a : SurfaceArgs) : ((refsMembers a).map Prod.fst).Nodup := by
  simp only [refsMembers, List.map_cons, List.map_nil]
  decide

theorem nodup_semanticsMembers (a : SurfaceArgs) : ((semanticsMembers a).map Prod.fst).Nodup := by
  simp only [semanticsMembers, List.map_cons, List.map_nil]
  decide

/-- What the runtime section tells. -/
theorem eq_of_same_runtime (h : Same (.obj (dropNullMembers (runtimeMembers host)))
    (.obj (dropNullMembers (runtimeMembers host')))) :
    (∀ k, (readOsRelease host.osRelease).lookup k = (readOsRelease host'.osRelease).lookup k) ∧
      host.uname = host'.uname ∧ host.ima = host'.ima := by
  have hmember := same_member (nodup_runtimeMembers host) (nodup_runtimeMembers host') h
  have hos := hmember "osRelease".toList rfl rfl (by simp) (by simp)
  have huname : Same (.obj (dropNullMembers (unameMembers host.uname)))
      (.obj (dropNullMembers (unameMembers host'.uname))) :=
    hmember "uname".toList rfl rfl (by simp) (by simp)
  have hima := same_member (by simp) (by simp)
    (hmember "integrity".toList rfl rfl (by simp) (by simp)) "ima".toList rfl rfl (by simp)
    (by simp)
  refine ⟨fun k ↦ ?_, ?_, imaText_injective (Json.str.inj hima)⟩
  · rw [dropNulls, dropNulls, dropNullMembers_readOsRelease, dropNullMembers_readOsRelease] at hos
    have hlookup := hos.lookup (nodup_readOsRelease _) (nodup_readOsRelease _) k
    rwa [map_sortKeys_lookup_readOsRelease, map_sortKeys_lookup_readOsRelease] at hlookup
  · have hfield := eq_of_same_str (nodup_unameMembers _) (nodup_unameMembers _) huname
    have hsystem := hfield "system".toList rfl rfl
    have hnode := hfield "node".toList rfl rfl
    have hrelease := hfield "release".toList rfl rfl
    have hversion := hfield "version".toList rfl rfl
    have hmachine := hfield "machine".toList rfl rfl
    have hprocessor := hfield "processor".toList rfl rfl
    rcases hu : host.uname with ⟨_, _, _, _, _, _⟩
    rcases hu' : host'.uname with ⟨_, _, _, _, _, _⟩
    rw [hu, hu'] at hsystem hnode hrelease hversion hmachine hprocessor
    subst hsystem hnode hrelease hversion hmachine hprocessor
    rfl

/-- **What a surface says is told by it**, and nothing else is. -/
theorem sayTheSame_iff : SayTheSame a host b host' ↔
    Same (.obj (surfaceWithoutSig a host)) (.obj (surfaceWithoutSig b host')) := by
  refine ⟨SayTheSame.same, fun h ↦ ?_⟩
  have hmember := same_member nodup_surfaceMembers nodup_surfaceMembers h
  have hstr := eq_of_same_str nodup_surfaceMembers nodup_surfaceMembers h
  have hrefs := same_member nodup_surfaceMembers nodup_surfaceMembers h "refs".toList
    (v := .obj (refsMembers a)) (w := .obj (refsMembers b)) rfl rfl (by simp) (by simp)
  have hsemantics := same_member nodup_surfaceMembers nodup_surfaceMembers h "semantics".toList
    (v := .obj (semanticsMembers a)) (w := .obj (semanticsMembers b)) rfl rfl (by simp) (by simp)
  have hgovernance := same_member nodup_surfaceMembers nodup_surfaceMembers h "governance".toList
    (v := .obj (governance a)) (w := .obj (governance b)) rfl rfl (by simp) (by simp)
  obtain ⟨hrequired, hpresent⟩ := mem_iff_of_same_panel
    (hmember "evidence".toList rfl rfl (by simp) (by simp))
  obtain ⟨hos, huname, hima⟩ := @eq_of_same_runtime host host'
    (hmember "runtime".toList rfl rfl (by simp) (by simp))
  have href : ∀ (k : Str) {ss ts : List Str}, (refsMembers a).lookup k = some (strings ss) →
      (refsMembers b).lookup k = some (strings ts) → ss = ts :=
    fun k _ _ hv hw ↦ eq_of_same_strings (same_member (nodup_refsMembers a) (nodup_refsMembers b)
      hrefs k hv hw (by simp [strings]) (by simp [strings]))
  have hsem : ∀ (k : Str) {ss ts : List Str}, (semanticsMembers a).lookup k = some (strings ss) →
      (semanticsMembers b).lookup k = some (strings ts) → ss = ts :=
    fun k _ _ hv hw ↦ eq_of_same_strings (same_member (nodup_semanticsMembers a)
      (nodup_semanticsMembers b) hsemantics k hv hw (by simp [strings]) (by simp [strings]))
  have hgov := same_member (nodup_governance a) (nodup_governance b) hgovernance
  exact {
    plane := hstr "plane".toList rfl rfl
    specVersion := hstr "specVersion".toList rfl rfl
    id := hstr "id".toList rfl rfl
    createdAt := hstr "createdAt".toList rfl rfl
    signer := hstr "signer".toList rfl rfl
    policyPackDigest := eq_of_same_optional (nodup_governance a) (nodup_governance b) hgovernance
      "policyPackDigest".toList rfl rfl
    riskScore := Json.int.inj (hgov "riskScore".toList rfl rfl (by simp) (by simp))
    riskThreshold := Json.int.inj (hgov "riskThreshold".toList rfl rfl (by simp) (by simp))
    humanApprovalRequired :=
      Json.bool.inj (hgov "humanApprovalRequired".toList rfl rfl (by simp) (by simp))
    humanApproved := Json.bool.inj (hgov "humanApproved".toList rfl rfl (by simp) (by simp))
    evidenceRequired := hrequired
    evidencePresent := hpresent
    policyDecisionRef := href "policyDecisionRefs".toList rfl rfl
    capabilityTokenId := href "capabilityTokenIds".toList rfl rfl
    runRecordRef := href "runRecordRefs".toList rfl rfl
    provenanceRef := href "provenanceRefs".toList rfl rfl
    telemetryRef := href "telemetryRefs".toList rfl rfl
    evidenceBundleRef := href "evidenceBundleRefs".toList rfl rfl
    cairnBeforeRef := eq_of_same_optional (nodup_refsMembers a) (nodup_refsMembers b) hrefs
      "cairnBeforeRef".toList rfl rfl
    cairnAfterRef := eq_of_same_optional (nodup_refsMembers a) (nodup_refsMembers b) hrefs
      "cairnAfterRef".toList rfl rfl
    anchor := hsem "anchors".toList rfl rfl
    topic := hsem "topics".toList rfl rfl
    glossaryRef := hsem "glossary".toList rfl rfl
    osRelease := hos
    uname := huname
    ima := hima }

/-! ### The signature -/

/-- Signatures are equal if and only if the calls say the same, where no digest collides. -/
theorem signature_eq_iff
    (hsum : Set.InjOn Sha256.sum256 {t | t = signedText a host ∨ t = signedText b host'}) :
    (buildSurface a host).lookup "signature".toList =
        (buildSurface b host').lookup "signature".toList ↔ SayTheSame a host b host' := by
  rw [lookup_signature_buildSurface, lookup_signature_buildSurface, sayTheSame_iff]
  have htext := @utf8_c14n_append_inj _ _ (@plain_surfaceWithoutSig a host)
    (@plain_surfaceWithoutSig b host') [] []
  rw [List.append_nil, List.append_nil, and_iff_left rfl] at htext
  constructor
  · intro h
    have hdigest := List.append_cancel_left (Json.str.inj (Option.some.inj h))
    exact htext.1 (hsum (Or.inl rfl) (Or.inr rfl) (hexdigest_injective hdigest))
  · intro h
    rw [signedText, signedText, htext.2 h]

/-- **What the signature covers**: surfaces of one signature are the same in every member if and
only if it is not the case that the calls say the same and were given files of other contents. -/
theorem signature_covers_iff (a b : SurfaceArgs) (host host' : Host)
    (hsum : Set.InjOn Sha256.sum256 {t | t = signedText a host ∨ t = signedText b host' ∨
      t = rootText a host ∨ t = rootText b host'}) :
    ((buildSurface a host).lookup "signature".toList =
        (buildSurface b host').lookup "signature".toList →
      Same (.obj (buildSurface a host)) (.obj (buildSurface b host'))) ↔
    ¬ (SayTheSame a host b host' ∧
      (extraBlobs a host).flatten ≠ (extraBlobs b host').flatten) := by
  have hsignature := signature_eq_iff (hsum.mono fun t ht ↦ ht.imp_right Or.inl)
  have hroot := merkleRoot_eq_iff (hsum.mono fun t ht ↦ Or.inr (Or.inr ht))
  constructor
  · rintro hcovers ⟨hsay, hblobs⟩
    have hsame := hcovers (hsignature.2 hsay)
    have hlookup := hsame.lookup nodup_buildSurface nodup_buildSurface "merkleRoot".toList
    rw [lookup_merkleRoot_buildSurface, lookup_merkleRoot_buildSurface] at hlookup
    have htext := hroot.1 (by
      rw [lookup_merkleRoot_buildSurface, lookup_merkleRoot_buildSurface]
      exact hlookup)
    exact hblobs (rootText_eq_iff.1 htext).2
  · intro hnot heq
    have hsay := hsignature.1 heq
    have hblobs : (extraBlobs a host).flatten = (extraBlobs b host').flatten := by
      by_contra hblobs
      exact hnot ⟨hsay, hblobs⟩
    have hsame := sayTheSame_iff.1 hsay
    have htext := rootText_eq_iff.2 ⟨hsame, hblobs⟩
    have hsigned : signedText a host = signedText b host' := by
      rw [signedText, signedText, hsame.c14n_eq]
    have hnodup := @nodup_buildSurface a host
    rw [buildSurface_eq, htext, hsigned] at hnodup
    rw [buildSurface_eq, buildSurface_eq, htext, hsigned]
    exact hsame.append hnodup

/-- A host whose `/etc/os-release` has the lines in another order than another host's. -/
def linedHost (lines : List Str) : Host :=
  { sampleHost (fun _ ↦ none) with osRelease := some ("\n".toList.intercalate lines) }

/-- Two hosts with the same lines in another order, at work. -/
theorem signature_covers_reordered :
    let x := linedHost ["A=1".toList, "B=2".toList]
    let y := linedHost ["B=2".toList, "A=1".toList]
    ((buildSurface (sampleArgs []) x).lookup "signature".toList =
        (buildSurface (sampleArgs []) y).lookup "signature".toList →
      Same (.obj (buildSurface (sampleArgs []) x)) (.obj (buildSurface (sampleArgs []) y))) ↔
    ¬ (SayTheSame (sampleArgs []) x (sampleArgs []) y ∧
      (extraBlobs (sampleArgs []) x).flatten ≠ (extraBlobs (sampleArgs []) y).flatten) := by
  refine signature_covers_iff _ _ _ _ ?_
  have htext : signedText (sampleArgs []) (linedHost ["A=1".toList, "B=2".toList]) =
      signedText (sampleArgs []) (linedHost ["B=2".toList, "A=1".toList]) := by decide +kernel
  have hroot : ∀ host, rootText (sampleArgs []) host = signedText (sampleArgs []) host :=
    fun host ↦ List.append_nil _
  rw [hroot, hroot, ← htext]
  refine (Set.subsingleton_of_forall_eq
    (signedText (sampleArgs []) (linedHost ["A=1".toList, "B=2".toList])) ?_).injOn _
  rintro u (h | h | h | h) <;> exact h

/-- A host with one file `a`. -/
def fileHost (content : List UInt8) : Host :=
  sampleHost fun _ ↦ some content

/-- Two texts of different digests do not collide. -/
theorem injOn_pair {s t : List UInt8} (h : Sha256.sum256 s ≠ Sha256.sum256 t) :
    Set.InjOn Sha256.sum256 {u | u = s ∨ u = t} := by
  rintro u (rfl | rfl) v (rfl | rfl) huv
  · rfl
  · exact absurd huv h
  · exact absurd huv.symm h
  · rfl

/-- Calls that say the same, whose roots have different digests, are told apart by their roots
alone. -/
theorem signature_leaves_root_of_ne (hsigned : signedText b host' = signedText a host)
    (hroot : rootText a host = signedText a host)
    (hdigest : Sha256.sum256 (signedText a host) ≠ Sha256.sum256 (rootText b host')) :
    Set.InjOn Sha256.sum256 {t | t = signedText a host ∨ t = signedText b host' ∨
        t = rootText a host ∨ t = rootText b host'} ∧
      (buildSurface a host).lookup "signature".toList =
        (buildSurface b host').lookup "signature".toList ∧
      (buildSurface a host).lookup "merkleRoot".toList ≠
        (buildSurface b host').lookup "merkleRoot".toList := by
  refine ⟨?_, ?_, ?_⟩
  · rw [hsigned, hroot]
    refine (injOn_pair hdigest).mono ?_
    rintro u (rfl | rfl | rfl | rfl)
    · exact Or.inl rfl
    · exact Or.inl rfl
    · exact Or.inl rfl
    · exact Or.inr rfl
  · rw [lookup_signature_buildSurface, lookup_signature_buildSurface, hsigned]
  · rw [lookup_merkleRoot_buildSurface, lookup_merkleRoot_buildSurface, hroot]
    intro h
    have htext := List.append_cancel_left (Json.str.inj (Option.some.inj h))
    exact hdigest (hexdigest_injective htext)

/-- **One signature, two roots.** The same call, with another content of the file that is named. No
digest collides. -/
theorem signature_leaves_root :
    let args := sampleArgs [['a']]
    Set.InjOn Sha256.sum256 {t | t = signedText args (fileHost []) ∨
        t = signedText args (fileHost [0x78]) ∨ t = rootText args (fileHost []) ∨
        t = rootText args (fileHost [0x78])} ∧
      (buildSurface args (fileHost [])).lookup "signature".toList =
        (buildSurface args (fileHost [0x78])).lookup "signature".toList ∧
      (buildSurface args (fileHost [])).lookup "merkleRoot".toList ≠
        (buildSurface args (fileHost [0x78])).lookup "merkleRoot".toList :=
  signature_leaves_root_of_ne rfl (List.append_nil _) (by decide +kernel)

end Calls

end SourceOS.Truth
