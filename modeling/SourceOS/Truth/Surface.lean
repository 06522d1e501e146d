import Mathlib.Data.List.Dedup
import SourceOS.Foundation.Canonical
import SourceOS.Foundation.Sha256
import SourceOS.Foundation.Strftime

/-!
# The TruthSurface emitter

`build_surface` of `tools/sourceos_truth_surface.py`: what a host says about itself at one moment —
a plane, references, the evidence that is required and present, the operating system and its
integrity, the governance values — as a JSON object, with null members dropped and two digests
added.

Everything the call reads besides its arguments is in `Host`: the clock, the identifier that `uuid`
would make up, `uname`, the text of `/etc/os-release`, whether IMA is enabled, and the files named
for hashing. The two digests are computed from the canonical text of the object without them; the
text is that of `Json.c14n`.
-/

namespace SourceOS.Truth

open Text Json

/-! ### Dropping nulls -/

mutual

/-- `drop_nulls`. -/
def dropNulls : Json → Json
  | .arr xs => .arr (dropNullItems xs)
  | .obj ms => .obj (dropNullMembers ms)
  | j => j

/-- The items that are not null. -/
def dropNullItems : List Json → List Json
  | [] => []
  | .null :: xs => dropNullItems xs
  | x :: xs => dropNulls x :: dropNullItems xs

/-- The members that are not null. -/
def dropNullMembers : Dict → Dict
  | [] => []
  | (_, .null) :: ms => dropNullMembers ms
  | (k, v) :: ms => (k, dropNulls v) :: dropNullMembers ms

end

/-- An item or a member that is not null is kept, without its own nulls. -/
theorem dropNullItems_cons {x : Json} (h : x ≠ .null) (xs : List Json) :
    dropNullItems (x :: xs) = dropNulls x :: dropNullItems xs := by
  cases x with
  | null => exact absurd rfl h
  | _ => rfl

theorem dropNullMembers_cons {v : Json} (h : v ≠ .null) (k : Str) (ms : Dict) :
    dropNullMembers ((k, v) :: ms) = (k, dropNulls v) :: dropNullMembers ms := by
  cases v with
  | null => exact absurd rfl h
  | _ => rfl

/-- **What a member becomes**, in an object with different keys: a null is not there any more. -/
theorem lookup_dropNullMembers {ms : Dict} (h : (ms.map Prod.fst).Nodup) (k : Str) :
    (dropNullMembers ms).lookup k =
      (ms.lookup k).bind fun v ↦ if v matches .null then none else some (dropNulls v) := by
  induction ms with
  | nil => rfl
  | cons m ms ih =>
    obtain ⟨k', v⟩ := m
    obtain ⟨hk', hms⟩ := List.nodup_cons.1 h
    by_cases hnull : v = .null
    · subst hnull
      rw [dropNullMembers, ih hms, List.lookup_cons]
      rcases hkk : k == k' with _ | _
      · rfl
      · -- The key of a null member does not occur again.
        have hnone : ms.lookup k = none := by
          rw [List.lookup_eq_none_iff]
          intro m hm
          rw [eq_of_beq hkk, bne_iff_ne]
          exact fun h ↦ hk' (List.mem_map.2 ⟨m, hm, h.symm⟩)
        rw [hnone]
        rfl
    · rw [dropNullMembers_cons hnull, List.lookup_cons, List.lookup_cons]
      rcases hkk : k == k' with _ | _
      · exact ih hms
      · cases v with
        | null => exact absurd rfl hnull
        | _ => rfl

/-- A member that is not null is found. -/
theorem lookup_dropNullMembers_of_ne_null {ms : Dict} {k : Str} {v : Json}
    (hnodup : (ms.map Prod.fst).Nodup) (h : ms.lookup k = some v) (hv : v ≠ .null) :
    (dropNullMembers ms).lookup k = some (dropNulls v) := by
  rw [lookup_dropNullMembers hnodup, h]
  cases v with
  | null => exact absurd rfl hv
  | _ => rfl

/-! ### Sets of strings -/

/-- `sorted(set(ss))`. -/
def sortedSet (ss : List Str) : List Str :=
  ss.dedup.insertionSort (· ≤ ·)

/-- Strings as an array. -/
def strings (ss : List Str) : Json :=
  .arr (ss.map .str)

/-- Strings have no nulls among them. -/
theorem dropNullItems_strings (ss : List Str) : dropNullItems (ss.map .str) = ss.map .str := by
  induction ss with
  | nil => rfl
  | cons s ss ih =>
    rw [List.map_cons, dropNullItems_cons (by simp), ih]
    rfl

theorem dropNulls_strings (ss : List Str) : dropNulls (strings ss) = strings ss := by
  rw [strings, dropNulls, dropNullItems_strings]

theorem strings_inj {ss ts : List Str} (h : strings ss = strings ts) : ss = ts :=
  List.map_injective_iff.2 (fun _ _ ↦ Json.str.inj) (Json.arr.inj h)

theorem mem_sortedSet {ss : List Str} {s : Str} : s ∈ sortedSet ss ↔ s ∈ ss := by
  rw [sortedSet, (List.perm_insertionSort _ _).mem_iff, List.mem_dedup]

/-- A sorted set is in order, without repetitions. -/
theorem pairwise_sortedSet (ss : List Str) : (sortedSet ss).Pairwise (· < ·) := by
  have hnodup : (sortedSet ss).Nodup :=
    (List.perm_insertionSort _ _).nodup_iff.2 ss.nodup_dedup
  exact ((List.pairwise_insertionSort (· ≤ ·) ss.dedup).and hnodup).imp fun h ↦
    lt_of_le_of_ne h.1 h.2

/-- **A sorted set is determined by its members.** -/
theorem sortedSet_eq_iff {ss ts : List Str} :
    sortedSet ss = sortedSet ts ↔ ∀ s, s ∈ ss ↔ s ∈ ts := by
  constructor
  · intro h s
    rw [← mem_sortedSet, h, mem_sortedSet]
  · intro h
    have hperm : ss.dedup.Perm ts.dedup :=
      (List.perm_ext_iff_of_nodup ss.nodup_dedup ts.nodup_dedup).2 fun s ↦ by
        rw [List.mem_dedup, List.mem_dedup, h]
    have hsorted : (sortedSet ss).Perm (sortedSet ts) :=
      (List.perm_insertionSort _ _).trans (hperm.trans (List.perm_insertionSort _ _).symm)
    exact hsorted.eq_of_pairwise (fun _ _ _ _ h h' ↦ le_antisymm h h')
      (List.pairwise_insertionSort _ _) (List.pairwise_insertionSort _ _)

/-- A string, or null. -/
def optional : Option Str → Json
  | none => .null
  | some s => .str s

/-- `x or default`, for a string that may be missing. -/
def orDefault (x : Option Str) (default : Str) : Str :=
  match x with
  | some (c :: s) => c :: s
  | _ => default

/-- `_evidence_panel`. -/
def evidencePanel (required present : List Str) : Dict :=
  let req := required.filter (· ≠ [])
  let pres := present.filter (· ≠ [])
  [("required".toList, strings (sortedSet req)),
   ("present".toList, strings (sortedSet pres)),
   ("missing".toList, strings (sortedSet (req.filter (· ∉ pres))))]

theorem nodup_evidencePanel (required present : List Str) :
    ((evidencePanel required present).map Prod.fst).Nodup := by
  simp only [evidencePanel, List.map_cons, List.map_nil]
  decide

/-! ### What a call reads -/

/-- `platform.uname()`. -/
structure Uname where
  /-- The operating system. -/
  system : Str
  /-- The name of the host. -/
  node : Str
  /-- The release. -/
  release : Str
  /-- The version. -/
  version : Str
  /-- The machine. -/
  machine : Str
  /-- The processor. -/
  processor : Str

/-- What a call reads from the host. -/
structure Host where
  /-- `time.gmtime()`. -/
  now : StructTime
  /-- `uuid.uuid4().hex`. -/
  uuid : Str
  /-- The result of `uname`. -/
  uname : Uname
  /-- The text of `/etc/os-release`, if it can be read. -/
  osRelease : Option Str
  /-- `_detect_ima_enabled`. -/
  ima : Option Bool
  /-- The bytes of a file, if it can be read. -/
  readBytes : Str → Option (List UInt8)

/-- Where `str.splitlines` ends a line. -/
def isLineBreak (c : Char) : Bool :=
  c == '\n' || c == '\r' || c == '\x0b' || c == '\x0c' || c == '\x1c' || c == '\x1d' ||
    c == '\x1e' || c == '\u0085' || c == '\u2028' || c == '\u2029'

/-- `str.splitlines`, with the characters of the current line so far, the last one first. -/
def splitLines : Str → Str → List Str
  | line, [] => if line = [] then [] else [line.reverse]
  | line, '\r' :: '\n' :: s => line.reverse :: splitLines [] s
  | line, c :: s =>
    if isLineBreak c then line.reverse :: splitLines [] s else splitLines (c :: line) s

/-- `strip` of a quote character. -/
def stripQuotes (s : Str) : Str :=
  ((s.dropWhile (· == '"')).reverse.dropWhile (· == '"')).reverse

/-- A line of `/etc/os-release`: nothing for a blank line, a comment or a line without an equals
sign. -/
def readOsReleaseLine (line : Str) : Option (Str × Json) :=
  let line := strip line
  if line = [] ∨ line.head? = some '#' ∨ '=' ∉ line then none
  else
    let key := line.takeWhile (· ≠ '=')
    let value := (line.dropWhile (· ≠ '=')).tail
    some (strip key, .str (stripQuotes (strip value)))

/-- `_read_os_release`. -/
def readOsRelease (text : Option Str) : Dict :=
  match text with
  | none => []
  | some s => ofMembers ((splitLines [] s).filterMap readOsReleaseLine)

/-! ### The surface -/

/-- The arguments of `build_surface`. -/
structure SurfaceArgs where
  plane : Str
  specVersion : Str
  id : Option Str
  createdAt : Option Str
  signer : Str
  policyPackDigest : Option Str
  riskScore : ℤ
  riskThreshold : ℤ
  humanApprovalRequired : Bool
  humanApproved : Bool
  evidenceRequired : List Str
  evidencePresent : List Str
  policyDecisionRef : List Str
  capabilityTokenId : List Str
  runRecordRef : List Str
  provenanceRef : List Str
  telemetryRef : List Str
  evidenceBundleRef : List Str
  cairnBeforeRef : Option Str
  cairnAfterRef : Option Str
  anchor : List Str
  topic : List Str
  glossaryRef : List Str
  extraHashPath : List Str

variable (a : SurfaceArgs) (host : Host)

/-- The identifier of a surface. -/
def surfaceId : Str :=
  orDefault a.id ("urn:srcos:truth-surface:".toList ++ host.uuid)

/-- When a surface was created, as it says. -/
def surfaceCreatedAt : Str :=
  orDefault a.createdAt host.now.isoformat

/-- What a surface says about governance. -/
def governance : Dict :=
  [("policyPackDigest".toList, optional a.policyPackDigest),
   ("riskScore".toList, .int a.riskScore),
   ("riskThreshold".toList, .int a.riskThreshold),
   ("humanApprovalRequired".toList, .bool a.humanApprovalRequired),
   ("humanApproved".toList, .bool a.humanApproved)]

/-- The object before nulls are dropped. -/
def surfaceMembers : Dict :=
  [("id".toList, .str (surfaceId a host)),
   ("type".toList, .str "TruthSurface".toList),
   ("specVersion".toList, .str a.specVersion),
   ("plane".toList, .str a.plane),
   ("createdAt".toList, .str (surfaceCreatedAt a host)),
   ("signer".toList, .str a.signer),
   ("refs".toList, .obj
     [("policyDecisionRefs".toList, strings a.policyDecisionRef),
      ("capabilityTokenIds".toList, strings a.capabilityTokenId),
      ("runRecordRefs".toList, strings a.runRecordRef),
      ("provenanceRefs".toList, strings a.provenanceRef),
      ("telemetryRefs".toList, strings a.telemetryRef),
      ("evidenceBundleRefs".toList, strings a.evidenceBundleRef),
      ("cairnBeforeRef".toList, optional a.cairnBeforeRef),
      ("cairnAfterRef".toList, optional a.cairnAfterRef)]),
   ("evidence".toList, .obj (evidencePanel a.evidenceRequired a.evidencePresent)),
   ("semantics".toList, .obj
     [("anchors".toList, strings a.anchor),
      ("topics".toList, strings a.topic),
      ("glossary".toList, strings a.glossaryRef)]),
   ("runtime".toList, .obj
     [("osRelease".toList, .obj (readOsRelease host.osRelease)),
      ("uname".toList, .obj
        [("system".toList, .str host.uname.system),
         ("node".toList, .str host.uname.node),
         ("release".toList, .str host.uname.release),
         ("version".toList, .str host.uname.version),
         ("machine".toList, .str host.uname.machine),
         ("processor".toList, .str host.uname.processor)]),
      ("integrity".toList, .obj
        [("ima".toList, .str (match host.ima with
          | some true => "enabled".toList
          | some false => "disabled".toList
          | none => "unknown".toList))])]),
   ("governance".toList, .obj (governance a))]

/-- `_compute_merkle_root`. -/
def computeMerkleRoot (withoutSig : Dict) (extraBlobs : List (List UInt8)) : Str :=
  "sha256:".toList ++
    hexdigest (Sha256.sum256 (utf8 (c14n (.obj withoutSig)) ++ extraBlobs.flatten))

/-- `_dev_signature`. -/
def devSignature (withoutSig : Dict) : Str :=
  "sig:dev:sha256:".toList ++ hexdigest (Sha256.sum256 (utf8 (c14n (.obj withoutSig))))

/-- The last steps of an emitter: nulls are dropped, and the digests of the rest are added. -/
def sealed (members : Dict) (extraBlobs : List (List UInt8)) : Dict :=
  let withoutSig := dropNullMembers members
  withoutSig ++ [("merkleRoot".toList, .str (computeMerkleRoot withoutSig extraBlobs)),
    ("signature".toList, .str (devSignature withoutSig))]

/-- `build_surface`. Files that cannot be read are left out. -/
def buildSurface : Dict :=
  sealed (surfaceMembers a host) (a.extraHashPath.filterMap host.readBytes)

variable {a host}

/-- Members that are not null, in what an emitter returns. -/
theorem lookup_sealed {members : Dict} {extraBlobs : List (List UInt8)} {k : Str} {v : Json}
    (hnodup : (members.map Prod.fst).Nodup) (h : members.lookup k = some v) (hv : v ≠ .null) :
    (sealed members extraBlobs).lookup k = some (dropNulls v) := by
  rw [sealed, List.lookup_append, lookup_dropNullMembers_of_ne_null hnodup h hv]
  rfl

theorem nodup_surfaceMembers : ((surfaceMembers a host).map Prod.fst).Nodup := by
  simp only [surfaceMembers, List.map_cons, List.map_nil]
  decide

theorem lookup_id_buildSurface :
    (buildSurface a host).lookup "id".toList = some (.str (surfaceId a host)) := by
  have h : (surfaceMembers a host).lookup "id".toList = some (.str (surfaceId a host)) := rfl
  exact lookup_sealed nodup_surfaceMembers h (by simp)

theorem lookup_createdAt_buildSurface :
    (buildSurface a host).lookup "createdAt".toList = some (.str (surfaceCreatedAt a host)) := by
  have h : (surfaceMembers a host).lookup "createdAt".toList =
      some (.str (surfaceCreatedAt a host)) := rfl
  exact lookup_sealed nodup_surfaceMembers h (by simp)

theorem lookup_evidence_buildSurface : (buildSurface a host).lookup "evidence".toList =
    some (.obj (evidencePanel a.evidenceRequired a.evidencePresent)) := by
  have h : (surfaceMembers a host).lookup "evidence".toList =
      some (.obj (evidencePanel a.evidenceRequired a.evidencePresent)) := rfl
  refine (lookup_sealed nodup_surfaceMembers h (by simp)).trans ?_
  rw [dropNulls, evidencePanel, dropNullMembers_cons (by simp [strings]),
    dropNullMembers_cons (by simp [strings]), dropNullMembers_cons (by simp [strings]),
    dropNulls_strings, dropNulls_strings, dropNulls_strings]
  rfl

theorem lookup_governance_buildSurface : (buildSurface a host).lookup "governance".toList =
    some (.obj (dropNullMembers (governance a))) := by
  have h : (surfaceMembers a host).lookup "governance".toList = some (.obj (governance a)) := rfl
  exact lookup_sealed nodup_surfaceMembers h (by simp)

theorem nodup_governance (a : SurfaceArgs) : ((governance a).map Prod.fst).Nodup := by
  simp only [governance, List.map_cons, List.map_nil]
  decide

/-- What a surface says about governance, where it says something. -/
theorem lookup_dropNullMembers_governance {k : Str} {v : Json}
    (h : (governance a).lookup k = some v) (hv : v ≠ .null) :
    (dropNullMembers (governance a)).lookup k = some (dropNulls v) :=
  lookup_dropNullMembers_of_ne_null (nodup_governance a) h hv

theorem lookup_semantics_buildSurface : (buildSurface a host).lookup "semantics".toList =
    some (.obj [("anchors".toList, strings a.anchor), ("topics".toList, strings a.topic),
      ("glossary".toList, strings a.glossaryRef)]) := by
  have h : (surfaceMembers a host).lookup "semantics".toList =
      some (.obj [("anchors".toList, strings a.anchor), ("topics".toList, strings a.topic),
        ("glossary".toList, strings a.glossaryRef)]) := rfl
  refine (lookup_sealed nodup_surfaceMembers h (by simp)).trans ?_
  rw [dropNulls, dropNullMembers_cons (by simp [strings]), dropNullMembers_cons (by simp [strings]),
    dropNullMembers_cons (by simp [strings]), dropNulls_strings, dropNulls_strings,
    dropNulls_strings]
  rfl

end SourceOS.Truth
