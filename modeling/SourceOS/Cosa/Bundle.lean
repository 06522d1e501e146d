import SourceOS.Cosa.Accepted
import SourceOS.Foundation.DocumentJson
import SourceOS.Foundation.JsonFile

/-!
# What a bundle binds

`build_provenance` hashes the provenance with an empty `inputs_hash` and puts the hash in: whoever
has the provenance can do the same and compare (`Sealed`).

* A provenance that was written to a file reads back as the same value and is sealed, and whatever
  else is sealed with the same hash is the same value (`bundle_file_verifies`).
* The hash binds more than what the provenance says. It has a digest of the whole target and of the
  two files that the target refers to, so two provenances with one hash come from one target, one
  package manifest and one flavor, byte for byte (`inputs_hash_binds_inputs`).

Both are about targets that are JSON without floating-point numbers, in whatever form they were
read: a mapping of YAML with a number as a key has the text of one with a string.
-/

namespace SourceOS.Cosa

open Document

/-! ### The seal -/

/-- The provenance as it is hashed: `hashable["inputs_hash"] = ""`. -/
def hashable (prov : Document) : Document :=
  prov.set "inputs_hash" (.str [])

/-- The hash of a provenance is that of the rest of it. -/
def Sealed (floatValue : PyFloat → FloatValue) (prov : Document) : Prop :=
  ∃ bs, (hashable prov).canonicalBytes floatValue = .ok bs ∧
    prov.getItem "inputs_hash" = .ok (.str (digest bs))

theorem sum256_eq_of_digest {bs cs : List UInt8} (h : digest bs = digest cs) :
    Sha256.sum256 bs = Sha256.sum256 cs :=
  Json.hexdigest_injective (PyStr.ofStr_injective (List.append_cancel_left h))

/-- **A seal determines what it is on**: what is sealed with the same hash is the same value. -/
theorem sameJson_of_sealed {floatValue floatValue' : PyFloat → FloatValue} {d e : Document}
    (hd : IsJson d) (he : IsJson e) (hsealed : Sealed floatValue d)
    (hsealed' : Sealed floatValue' e)
    (hhash : d.getItem "inputs_hash" = e.getItem "inputs_hash")
    (hsum : Set.InjOn Sha256.sum256 {bs | (hashable d).canonicalBytes floatValue = .ok bs ∨
      (hashable e).canonicalBytes floatValue' = .ok bs}) : SameJson d e := by
  obtain ⟨bs, hbs, hget⟩ := hsealed
  obtain ⟨cs, hcs, hget'⟩ := hsealed'
  rw [hget, hget'] at hhash
  have hdigest : digest bs = digest cs := Scalar.str.inj (scalar.inj (Except.ok.inj hhash))
  have hmap : d.IsMap := isMap_of_get (get_of_getItem hget)
  have hmap' : e.IsMap := isMap_of_get (get_of_getItem hget')
  have hempty : IsJson (.str []) := isJson_lit ""
  -- without the hash they have the same bytes
  obtain rfl : bs = cs := hsum (Or.inl hbs) (Or.inr hcs) (sum256_eq_of_digest hdigest)
  have hsame : SameJson (hashable d) (hashable e) :=
    sameJson_of_canonicalBytes (hd.set hmap _ hempty) (he.set hmap' _ hempty) (hmap.set _ _)
      (hmap'.set _ _) (hbs.trans hcs.symm)
  have hback := hsame.set (hmap.set _ _) "inputs_hash" (isJson_str.2 (clean_digest bs))
  rwa [hashable, hashable, set_set_of_getItem hd hget, set_set_of_getItem he hget'] at hback

/-- The same value is sealed with the same hash. -/
theorem Sealed.of_sameJson {floatValue floatValue' : PyFloat → FloatValue} {d e : Document}
    (h : Sealed floatValue d) (hsame : SameJson d e) : Sealed floatValue' e := by
  obtain ⟨bs, hbs, hget⟩ := h
  obtain ⟨v, hv, hstr⟩ := hsame.getItem hget
  have hset := hsame.set (isMap_of_get (get_of_getItem hget)) "inputs_hash" (isJson_lit "")
  exact ⟨bs, hset.canonicalBytes_eq.symm.trans hbs, by rw [hv, hstr.eq_str]⟩

/-! ### What a run emits -/

section

variable {env : BuildEnv} {args : BuildArgs} {target prov : Document}

/-- **What is emitted** was put together from what the run has read. -/
theorem exists_inputs_of_emitted (h : prov ∈ (cmdBuild env args target).emitted) :
    ∃ inputs planned inputsHash, readInputs env target = .ok inputs ∧
      digestDocument env (provenance env inputs planned (forcedDry env args)
        (builderAvailable env).2 []) = .ok inputsHash ∧
      prov = provenance env inputs planned (forcedDry env args) (builderAvailable env).2
        inputsHash := by
  rcases cmdBuild_cases env args target with
    ⟨-, hemitted⟩ | ⟨planned, -, -, ⟨e, -, hrun⟩ | ⟨rc, -, hrun⟩⟩
  · rw [hemitted] at h
    exact absurd h List.not_mem_nil
  · rw [hrun] at h
    exact absurd h List.not_mem_nil
  · rw [hrun] at h
    obtain ⟨inputs, hinputs, h⟩ := exists_of_bind_eq_ok (mem_emit h).2
    obtain ⟨inputsHash, hhash, h⟩ := exists_of_bind_eq_ok h
    exact ⟨inputs, planned, inputsHash, hinputs, hhash, (Except.ok.inj h).symm⟩

/-- **What is emitted is sealed.** -/
theorem sealed_of_emitted (h : prov ∈ (cmdBuild env args target).emitted) :
    Sealed env.floatValue prov := by
  obtain ⟨inputs, planned, inputsHash, -, hhash, rfl⟩ := exists_inputs_of_emitted h
  obtain ⟨bs, hbs, rfl⟩ := exists_canonicalBytes hhash
  exact ⟨bs, hbs, rfl⟩

/-! ### What is emitted is JSON -/

theorem holdsOfNew_isJson : HoldsOfNew Scalar.IsJson Names where
  str h := h
  bool _ := trivial
  null := trivial
  keys := names_map_lit

/-- The bytes of a file that the target refers to, if it can be read. -/
def fileOf (env : BuildEnv) (target : Document) (field : String) :
    Except BuiltinError (Option (List UInt8)) := do
  let spec ← target.getItem "spec"
  let ref ← spec.getItem field
  let path ← pathOf ref
  return env.readBytes path

/-- The digest of a file, or that it could not be read. -/
def digestOf : Option (List UInt8) → Document
  | some bs => .str (digest bs)
  | none => null

/-- **What is read of a target** has digests of the target and of the two files. -/
theorem digests_of_readInputs {inputs : Inputs} (h : readInputs env target = .ok inputs) :
    digestDocument env target = .ok inputs.configDigest ∧
      (∃ manifest, fileOf env target "packageManifestRef" = .ok manifest ∧
        inputs.manifestDigest = digestOf manifest) ∧
      ∃ flavor, fileOf env target "flavorRef" = .ok flavor ∧
        inputs.flavorDigest = digestOf flavor := by
  obtain ⟨spec, metadata, manifestPath, flavorPath, h⟩ := readInputs_eq_ok_iff.1 h
  have hfile : ∀ {field : String} {ref : Document} {path : PyStr},
      spec.getItem field = .ok ref → pathOf ref = .ok path →
        ∃ file, fileOf env target field = .ok file ∧ digestFile env path = digestOf file := by
    intro field ref path href hpath
    refine ⟨env.readBytes path, ?_, ?_⟩
    · simp only [fileOf, h.getSpec, href, hpath, ok_bind]
      rfl
    · rw [digestFile]
      cases env.readBytes path <;> rfl
  rw [h.manifestDigest, h.flavorDigest]
  exact ⟨h.configDigest, hfile h.manifestRef h.toManifest, hfile h.flavorRef h.toFlavor⟩

/-- **What is emitted for a target that is JSON** is JSON. -/
theorem isJson_of_emitted (htarget : target.IsJson)
    (h : prov ∈ (cmdBuild env args target).emitted) : prov.IsJson := by
  obtain ⟨inputs, planned, inputsHash, hinputs, hhash, rfl⟩ := exists_inputs_of_emitted h
  -- the path of the target and the commands can be written, as they have been hashed
  obtain ⟨href, hcommands⟩ :=
    clean_of_writable_provenance (digestDocument_ok_iff.1 ⟨_, hhash⟩).1
  exact forall_provenance holdsOfNew_isJson (forall_of_readInputs holdsOfNew_isJson htarget hinputs)
    href hcommands _ _ (clean_digestDocument hhash)

/-- What a provenance says about a file. -/
theorem getItem_digests (h : prov ∈ (cmdBuild env args target).emitted) :
    (∃ bs buildTarget, target.canonicalBytes env.floatValue = .ok bs ∧
        prov.getItem "buildTarget" = .ok buildTarget ∧
        buildTarget.getItem "configDigest" = .ok (.str (digest bs))) ∧
      ∀ p ∈ [("packageManifest", "packageManifestRef"), ("flavor", "flavorRef")],
        ∃ file entry, fileOf env target p.2 = .ok file ∧ prov.getItem p.1 = .ok entry ∧
          entry.getItem "digest" = .ok (digestOf file) := by
  obtain ⟨inputs, planned, inputsHash, hinputs, -, rfl⟩ := exists_inputs_of_emitted h
  obtain ⟨hdigest, ⟨manifest, hmanifest, hmanifestDigest⟩, flavor, hflavor, hflavorDigest⟩ :=
    digests_of_readInputs hinputs
  obtain ⟨bs, hbs, hconfig⟩ := exists_canonicalBytes hdigest
  refine ⟨⟨bs, _, hbs, rfl, ?_⟩, ?_⟩
  · show Except.ok (Document.str inputs.configDigest) = _
    rw [hconfig]
  · rw [List.forall_mem_cons, List.forall_mem_singleton]
    constructor
    · refine ⟨manifest, _, hmanifest, rfl, ?_⟩
      show Except.ok inputs.manifestDigest = _
      rw [hmanifestDigest]
    · refine ⟨flavor, _, hflavor, rfl, ?_⟩
      show Except.ok inputs.flavorDigest = _
      rw [hflavorDigest]

end

/-- **The file of a provenance can be verified.** Whatever the target, as long as it is JSON, the
mode and the host: a provenance that is emitted reads back from its file as the same value, the hash
in it is that of the rest, and nothing else that is sealed with this hash is another value, unless
the two texts that are hashed collide. -/
theorem bundle_file_verifies {env : BuildEnv} {args : BuildArgs} {target prov : Document}
    (htarget : target.IsJson) (h : prov ∈ (cmdBuild env args target).emitted)
    (readFloat : Str → PyFloat) :
    ∃ b, ofJson b = prov ∧
      (∃ read, Json.loads readFloat (Json.fileText b) = some read ∧ SameJson (ofJson read) prov ∧
        Sealed env.floatValue (ofJson read)) ∧
      ∀ other : Document, other.IsJson → Sealed env.floatValue other →
        other.getItem "inputs_hash" = prov.getItem "inputs_hash" →
        Set.InjOn Sha256.sum256 {bs | (hashable other).canonicalBytes env.floatValue = .ok bs ∨
          (hashable prov).canonicalBytes env.floatValue = .ok bs} →
        SameJson other prov := by
  have hprov := isJson_of_emitted htarget h
  have hsealed := sealed_of_emitted h
  obtain ⟨b, hb, rfl⟩ := exists_ofJson hprov
  have hread : SameJson (ofJson (Json.sortKeys b)) (ofJson b) := sameJson_sortKeys hb
  exact ⟨b, rfl, ⟨Json.sortKeys b, Json.loads_fileText readFloat hb, hread,
    hsealed.of_sameJson hread.symm⟩, fun other hother hsealed' hhash hsum ↦
      sameJson_of_sealed hother hprov hsealed' hsealed hhash hsum⟩

/-- A dry run emits the same to a file as to standard output. -/
theorem emitted_of_dryRun {env : BuildEnv} (hwrite : env.write = none) (file : Option PyStr)
    (target : Document) : (cmdBuild env ⟨true, file, none⟩ target).emitted =
      (cmdBuild env ⟨true, none, none⟩ target).emitted := by
  have hdry : ∀ file, forcedDry env ⟨true, file, none⟩ = true := fun _ ↦ rfl
  have hannounced : announcedPlan env ⟨true, file, none⟩ target =
      announcedPlan env ⟨true, none, none⟩ target := rfl
  rw [cmdBuild, cmdBuild, hannounced]
  rcases targetErrors env target with e | (_ | ⟨err, errs⟩)
  · rfl
  · rcases announcedPlan env ⟨true, none, none⟩ target with e | planned
    · rfl
    · simp only [hdry, execute, if_true, emit, hwrite, or_true, and_true, ite_self]
      cases buildProvenance env target planned true (builderAvailable env).2 <;> rfl
  · rfl

/-- A dry run emits a provenance. -/
theorem exists_emitted_sample (file : Option PyStr) :
    ∃ prov, (cmdBuild sampleEnv ⟨true, file, none⟩ sampleTarget).emitted = [prov] := by
  have hlength : (cmdBuild sampleEnv ⟨true, none, none⟩ sampleTarget).emitted.length = 1 := by
    decide +kernel
  rw [emitted_of_dryRun rfl]
  exact List.length_eq_one_iff.1 hlength

/-- The file of a dry run, read back. -/
theorem bundle_file_verifies_sample :
    ∃ prov b read, (cmdBuild sampleEnv ⟨true, some (.lit "out.json"), none⟩ sampleTarget).emitted =
        [prov] ∧ ofJson b = prov ∧
      Json.loads Runtime.ascii.readFloat (Json.fileText b) = some read ∧
      Sealed sampleEnv.floatValue (ofJson read) := by
  obtain ⟨prov, hprov⟩ := exists_emitted_sample (some (.lit "out.json"))
  obtain ⟨b, hb, ⟨read, hread, -, hsealed⟩, -⟩ := @bundle_file_verifies sampleEnv _ sampleTarget
    prov (by decide) (hprov ▸ List.mem_singleton_self prov)
    Runtime.ascii.readFloat
  exact ⟨prov, b, read, hprov, hb, hread, hsealed⟩

/-! ### What is bound -/

/-- Files with the same digest are the same: both of them can be read, or none of them. -/
theorem eq_of_digestOf {file file' : Option (List UInt8)}
    (hsum : Set.InjOn Sha256.sum256 {bs | bs ∈ file ∨ bs ∈ file'})
    (h : digestOf file = digestOf file') : file = file' := by
  cases file with
  | none =>
    cases file' with
    | none => rfl
    | some cs => cases h
  | some bs =>
    cases file' with
    | none => cases h
    | some cs =>
      have hdigest : digest bs = digest cs := Scalar.str.inj (scalar.inj h)
      rw [hsum (Or.inl rfl) (Or.inr rfl) (sum256_eq_of_digest hdigest)]

/-- Only a mapping refers to files. -/
theorem isMap_of_fileOf {env : BuildEnv} {target : Document} {field : String}
    {file : Option (List UInt8)} (h : fileOf env target field = .ok file) : target.IsMap := by
  obtain ⟨spec, hspec, -⟩ := exists_of_bind_eq_ok h
  exact isMap_of_get (get_of_getItem hspec)

/-- **The hash binds the inputs.** Two runs, on any hosts and in any modes, that emit provenances
with one `inputs_hash` have emitted the same provenance, for the same target, with a package
manifest and a flavor of the same bytes, unless SHA-256 collides on the two provenances, on the two
targets or on two files. -/
theorem inputs_hash_binds_inputs {env env' : BuildEnv} {args args' : BuildArgs}
    {target target' prov prov' : Document} (htarget : target.IsJson) (htarget' : target'.IsJson)
    (h : prov ∈ (cmdBuild env args target).emitted)
    (h' : prov' ∈ (cmdBuild env' args' target').emitted)
    (hprov : Set.InjOn Sha256.sum256 {bs | (hashable prov).canonicalBytes env.floatValue = .ok bs ∨
      (hashable prov').canonicalBytes env'.floatValue = .ok bs})
    (hconfig : Set.InjOn Sha256.sum256 {bs | target.canonicalBytes env.floatValue = .ok bs ∨
      target'.canonicalBytes env'.floatValue = .ok bs})
    (hfiles : ∀ field ∈ ["packageManifestRef", "flavorRef"], Set.InjOn Sha256.sum256
      {bs | fileOf env target field = .ok (some bs) ∨ fileOf env' target' field = .ok (some bs)})
    (hhash : prov.getItem "inputs_hash" = prov'.getItem "inputs_hash") :
    SameJson prov prov' ∧ SameJson target target' ∧
      ∀ field ∈ ["packageManifestRef", "flavorRef"],
        ∃ file, fileOf env target field = .ok file ∧ fileOf env' target' field = .ok file := by
  have hsame : SameJson prov prov' :=
    sameJson_of_sealed (isJson_of_emitted htarget h) (isJson_of_emitted htarget' h')
      (sealed_of_emitted h) (sealed_of_emitted h') hhash hprov
  obtain ⟨⟨bs, buildTarget, hbs, hbuildTarget, hdigest⟩, hdigests⟩ := getItem_digests h
  obtain ⟨⟨cs, buildTarget', hcs, hbuildTarget', hdigest'⟩, hdigests'⟩ :=
    getItem_digests h'
  -- a digest in a part of the provenance is the same on both sides
  have hpart : ∀ {part key : String} {d d' v v' : Document}, prov.getItem part = .ok d →
      prov'.getItem part = .ok d' → d.getItem key = .ok v → d'.getItem key = .ok v' →
        SameJson v v' := by
    intro part key d d' v v' hd hd' hv hv'
    obtain ⟨e, he, hsamePart⟩ := hsame.getItem hd
    obtain rfl := Except.ok.inj (hd'.symm.trans he)
    obtain ⟨w, hw, hsameValue⟩ := hsamePart.getItem hv
    obtain rfl := Except.ok.inj (hv'.symm.trans hw)
    exact hsameValue
  have hfile : ∀ p ∈ [("packageManifest", "packageManifestRef"), ("flavor", "flavorRef")],
      p.2 ∈ ["packageManifestRef", "flavorRef"] →
        ∃ file, fileOf env target p.2 = .ok file ∧ fileOf env' target' p.2 = .ok file := by
    intro p hp hfield
    obtain ⟨file, entry, hfile, hentry, hv⟩ := hdigests p hp
    obtain ⟨file', entry', hfile', hentry', hv'⟩ := hdigests' p hp
    have hsameDigest := hpart hentry hentry' hv hv'
    have heq : digestOf file = digestOf file' := by
      cases file with
      | some bs => exact hsameDigest.eq_str.symm
      | none => exact hsameDigest.eq_null.symm
    have hsum := hfiles p.2 hfield
    simp only [hfile, hfile', Except.ok.injEq] at hsum
    exact ⟨file, hfile, by rw [hfile', eq_of_digestOf hsum heq]⟩
  refine ⟨hsame, ?_, ?_⟩
  · have hsameDigest := hpart hbuildTarget hbuildTarget' hdigest hdigest'
    have heq : digest cs = digest bs := Scalar.str.inj (scalar.inj hsameDigest.eq_str)
    have hbytes : cs = bs := hconfig (Or.inr hcs) (Or.inl hbs) (sum256_eq_of_digest heq)
    obtain ⟨_, _, hmanifest, -, -⟩ := hdigests _ List.mem_cons_self
    obtain ⟨_, _, hmanifest', -, -⟩ := hdigests' _ List.mem_cons_self
    exact sameJson_of_canonicalBytes htarget htarget' (isMap_of_fileOf hmanifest)
      (isMap_of_fileOf hmanifest') (by rw [hbs, hcs, hbytes])
  · rw [List.forall_mem_cons, List.forall_mem_singleton]
    exact ⟨hfile ("packageManifest", _) (by simp) (by simp),
      hfile ("flavor", _) (by simp) (by simp)⟩

/-- Two dry runs, one to a file and one to standard output. -/
theorem inputs_hash_binds_inputs_twice :
    ∃ prov prov', (cmdBuild sampleEnv ⟨true, some (.lit "out.json"), none⟩ sampleTarget).emitted =
        [prov] ∧ (cmdBuild sampleEnv ⟨true, none, none⟩ sampleTarget).emitted = [prov'] ∧
      SameJson prov prov' ∧ SameJson sampleTarget sampleTarget := by
  obtain ⟨prov, hprov⟩ := exists_emitted_sample (some (.lit "out.json"))
  have hprov' : (cmdBuild sampleEnv ⟨true, none, none⟩ sampleTarget).emitted = [prov] := by
    rw [← hprov, @emitted_of_dryRun sampleEnv rfl (some _)]
  have hself : ∀ s : Except BuiltinError (List UInt8),
      Set.InjOn Sha256.sum256 {bs | s = .ok bs ∨ s = .ok bs} := by
    intro s bs hbs cs hcs _
    exact Except.ok.inj ((or_self_iff.1 hbs).symm.trans (or_self_iff.1 hcs))
  obtain ⟨hsame, hsameTarget, -⟩ := @inputs_hash_binds_inputs sampleEnv sampleEnv _ _ sampleTarget
    sampleTarget prov prov (by decide) (by decide) (hprov ▸ List.mem_singleton_self prov)
    (hprov' ▸ List.mem_singleton_self prov) (hself _) (hself _)
    (fun field _ bs hbs cs hcs _ ↦ Option.some.inj (Except.ok.inj
      ((or_self_iff.1 hbs).symm.trans (or_self_iff.1 hcs)))) rfl
  exact ⟨prov, prov, hprov, hprov', hsame, hsameTarget⟩

end SourceOS.Cosa
