import SourceOS.Cosa.Lint

/-!
# Building what has been accepted

A target that `validate_target` and `_semantic_checks` have nothing against is planned, announced,
built and written up. What the two have established is enough for the plan, but not for what is done
with the rest of the document: it is hashed as canonical JSON, some of it is printed, and the path
of the target is taken relative to the repository. All of that can raise, and the provenance comes
last, after the build.

* A plan is there for every accepted target (`exists_plan`).
* The provenance can be put together **if and only if** the document is `Writable` and its integers
  have texts, the target is below the root of the repository and its path has an encoding, and what
  `git` says can be decoded (`buildProvenance_ok_iff`).
* A run in which no command fails gets there if the other paths that are printed have an encoding,
  the working directory can be made and the commands can be started. `accepted_build_iff` puts these
  together.

The provenance holds values of the document, of any shape; what holds of every part of the document
holds of every part of the provenance (`forall_provenance`).
-/

namespace SourceOS.Cosa

open Document

/-! ### The plan -/

section

variable {env : BuildEnv} {target : Document}

/-- **The references of an accepted target** are paths. -/
theorem exists_path (hsound : SchemaSound env.jsonschema)
    (hvalid : targetErrors env target = .ok []) :
    ∃ c : Checked target, ∀ field ∈ ["flavorRef", "packageManifestRef"],
      ∃ path, c.spec.getItem field = .ok (.str path) := by
  obtain ⟨herrs, hmore⟩ := targetErrors_eq_nil hvalid
  obtain ⟨c⟩ := checked_of_validateTarget hsound herrs
  obtain ⟨-, -, -, -, hrefs⟩ := semanticChecks_ok_iff.1 ⟨_, hmore⟩
  refine ⟨c, fun field hfield ↦ ?_⟩
  have hrequired : field ∈ requiredFields :=
    (show ∀ f ∈ ["flavorRef", "packageManifestRef"], f ∈ requiredFields by decide) field hfield
  -- a true value has been joined to the root; a value that may be false is a string by the schema
  obtain ⟨v, hv, htruthy | ⟨s, rfl⟩⟩ := c.required field hrequired
  · have hmember : (target.member "spec").member field = v := by
      rw [member_of_getItem c.getItem_spec, member_of_getItem hv]
    obtain ⟨path, rfl, -⟩ := hmember ▸ hrefs field hfield (hmember ▸ htruthy)
    exact ⟨path, hv⟩
  · exact ⟨s, hv⟩

/-- The pieces of a command that can be printed. -/
def Printable (c : List PyStr) : Prop :=
  ∀ s ∈ c, s.Clean

theorem printable_extendCommand {s : PyStr} (h : s ∈ allowedFormats) :
    ∃ cmds, extendCommand (.str s) = .ok cmds ∧ ∀ c ∈ cmds, Printable c := by
  rcases List.mem_append.1 h with hbase | hthick
  · have hthin : s ∉ buildextendFormats :=
      (show ∀ t ∈ baseBuildFormats, t ∉ buildextendFormats by decide) s hbase
    refine ⟨[], ?_, fun c hc ↦ absurd hc List.not_mem_nil⟩
    rw [extendCommand, inFormats_str, decide_eq_false hthin]
    rfl
  · have hclean : s.Clean := (show ∀ t ∈ buildextendFormats, t.Clean by decide) s hthick
    refine ⟨_, extendCommand_of_mem hthick, List.forall_mem_singleton.2 ?_⟩
    exact List.forall_mem_cons.2 ⟨PyStr.clean_lit _,
      List.forall_mem_singleton.2 (PyStr.clean_append.2 ⟨PyStr.clean_lit _, hclean⟩)⟩

theorem checkInts_ok_iff {d : Document} : checkInts env d = .ok () ↔ IntsFit env.maxDigits d := by
  rw [checkInts]
  split
  case isTrue h => exact iff_of_true rfl h
  case isFalse h => exact iff_of_false (by simp) h

theorem strOf_of_intsFit {d : Document} (h : IntsFit env.maxDigits d) :
    strOf env d = .ok (d.toStr env.unicode) := by
  rw [strOf, checkInts_ok_iff.2 h]
  rfl

/-- The path of the repository can be printed if that of the target can, which is below it. -/
theorem clean_repoRoot (hbelow : env.repoRoot <+: env.targetPath)
    (hpath : ∀ part ∈ env.targetPath, part.Clean) : (posixPath env.repoRoot).Clean :=
  PyStr.clean_cons.2 ⟨trivial, PyStr.clean_intercalate.2 fun part hpart ↦
    hpath part (hbelow.subset hpart)⟩

/-- **An accepted target has a plan**, and it can be printed if the paths of the repository and of
the manifest can. -/
theorem exists_plan (env : BuildEnv) (c : Checked target) {manifest : PyStr}
    (hmanifest : c.spec.getItem "packageManifestRef" = .ok (.str manifest)) :
    ∃ planned, planCommands env target = .ok planned ∧
      ((posixPath env.repoRoot).Clean → manifest.Clean → ∀ cmd ∈ planned, Printable cmd) ∧
      ((∀ cmd ∈ planned, Printable cmd) → (posixPath env.repoRoot).Clean) := by
  obtain ⟨extend, hextend⟩ := @exists_forall₂ _ _ (fun s cmds ↦
    extendCommand (.str s) = .ok cmds ∧ ∀ cmd ∈ cmds, Printable cmd) c.fmts
    fun s hs ↦ printable_extendCommand (c.known s hs)
  have hmapM : (c.fmts.map Document.str).mapM extendCommand = .ok extend :=
    mapM_eq_ok_iff.2 (List.forall₂_map_left_iff.2 (hextend.imp fun _ _ ↦ And.left))
  have hstr : strOf env (.str manifest) = .ok manifest := strOf_of_intsFit trivial
  refine ⟨_, by simp only [planCommands, c.getItem_spec, hmanifest, c.formats, hstr, hmapM, ok_bind]
                rfl,
    fun hroot hclean ↦ List.forall_mem_append.2 ⟨?_, ?_⟩, fun hprintable ↦ ?_⟩
  · have hlit : ∀ ss : List String, Printable (ss.map PyStr.lit) := by
      intro ss s hs
      obtain ⟨s, -, rfl⟩ := List.mem_map.1 hs
      exact PyStr.clean_lit s
    have hinit : Printable (initCommand env) :=
      List.forall_mem_append.2 ⟨hlit ["cosa", "init", "--force"], List.forall_mem_cons.2
        ⟨PyStr.clean_append.2 ⟨PyStr.clean_lit _, hroot⟩, List.forall_mem_singleton.2 hroot⟩⟩
    have hbase : Printable (baseBuild manifest) :=
      List.forall_mem_append.2 ⟨hlit ["cosa", "build"], List.forall_mem_singleton.2
        (PyStr.clean_append.2 ⟨PyStr.clean_lit _, hclean⟩)⟩
    exact List.forall_mem_cons.2 ⟨hinit, List.forall_mem_cons.2
      ⟨hlit ["cosa", "fetch"], List.forall_mem_singleton.2 hbase⟩⟩
  · intro cmd hcmd
    obtain ⟨cmds, hcmds, hcmd⟩ := List.mem_flatten.1 hcmd
    obtain ⟨s, -, -, hprintable⟩ := (exists_of_forall₂ hextend).1 cmds hcmds
    exact hprintable cmd hcmd
  · exact hprintable (initCommand env) (by simp) _ (by simp [initCommand])

theorem clean_of_printable {cmd : List PyStr} (h : Printable cmd) :
    PyStr.Clean ([.char ' '].intercalate cmd) :=
  PyStr.clean_intercalate.2 h

/-- **What is announced** has an encoding, if the parts of it have one. -/
theorem announcedPlan_eq_ok (c : Checked target) (hwritable : Writable target)
    (hints : IntsFit env.maxDigits target) {args : BuildArgs} (hworkdir : (workdir env args).Clean)
    {planned : List (List PyStr)} (hplan : planCommands env target = .ok planned)
    (hprintable : ∀ cmd ∈ planned, Printable cmd) :
    announcedPlan env args target = .ok planned := by
  obtain ⟨name, hname⟩ := c.name
  have hnameClean : Writable name := (hwritable.getItem c.getItem_metadata).getItem hname
  have hnameInts : IntsFit env.maxDigits name :=
    Forall.getItem (Forall.getItem hints c.getItem_metadata) hname
  obtain ⟨bs, hbs⟩ := PyStr.encode_ok_iff.2 (PyStr.clean_append.2
    ⟨PyStr.clean_lit "build target : ", hnameClean.clean_toStr env.unicode⟩)
  obtain ⟨cs, hcs⟩ := PyStr.encode_ok_iff.2 (PyStr.clean_append.2
    ⟨PyStr.clean_lit "workdir      : ", hworkdir⟩)
  obtain ⟨lines, hlines⟩ := @exists_forall₂ _ _ (fun cmd bs ↦
    (PyStr.lit "  $ " ++ [.char ' '].intercalate cmd).encode = .ok bs) planned fun cmd hcmd ↦
      PyStr.encode_ok_iff.2 (PyStr.clean_append.2
        ⟨PyStr.clean_lit _, clean_of_printable (hprintable cmd hcmd)⟩)
  simp only [announcedPlan, announce, hplan, c.getItem_metadata, hname, strOf_of_intsFit hnameInts,
    hbs, hcs, mapM_eq_ok_iff.2 hlines, ok_bind]
  rfl

/-- What has been announced can be printed. -/
theorem clean_of_announcedPlan {args : BuildArgs} {planned : List (List PyStr)}
    (h : announcedPlan env args target = .ok planned) :
    (workdir env args).Clean ∧ ∀ cmd ∈ planned, Printable cmd := by
  obtain ⟨planned', -, h⟩ := exists_of_bind_eq_ok h
  obtain ⟨_, hannounce, h⟩ := exists_of_bind_eq_ok h
  obtain rfl := Except.ok.inj h
  obtain ⟨_, -, hannounce⟩ := exists_of_bind_eq_ok hannounce
  obtain ⟨_, -, hannounce⟩ := exists_of_bind_eq_ok hannounce
  obtain ⟨_, -, hannounce⟩ := exists_of_bind_eq_ok hannounce
  obtain ⟨_, -, hannounce⟩ := exists_of_bind_eq_ok hannounce
  obtain ⟨bs, hworkdir, hannounce⟩ := exists_of_bind_eq_ok hannounce
  obtain ⟨lines, hlines, -⟩ := exists_of_bind_eq_ok hannounce
  refine ⟨(PyStr.clean_append.1 (PyStr.encode_ok_iff.1 ⟨bs, hworkdir⟩)).2, fun cmd hcmd ↦ ?_⟩
  obtain ⟨line, -, hline⟩ := exists_of_mapM_eq_ok hlines cmd hcmd
  exact PyStr.clean_intercalate.1 (PyStr.clean_append.1 (PyStr.encode_ok_iff.1 ⟨line, hline⟩)).2

/-! ### The provenance -/

theorem digestDocument_ok_iff {d : Document} :
    (∃ t, digestDocument env d = .ok t) ↔ Writable d ∧ IntsFit env.maxDigits d := by
  rw [← @canonicalBytes_ok_iff env.floatValue d, ← checkInts_ok_iff]
  constructor
  · rintro ⟨t, h⟩
    obtain ⟨⟨⟩, hints, h⟩ := exists_of_bind_eq_ok h
    obtain ⟨bs, hbs, -⟩ := exists_of_bind_eq_ok h
    exact ⟨⟨bs, hbs⟩, hints⟩
  · rintro ⟨⟨bs, hbs⟩, hints⟩
    exact ⟨_, by rw [digestDocument, hints, ok_bind, hbs]; rfl⟩

theorem clean_digest (bs : List UInt8) : (digest bs).Clean :=
  PyStr.clean_append.2 ⟨PyStr.clean_lit _, PyStr.clean_ofStr _⟩

theorem exists_canonicalBytes {d : Document} {t : PyStr} (h : digestDocument env d = .ok t) :
    ∃ bs, d.canonicalBytes env.floatValue = .ok bs ∧ t = digest bs := by
  obtain ⟨_, -, h⟩ := exists_of_bind_eq_ok h
  obtain ⟨bs, hbs, h⟩ := exists_of_bind_eq_ok h
  exact ⟨bs, hbs, (Except.ok.inj h).symm⟩

theorem clean_digestDocument {d : Document} {t : PyStr} (h : digestDocument env d = .ok t) :
    t.Clean := by
  obtain ⟨bs, -, rfl⟩ := exists_canonicalBytes h
  exact clean_digest bs

/-- What `git` says can be decoded. -/
def GitReadable (env : BuildEnv) : Prop :=
  ∃ head, env.gitHead = .ok head ∧ (head ≠ none → ∃ status, env.gitStatus = .ok status)

theorem sourceRevision_ok_iff : (∃ revision, sourceRevision env = .ok revision) ↔
    GitReadable env := by
  constructor
  · rintro ⟨revision, h⟩
    obtain ⟨head, hhead, h⟩ := exists_of_bind_eq_ok h
    refine ⟨head, hhead, fun hne ↦ ?_⟩
    cases head with
    | none => exact absurd rfl hne
    | some out =>
      obtain ⟨status, hstatus, -⟩ := exists_of_bind_eq_ok h
      exact ⟨status, hstatus⟩
  · rintro ⟨head, hhead, hstatus⟩
    simp only [sourceRevision, hhead, ok_bind]
    cases head with
    | none => exact ⟨_, rfl⟩
    | some out =>
      obtain ⟨status, hstatus⟩ := hstatus (by simp)
      simp only [hstatus, ok_bind]
      split
      · exact ⟨_, rfl⟩
      · exact ⟨_, rfl⟩

theorem targetRef_ok_iff : (∃ ref, targetRef env = .ok ref) ↔ env.repoRoot <+: env.targetPath := by
  rw [targetRef]
  split
  case isTrue h =>
    refine iff_of_true ?_ h
    split
    · exact ⟨_, rfl⟩
    · exact ⟨_, rfl⟩
  case isFalse h => exact iff_of_false (by simp) h

/-- The reference to the target can be written if the rest of its path can. -/
theorem clean_targetRef_iff {ref : PyStr} (h : targetRef env = .ok ref) :
    ref.Clean ↔ ∀ part ∈ env.targetPath.drop env.repoRoot.length, part.Clean := by
  rw [targetRef] at h
  split at h
  case isFalse => exact absurd h (by simp)
  case isTrue =>
    split at h
    · rename_i hdrop
      obtain rfl := Except.ok.inj h
      rw [hdrop]
      exact iff_of_true (PyStr.clean_lit _) nofun
    · obtain rfl := Except.ok.inj h
      exact PyStr.clean_intercalate

/-- Where the inputs of a provenance come from: the sections of the target, the paths of the two
files, and the host. -/
structure Inputs.ReadFrom (env : BuildEnv) (target spec metadata : Document)
    (manifestPath flavorPath : PyStr) (inputs : Inputs) : Prop where
  getSpec : target.getItem "spec" = .ok spec
  getMetadata : target.getItem "metadata" = .ok metadata
  name : metadata.getItem "name" = .ok inputs.name
  ref : targetRef env = .ok inputs.ref
  configDigest : digestDocument env target = .ok inputs.configDigest
  revision : sourceRevision env = .ok inputs.revision
  ostreeRef : spec.getItem "ostreeRef" = .ok inputs.ostreeRef
  architecture : spec.getItem "architecture" = .ok inputs.architecture
  channel : spec.get "channel" = .ok inputs.channel
  manifestRef : spec.getItem "packageManifestRef" = .ok inputs.manifestRef
  toManifest : pathOf inputs.manifestRef = .ok manifestPath
  manifestDigest : inputs.manifestDigest = digestFile env manifestPath
  flavorRef : spec.getItem "flavorRef" = .ok inputs.flavorRef
  toFlavor : pathOf inputs.flavorRef = .ok flavorPath
  flavorDigest : inputs.flavorDigest = digestFile env flavorPath

/-- **What `readInputs` does**, step by step. -/
theorem readInputs_eq_ok_iff {inputs : Inputs} : readInputs env target = .ok inputs ↔
    ∃ spec metadata manifestPath flavorPath,
      inputs.ReadFrom env target spec metadata manifestPath flavorPath := by
  constructor
  · intro h
    obtain ⟨spec, hspec, h⟩ := exists_of_bind_eq_ok h
    obtain ⟨manifestRef, hmanifestRef, h⟩ := exists_of_bind_eq_ok h
    obtain ⟨manifestPath, hmanifestPath, h⟩ := exists_of_bind_eq_ok h
    obtain ⟨flavorRef, hflavorRef, h⟩ := exists_of_bind_eq_ok h
    obtain ⟨flavorPath, hflavorPath, h⟩ := exists_of_bind_eq_ok h
    obtain ⟨configDigest, hdigest, h⟩ := exists_of_bind_eq_ok h
    obtain ⟨metadata, hmetadata, h⟩ := exists_of_bind_eq_ok h
    obtain ⟨name, hname, h⟩ := exists_of_bind_eq_ok h
    obtain ⟨ref, href, h⟩ := exists_of_bind_eq_ok h
    obtain ⟨revision, hrevision, h⟩ := exists_of_bind_eq_ok h
    obtain ⟨ostreeRef, hostreeRef, h⟩ := exists_of_bind_eq_ok h
    obtain ⟨architecture, harchitecture, h⟩ := exists_of_bind_eq_ok h
    obtain ⟨channel, hchannel, h⟩ := exists_of_bind_eq_ok h
    obtain rfl := Except.ok.inj h
    exact ⟨spec, metadata, manifestPath, flavorPath, hspec, hmetadata, hname, href, hdigest,
      hrevision, hostreeRef, harchitecture, hchannel, hmanifestRef, hmanifestPath, rfl, hflavorRef,
      hflavorPath, rfl⟩
  · rintro ⟨spec, metadata, manifestPath, flavorPath, h⟩
    simp only [readInputs, h.getSpec, h.manifestRef, h.toManifest, h.flavorRef, h.toFlavor,
      h.configDigest, h.getMetadata, h.name, h.ref, h.revision, h.ostreeRef, h.architecture,
      h.channel, ← h.manifestDigest, ← h.flavorDigest, ok_bind]
    rfl

section Parts

variable {p : Scalar → Prop} {q : List Scalar → Prop}

/-- What `p` says of scalars and `q` of the keys of a mapping holds of what a provenance adds to the
parts of its target: strings that can be encoded, truth values, null, and names as keys. -/
structure HoldsOfNew (p : Scalar → Prop) (q : List Scalar → Prop) : Prop where
  str : ∀ {s : PyStr}, s.Clean → p (.str s)
  bool : ∀ b, p (.bool b)
  null : p .null
  keys : ∀ {ss : List String}, ss.Nodup → q (ss.map Scalar.lit)

theorem forallItems_iff {xs : List Document} : ForallItems p q xs ↔ ∀ x ∈ xs, Forall p q x := by
  induction xs with
  | nil => simp [ForallItems]
  | cons x xs ih => rw [ForallItems, ih, List.forall_mem_cons]

/-- A mapping with names as keys. -/
theorem HoldsOfNew.map (h : HoldsOfNew p q) {ss : List String} (hss : ss.Nodup)
    {ms : List (Scalar × Document)} (hkeys : ms.map Prod.fst = ss.map Scalar.lit)
    (hms : ∀ d ∈ ms.map Prod.snd, Forall p q d) : Forall p q (.map ms) :=
  ⟨hkeys ▸ h.keys hss, forallMembers_iff.2 fun _ hm ↦ hms _ (List.mem_map_of_mem hm)⟩

theorem forall_digestFile (h : HoldsOfNew p q) (path : PyStr) :
    Forall p q (digestFile env path) := by
  rw [digestFile]
  split
  · exact h.str (clean_digest _)
  · exact h.null

theorem forall_sourceRevision (h : HoldsOfNew p q) {revision : Document}
    (hrevision : sourceRevision env = .ok revision) : Forall p q revision := by
  have hmap : ∀ commit dirty : Document, Forall p q commit → Forall p q dirty →
      Forall p q (.map [(.lit "vcs", .lit "git"), (.lit "commit", commit),
        (.lit "dirty", dirty)]) := by
    intro commit dirty hcommit hdirty
    refine h.map (show ["vcs", "commit", "dirty"].Nodup by decide) rfl ?_
    simp only [List.map, List.forall_mem_cons]
    exact ⟨h.str (PyStr.clean_lit _), hcommit, hdirty, nofun⟩
  have hcommit : ∀ (rc : ℤ) (out : Str),
      Forall p q (if rc = 0 then .str (.ofStr (Text.strip out)) else null) := by
    intro rc out
    split
    · exact h.str (PyStr.clean_ofStr _)
    · exact h.null
  obtain ⟨head, -, hrevision⟩ := exists_of_bind_eq_ok hrevision
  cases head with
  | none =>
    rw [← Except.ok.inj hrevision]
    exact hmap _ _ h.null h.null
  | some out =>
    obtain ⟨rc, out⟩ := out
    obtain ⟨status, -, hrevision⟩ := exists_of_bind_eq_ok hrevision
    split at hrevision
    · rw [← Except.ok.inj hrevision]
      exact hmap _ _ (hcommit rc out) (h.bool _)
    · rw [← Except.ok.inj hrevision]
      exact hmap _ _ (hcommit rc out) h.null

/-- The inputs of a provenance, of all of which the same holds. -/
structure Inputs.Forall (p : Scalar → Prop) (q : List Scalar → Prop) (inputs : Inputs) : Prop where
  name : inputs.name.Forall p q
  configDigest : inputs.configDigest.Clean
  revision : inputs.revision.Forall p q
  ostreeRef : inputs.ostreeRef.Forall p q
  architecture : inputs.architecture.Forall p q
  channel : inputs.channel.Forall p q
  manifestRef : inputs.manifestRef.Forall p q
  manifestDigest : inputs.manifestDigest.Forall p q
  flavorRef : inputs.flavorRef.Forall p q
  flavorDigest : inputs.flavorDigest.Forall p q

/-- **What is read of a target** is part of it, or new. -/
theorem forall_of_readInputs (hnew : HoldsOfNew p q) {inputs : Inputs}
    (htarget : target.Forall p q) (h : readInputs env target = .ok inputs) :
    inputs.Forall p q := by
  obtain ⟨spec, metadata, manifestPath, flavorPath, h⟩ := readInputs_eq_ok_iff.1 h
  have hspec : spec.Forall p q := htarget.getItem h.getSpec
  exact {
    name := (htarget.getItem h.getMetadata).getItem h.name
    configDigest := clean_digestDocument h.configDigest
    revision := forall_sourceRevision hnew h.revision
    ostreeRef := hspec.getItem h.ostreeRef
    architecture := hspec.getItem h.architecture
    channel := hspec.get hnew.null h.channel
    manifestRef := hspec.getItem h.manifestRef
    manifestDigest := h.manifestDigest ▸ forall_digestFile hnew _
    flavorRef := hspec.getItem h.flavorRef
    flavorDigest := h.flavorDigest ▸ forall_digestFile hnew _ }

/-- **What holds of every input** holds of every part of the provenance. -/
theorem forall_provenance (hnew : HoldsOfNew p q) {inputs : Inputs} (h : inputs.Forall p q)
    (href : inputs.ref.Clean) {planned : List (List PyStr)}
    (hprintable : ∀ cmd ∈ planned, Printable cmd) (dryRun : Bool) (reason : Str)
    {inputsHash : PyStr} (hhash : inputsHash.Clean) :
    Forall p q (provenance env inputs planned dryRun reason inputsHash) := by
  have hlit : ∀ s, Forall p q (.lit s) := fun s ↦ hnew.str (PyStr.clean_lit s)
  have hbuildTarget : Forall p q (.map [(.lit "name", inputs.name),
      (.lit "ref", .str inputs.ref), (.lit "configDigest", .str inputs.configDigest)]) := by
    refine hnew.map (show ["name", "ref", "configDigest"].Nodup by decide) rfl ?_
    simp only [List.map, List.forall_mem_cons]
    exact ⟨h.name, hnew.str href, hnew.str h.configDigest, nofun⟩
  have hfile : ∀ {ref digest : Document}, Forall p q ref → Forall p q digest →
      Forall p q (.map [(.lit "ref", ref), (.lit "digest", digest)]) := by
    intro ref digest href hdigest
    refine hnew.map (show ["ref", "digest"].Nodup by decide) rfl ?_
    simp only [List.map, List.forall_mem_cons]
    exact ⟨href, hdigest, nofun⟩
  have hsigning : Forall p q (.map [(.lit "provider", .lit "cosign"),
      (.lit "signed", .scalar (.bool false))]) := by
    refine hnew.map (show ["provider", "signed"].Nodup by decide) rfl ?_
    simp only [List.map, List.forall_mem_cons]
    exact ⟨hlit _, hnew.bool _, nofun⟩
  have hcommands : Forall p q (.seq (planned.map fun c ↦ .str ([.char ' '].intercalate c))) := by
    refine forallItems_iff.2 fun d hd ↦ ?_
    obtain ⟨cmd, hcmd, rfl⟩ := List.mem_map.1 hd
    exact hnew.str (clean_of_printable (hprintable cmd hcmd))
  have hblockers : Forall p q (.seq (if dryRun then
      [.str (.lit "builder-unavailable: " ++ .ofStr reason)] else [])) := by
    refine forallItems_iff.2 fun d hd ↦ ?_
    cases dryRun with
    | true =>
      rw [List.mem_singleton.1 hd]
      exact hnew.str (PyStr.clean_append.2 ⟨PyStr.clean_lit _, PyStr.clean_ofStr _⟩)
    | false => exact absurd hd List.not_mem_nil
  have hresult : Forall p q (if dryRun then .lit "DRY_RUN" else .lit "PASS") := by
    cases dryRun <;> exact hlit _
  refine hnew.map (show ["type", "specVersion", "createdAt", "buildTarget", "sourceRevision",
    "ostreeRef", "architecture", "channel", "packageManifest", "flavor", "plannedCommands",
    "dryRun", "builder", "artifacts", "signing", "inputs_hash", "result", "blockers"].Nodup
    by decide) rfl ?_
  simp only [List.map, List.forall_mem_cons]
  exact ⟨hlit _, hlit _, hnew.str (PyStr.clean_ofStr _), hbuildTarget, h.revision, h.ostreeRef,
    h.architecture, h.channel, hfile h.manifestRef h.manifestDigest,
    hfile h.flavorRef h.flavorDigest, hcommands, hnew.bool _, hnew.str (PyStr.clean_ofStr _),
    trivial, hsigning, hnew.str hhash, hresult, hblockers, nofun⟩

end Parts

theorem holdsOfNew_writable : HoldsOfNew Scalar.Plain Keys where
  str h := h
  bool _ := trivial
  null := trivial
  keys _ := keys_map_lit _

theorem holdsOfNew_intsFit (max : Option ℕ) :
    HoldsOfNew (IntFits max) fun ks ↦ ∀ k ∈ ks, IntFits max k where
  str _ := trivial
  bool _ := trivial
  null := trivial
  keys _ k hk := by
    obtain ⟨s, -, rfl⟩ := List.mem_map.1 hk
    trivial

/-- What a provenance names has an encoding and has texts: everything in the target, and the path
that leads to it. -/
structure Nameable (env : BuildEnv) (target : Document) : Prop where
  writable : target.Writable
  ints : IntsFit env.maxDigits target
  below : env.repoRoot <+: env.targetPath
  path : ∀ part ∈ env.targetPath, part.Clean

theorem clean_posixPath {parts : List PyStr} :
    (posixPath parts).Clean ↔ ∀ part ∈ parts, part.Clean := by
  rw [posixPath, PyStr.clean_cons, PyStr.clean_intercalate]
  exact and_iff_right trivial

/-- What a provenance that can be hashed has in it can be printed. -/
theorem clean_of_writable_provenance {inputs : Inputs} {planned : List (List PyStr)} {dryRun : Bool}
    {reason : Str} {inputsHash : PyStr}
    (h : Writable (provenance env inputs planned dryRun reason inputsHash)) :
    inputs.ref.Clean ∧ ∀ cmd ∈ planned, Printable cmd := by
  have hbuildTarget : Writable (.map [(.lit "name", inputs.name),
      (.lit "ref", .str inputs.ref), (.lit "configDigest", .str inputs.configDigest)]) :=
    @Forall.getItem _ _ _ _ "buildTarget" h rfl
  have hcommands : Writable (.seq (planned.map fun c ↦ .str ([.char ' '].intercalate c))) :=
    @Forall.getItem _ _ _ _ "plannedCommands" h rfl
  exact ⟨@Forall.getItem _ _ _ _ "ref" hbuildTarget rfl, fun cmd hcmd ↦
    PyStr.clean_intercalate.1 (writable_seq.1 hcommands _ (List.mem_map_of_mem hcmd))⟩

/-- The inputs of an accepted target can be read, if it can be hashed, has a reference, and what
`git` says can be decoded. -/
theorem Checked.exists_readInputs (c : Checked target)
    (hpaths : ∀ field ∈ ["flavorRef", "packageManifestRef"],
      ∃ path, c.spec.getItem field = .ok (.str path)) {configDigest ref : PyStr}
    {revision : Document} (hdigest : digestDocument env target = .ok configDigest)
    (href : targetRef env = .ok ref) (hrevision : sourceRevision env = .ok revision) :
    ∃ inputs, readInputs env target = .ok inputs ∧ inputs.ref = ref := by
  obtain ⟨manifest, hmanifest⟩ := hpaths "packageManifestRef" (by decide)
  obtain ⟨flavor, hflavor⟩ := hpaths "flavorRef" (by decide)
  obtain ⟨name, hname⟩ := c.name
  obtain ⟨ostreeRef, hostreeRef, -⟩ := c.required "ostreeRef" (by decide)
  obtain ⟨architecture, harchitecture, -⟩ := c.required "architecture" (by decide)
  have hchannel : c.spec.get "channel" = .ok (c.spec.member "channel") :=
    get_of_isMap (isMap_of_get (get_of_getItem hostreeRef))
  exact ⟨⟨name, ref, configDigest, revision, ostreeRef, architecture, c.spec.member "channel",
    .str manifest, digestFile env manifest, .str flavor, digestFile env flavor⟩,
    readInputs_eq_ok_iff.2 ⟨c.spec, _, manifest, flavor, c.getItem_spec, c.getItem_metadata, hname,
      href, hdigest, hrevision, hostreeRef, harchitecture, hchannel, hmanifest, rfl, rfl, hflavor,
      rfl, rfl⟩, rfl⟩

/-- **The provenance of an accepted target** can be put together if and only if everything it names
has an encoding and has texts, the target is below the root of the repository, and what `git` says
can be decoded. -/
theorem buildProvenance_ok_iff (c : Checked target)
    (hpaths : ∀ field ∈ ["flavorRef", "packageManifestRef"],
      ∃ path, c.spec.getItem field = .ok (.str path)) {planned : List (List PyStr)}
    (hprintable : (posixPath env.repoRoot).Clean → Writable target →
      ∀ cmd ∈ planned, Printable cmd)
    (hroot : (∀ cmd ∈ planned, Printable cmd) → (posixPath env.repoRoot).Clean)
    (dryRun : Bool) (reason : Str) :
    (∃ prov, buildProvenance env target planned dryRun reason = .ok prov) ↔
      Nameable env target ∧ GitReadable env := by
  constructor
  · rintro ⟨prov, h⟩
    obtain ⟨inputs, hinputs, h⟩ := exists_of_bind_eq_ok h
    obtain ⟨inputsHash, hhash, -⟩ := exists_of_bind_eq_ok h
    obtain ⟨href, hcommands⟩ :=
      clean_of_writable_provenance (digestDocument_ok_iff.1 ⟨_, hhash⟩).1
    obtain ⟨spec, metadata, manifestPath, flavorPath, hfrom⟩ := readInputs_eq_ok_iff.1 hinputs
    obtain ⟨hwritable, hints⟩ := digestDocument_ok_iff.1 ⟨_, hfrom.configDigest⟩
    have hbelow := targetRef_ok_iff.1 ⟨_, hfrom.ref⟩
    refine ⟨⟨hwritable, hints, hbelow, ?_⟩, sourceRevision_ok_iff.1 ⟨_, hfrom.revision⟩⟩
    rw [← List.prefix_iff_eq_append.1 hbelow, List.forall_mem_append]
    exact ⟨clean_posixPath.1 (hroot hcommands), (clean_targetRef_iff hfrom.ref).1 href⟩
  · rintro ⟨⟨hwritable, hints, hbelow, hpath⟩, hgit⟩
    obtain ⟨configDigest, hdigest⟩ :=
      (@digestDocument_ok_iff env target).2 ⟨hwritable, hints⟩
    obtain ⟨ref, href⟩ := targetRef_ok_iff.2 hbelow
    obtain ⟨revision, hrevision⟩ := sourceRevision_ok_iff.2 hgit
    obtain ⟨inputs, hinputs, rfl⟩ := c.exists_readInputs hpaths hdigest href hrevision
    have hrefClean : inputs.ref.Clean :=
      (clean_targetRef_iff href).2 fun part hpart ↦ hpath part (List.mem_of_mem_drop hpart)
    have hcommands := hprintable (clean_repoRoot hbelow hpath) hwritable
    -- the provenance is hashed before its own hash is in it
    obtain ⟨inputsHash, hhash⟩ := (@digestDocument_ok_iff env
      (provenance env inputs planned dryRun reason [])).2
        ⟨forall_provenance holdsOfNew_writable
            (forall_of_readInputs holdsOfNew_writable hwritable hinputs) hrefClean hcommands
            dryRun reason (PyStr.clean_ofStr []),
          forall_provenance (holdsOfNew_intsFit _)
            (forall_of_readInputs (holdsOfNew_intsFit _) hints hinputs) hrefClean hcommands
            dryRun reason (PyStr.clean_ofStr [])⟩
    exact ⟨_, by rw [buildProvenance, hinputs, ok_bind, hhash]; rfl⟩

/-! ### The run -/

/-- **A plan without a failed command** is executed to its end if and only if every command can be
started. -/
theorem runPlan_eq_ok_iff {n : ℕ} {cs : List (List PyStr)}
    (hzero : ∀ e ∈ (runPlan env n cs).1, e.2 = 0) :
    (runPlan env n cs).2 = .ok 0 ↔ ∀ i < cs.length, ∃ rc, env.command (n + i) = .ok rc := by
  induction cs generalizing n with
  | nil => simp [runPlan]
  | cons c cs ih =>
    have hlength : (∀ i < (c :: cs).length, ∃ rc, env.command (n + i) = .ok rc) ↔
        (∃ rc, env.command n = .ok rc) ∧
          ∀ i < cs.length, ∃ rc, env.command (n + 1 + i) = .ok rc := by
      rw [List.length_cons, Nat.forall_lt_succ_left]
      simp only [Nat.add_zero, Nat.add_assoc, Nat.add_comm 1]
    rw [hlength]
    rcases runPlan_cons env n c cs with ⟨e, hc, hrun⟩ | ⟨hc, hrun⟩ | ⟨rc, hrc, -, hrun⟩
    · rw [hrun, hc]
      simp
    · rw [hrun] at hzero ⊢
      rw [ih fun e he ↦ hzero e (List.mem_cons_of_mem _ he), hc]
      exact (and_iff_right ⟨0, rfl⟩).symm
    · rw [hrun] at hzero
      exact absurd (hzero _ (List.mem_singleton_self _)) hrc

/-- The commands of a run can be executed: in a dry run there are none. -/
def Executable (env : BuildEnv) (dryRun : Bool) (planned : List (List PyStr)) : Prop :=
  dryRun = false → env.mkdir = none ∧ ∀ n < planned.length, ∃ rc, env.command n = .ok rc

theorem execute_eq_ok_iff {dryRun : Bool} {planned : List (List PyStr)}
    (hzero : ∀ e ∈ (execute env dryRun planned).1, e.2 = 0) :
    (execute env dryRun planned).2 = .ok 0 ↔ Executable env dryRun planned := by
  cases dryRun with
  | true => exact iff_of_true rfl fun h ↦ absurd h (by decide)
  | false =>
    rcases hmkdir : env.mkdir with _ | e
    · have hexecute : execute env false planned = runPlan env 0 planned := by
        simp [execute, hmkdir]
      rw [hexecute] at hzero ⊢
      rw [runPlan_eq_ok_iff hzero]
      simp [Executable, hmkdir]
    · simp [execute, Executable, hmkdir]

/-- The end of a run without failures that writes its provenance to a file. -/
theorem emit_of_file {args : BuildArgs} {out : PyStr} (hout : args.emitProvenance = some out)
    (hne : out ≠ []) (hwrite : env.write = none) {planned : List (List PyStr)} {dryRun : Bool}
    {reason : Str} {prov : Document}
    (hprov : buildProvenance env target planned dryRun reason = .ok prov)
    (executed : List (List PyStr × ℤ)) :
    emit env args target planned dryRun reason executed 0 =
      ⟨executed, [prov], (sayWhere args).map fun _ ↦ 0⟩ := by
  have hfile : outFile args ≠ [] := by
    rw [outFile, hout]
    exact hne
  unfold emit
  simp only [hfile, ne_eq, not_false_eq_true, true_or, and_self, if_true, hprov, hwrite]

/-- The last line of a run is printed if the path in it has an encoding. -/
theorem sayWhere_ok_iff {args : BuildArgs} {out : PyStr} (hout : args.emitProvenance = some out)
    (hne : out ≠ []) :
    (sayWhere args).map (fun _ ↦ (0 : ℤ)) = .ok 0 ↔ out.Clean := by
  have hfile : outFile args = out := by
    rw [outFile, hout]
    rfl
  rw [sayWhere, hfile, if_neg hne, PyStr.encode]
  split
  case isTrue h => exact iff_of_true rfl (PyStr.clean_append.1 h).2
  case isFalse h =>
    exact iff_of_false (by simp [Except.map]) fun hclean ↦
      h (PyStr.clean_append.2 ⟨PyStr.clean_lit _, hclean⟩)

/-- What has been executed when a run ends is what it has executed of its plan. -/
theorem executed_cmdBuild {args : BuildArgs} (hvalid : targetErrors env target = .ok [])
    {planned : List (List PyStr)} (h : announcedPlan env args target = .ok planned) :
    (cmdBuild env args target).executed = (execute env (forcedDry env args) planned).1 := by
  rcases cmdBuild_of_announcedPlan hvalid h with ⟨e, -, hrun⟩ | ⟨rc, -, hrun⟩
  · rw [hrun]
  · rw [hrun, executed_emit]

/-- **An accepted target can be built** — the plan is there, and where no command fails, the
provenance is put together and written and 0 is returned — if and only if everything that the
provenance names has an encoding and has texts, the target is below the root of the repository, the
working directory and the path of the provenance can be printed, what `git` says can be decoded, and
the commands can be executed. -/
theorem accepted_build_iff (hsound : SchemaSound env.jsonschema) {args : BuildArgs} {out : PyStr}
    (hout : args.emitProvenance = some out) (hne : out ≠ []) (hwrite : env.write = none)
    (hvalid : targetErrors env target = .ok []) :
    let run := cmdBuild env args target
    ∃ planned, planCommands env target = .ok planned ∧
      ((∀ c rc, (c, rc) ∈ run.executed → rc = 0) →
        ((∃ prov, buildProvenance env target planned (forcedDry env args)
              (builderAvailable env).2 = .ok prov ∧ run.emitted = [prov]) ∧ run.exit = .ok 0 ↔
          Nameable env target ∧ (workdir env args).Clean ∧ out.Clean ∧ GitReadable env ∧
            Executable env (forcedDry env args) planned)) := by
  intro run
  obtain ⟨c, hpaths⟩ := exists_path hsound hvalid
  obtain ⟨manifest, hmanifest⟩ := hpaths "packageManifestRef" (by decide)
  obtain ⟨planned, hplan, hclean, hroot⟩ := exists_plan env c hmanifest
  have hprintable : (posixPath env.repoRoot).Clean → Writable target →
      ∀ cmd ∈ planned, Printable cmd := fun hpath hwritable ↦
    hclean hpath ((hwritable.getItem c.getItem_spec).getItem hmanifest)
  have hprov := fun dryRun reason ↦
    @buildProvenance_ok_iff env target c hpaths planned hprintable hroot dryRun reason
  refine ⟨planned, hplan, fun hzero ↦ ?_⟩
  constructor
  · rintro ⟨⟨prov, hbuilt, hemitted⟩, hexit⟩
    obtain ⟨hnameable, hgit⟩ := (hprov _ _).1 ⟨prov, hbuilt⟩
    -- a run that has emitted something has announced its plan
    obtain ⟨planned', hannounced⟩ : ∃ planned', announcedPlan env args target = .ok planned' := by
      rcases hannounced : announcedPlan env args target with e | planned'
      · rw [show run = ⟨[], [], .error e⟩ by simp only [run, cmdBuild, hvalid, hannounced]] at hexit
        exact absurd hexit (by simp)
      · exact ⟨planned', rfl⟩
    obtain rfl := Except.ok.inj (hplan.symm.trans (planCommands_of_announcedPlan hannounced))
    refine ⟨hnameable, (clean_of_announcedPlan hannounced).1, ?_⟩
    rw [executed_cmdBuild hvalid hannounced] at hzero
    rcases cmdBuild_of_announcedPlan hvalid hannounced with ⟨e, -, hrun⟩ | ⟨rc, hrc, hrun⟩
    · rw [show run = _ from hrun] at hexit
      exact absurd hexit (by simp)
    · -- and it has ended with 0, so its plan was executed to its end
      rw [show run = _ from hrun] at hemitted hexit
      obtain ⟨rfl, -⟩ := mem_emit (show prov ∈ _ from hemitted ▸ List.mem_singleton_self prov)
      rw [emit_of_file hout hne hwrite hbuilt] at hexit
      exact ⟨(sayWhere_ok_iff hout hne).1 hexit, hgit,
        (execute_eq_ok_iff fun e he ↦ hzero e.1 e.2 he).1 hrc⟩
  · rintro ⟨hnameable, hworkdir, houtClean, hgit, hexecutable⟩
    obtain ⟨prov, hbuilt⟩ := (hprov (forcedDry env args) (builderAvailable env).2).2
      ⟨hnameable, hgit⟩
    have hannounced := announcedPlan_eq_ok c hnameable.writable hnameable.ints hworkdir hplan
      (hprintable (clean_repoRoot hnameable.below hnameable.path) hnameable.writable)
    rw [executed_cmdBuild hvalid hannounced] at hzero
    have hdone := (execute_eq_ok_iff fun e he ↦ hzero e.1 e.2 he).2 hexecutable
    rcases cmdBuild_of_announcedPlan hvalid hannounced with ⟨e, he, -⟩ | ⟨rc, hrc, hrun⟩
    · exact absurd (hdone.symm.trans he) (by simp)
    · obtain rfl : 0 = rc := Except.ok.inj (hdone.symm.trans hrc)
      rw [show run = _ from hrun, emit_of_file hout hne hwrite hbuilt]
      exact ⟨⟨prov, hbuilt, rfl⟩, (sayWhere_ok_iff hout hne).2 houtClean⟩

end

/-- A dry run executes nothing. -/
theorem executed_of_dryRun {env : BuildEnv} {args : BuildArgs} (target : Document)
    (hdry : forcedDry env args = true) : (cmdBuild env args target).executed = [] := by
  have hnone : ∀ planned, (execute env (forcedDry env args) planned).1 = [] := by
    intro planned
    rw [hdry]
    rfl
  rcases cmdBuild_cases env args target with
    ⟨h, -⟩ | ⟨planned, -, -, ⟨e, -, hrun⟩ | ⟨rc, -, hrun⟩⟩
  · exact h
  · rw [hrun]
    exact hnone planned
  · rw [hrun, executed_emit]
    exact hnone planned

/-- A host with a builder and with `jsonschema`, and a target at a given path. -/
def hostWith (targetPath : List PyStr) : BuildEnv :=
  { sampleEnv with jsonschema := some checkSchema, targetPath := targetPath }

/-- A dry run that writes its provenance to a file. -/
def dryRunToFile : BuildArgs :=
  ⟨true, some (.lit "out.json"), some (.lit "/var/tmp/cosa")⟩

/-- A target in the repository can be built: a provenance is written and 0 is returned. -/
theorem accepted_build_iff_dry_run :
    (∃ prov, (cmdBuild (hostWith [.lit "repo", .lit "target.yaml"]) dryRunToFile
        (targetOfBranch "sourceos/stable")).emitted = [prov]) ∧
      (cmdBuild (hostWith [.lit "repo", .lit "target.yaml"]) dryRunToFile
        (targetOfBranch "sourceos/stable")).exit = .ok 0 := by
  have hvalid : targetErrors (hostWith [.lit "repo", .lit "target.yaml"])
      (targetOfBranch "sourceos/stable") = .ok [] := by
    decide +kernel
  have hwritable : (targetOfBranch "sourceos/stable").Writable := by
    decide +kernel
  have hints : IntsFit (some 4300) (targetOfBranch "sourceos/stable") := by
    decide +kernel
  obtain ⟨planned, -, hiff⟩ := @accepted_build_iff
    (hostWith [.lit "repo", .lit "target.yaml"]) (targetOfBranch "sourceos/stable")
    schemaSound_checkSchema dryRunToFile (.lit "out.json") rfl (by decide) rfl hvalid
  obtain ⟨⟨prov, -, hemitted⟩, hexit⟩ := (hiff fun c rc hmem ↦ by
    rw [executed_of_dryRun _ rfl] at hmem
    exact absurd hmem List.not_mem_nil).2 ⟨⟨hwritable, hints, by decide, by decide⟩, by decide,
      PyStr.clean_lit _, ⟨none, rfl, fun h ↦ absurd rfl h⟩, fun h ↦ absurd h (by decide)⟩
  exact ⟨⟨prov, hemitted⟩, hexit⟩

/-- **A target elsewhere crashes the wrapper**, although every command returns 0: its path is not
below the root of the repository. -/
theorem outside_target_crashes :
    let env := hostWith [.lit "tmp", .lit "target.yaml"]
    targetErrors env (targetOfBranch "sourceos/stable") = .ok [] ∧
      (cmdBuild env ⟨false, some (.lit "out.json"), none⟩
        (targetOfBranch "sourceos/stable")).exit = .error ⟨"ValueError".toList,
          "'/tmp/target.yaml' is not in the subpath of '/repo'".toList⟩ := by
  decide +kernel

end SourceOS.Cosa
