import SourceOS.Cosa.BuildTarget
import SourceOS.Foundation.Canonical
import SourceOS.Foundation.Sha256
import SourceOS.Foundation.Strftime

/-!
# The build wrapper

`cmd_build` of `cosa/build.py`: a validated target is planned, and then either executed, command by
command until one fails, or, without a builder, only shown. At the end it emits a provenance, which
the evidence gate downstream admits if its result is `PASS` and it has no blockers.

* `builderAvailable` is the host gate, `planCommands` the plan, `runPlan` the loop with its early
  exit, `buildProvenance` the provenance, and `cmdBuild` puts them together.
* `pass_means_built` is the result: a provenance with `PASS` or without blockers comes from a real
  run in which every planned command was executed and returned 0, and the plan has what each of the
  requested formats needs; a failed command is the end of the run, with its return code and without
  a provenance.

Everything that is read from outside is in `BuildEnv`: the host, the package `jsonschema`, the files
below the repository's root, `git`, the clock, and what becomes of each command. Standard output is
UTF-8, so what is printed must have an encoding; a path may have none, as it was decoded with
`surrogateescape`. An integer has a text only up to a number of digits.
-/

namespace SourceOS.Cosa

open Text Document

/-! ### The host -/

/-- What a run of `cmd_build` reads from outside. -/
structure BuildEnv where
  /-- The interpreter's Unicode database. -/
  unicode : UnicodeDb
  /-- The numbers that floating-point numbers are. -/
  floatValue : PyFloat → FloatValue
  /-- `sys.get_int_max_str_digits()`, if there is a limit. -/
  maxDigits : Option ℕ
  /-- `REPO_ROOT`, by its components. -/
  repoRoot : List PyStr
  /-- The path of the target, resolved, by its components. -/
  targetPath : List PyStr
  /-- `COSA_WORKDIR`, if it is set. -/
  cosaWorkdir : Option PyStr
  /-- `jsonschema`, if it is installed. -/
  jsonschema : JsonSchema
  /-- Whether a path below the root exists, or what asking raises. -/
  exists_ : PyStr → Except BuiltinError Bool
  /-- The bytes of a file below the root, if it can be read. -/
  readBytes : PyStr → Option (List UInt8)
  /-- `platform.system()`. -/
  system : Str
  /-- `/dev/kvm` exists. -/
  kvm : Bool
  /-- `cosa` is on the path. -/
  cosa : Bool
  /-- Making the working directory raises. -/
  mkdir : Option BuiltinError
  /-- The return code of the `n`-th command executed, or what starting it raises. -/
  command : ℕ → Except BuiltinError ℤ
  /-- Return code and output of `git rev-parse HEAD`, if `git` can be started, or what decoding the
  output raises. -/
  gitHead : Except BuiltinError (Option (ℤ × Str))
  /-- Return code and output of `git status --porcelain`, if `git` can be started, or what decoding
  the output raises. -/
  gitStatus : Except BuiltinError (Option (ℤ × Str))
  /-- `time.gmtime()`. -/
  now : StructTime
  /-- Writing the provenance raises. -/
  write : Option BuiltinError

/-- The options of `build`. -/
structure BuildArgs where
  /-- `--dry-run`. -/
  dryRun : Bool
  /-- `--emit-provenance`, as `Path` spells it. -/
  emitProvenance : Option PyStr
  /-- `--workdir`. -/
  workdir : Option PyStr

/-- `builder_available`. -/
def builderAvailable (env : BuildEnv) : Bool × Str :=
  if env.system ≠ "Linux".toList then
    (false, "host is ".toList ++ env.system ++ ", coreos-assembler requires Linux".toList)
  else if !env.kvm then
    (false, "/dev/kvm not present (hardware virtualization required)".toList)
  else if !env.cosa then (false, "`cosa` not found on PATH".toList)
  else (true, "linux host with /dev/kvm and cosa available".toList)

/-- `forced_dry`. -/
def forcedDry (env : BuildEnv) (args : BuildArgs) : Bool :=
  args.dryRun || !(builderAvailable env).1

/-- `args.workdir or os.environ.get("COSA_WORKDIR", "/srv/cosa")`. -/
def workdir (env : BuildEnv) (args : BuildArgs) : PyStr :=
  match args.workdir with
  | some (c :: cs) => c :: cs
  | _ => env.cosaWorkdir.getD (.lit "/srv/cosa")

/-! ### Texts of integers -/

/-- An integer has a text. -/
def IntFits (max : Option ℕ) : Scalar → Prop
  | .int n => max.all (fun m ↦ (decimal n.natAbs).length ≤ m) = true
  | _ => True

instance (max : Option ℕ) : DecidablePred (IntFits max)
  | .int _ => inferInstanceAs (Decidable (_ = true))
  | .null | .bool _ | .float _ | .str _ | .date _ => .isTrue trivial

/-- Every integer in the document has a text. -/
def IntsFit (max : Option ℕ) (d : Document) : Prop :=
  d.Forall (IntFits max) fun ks ↦ ∀ k ∈ ks, IntFits max k

instance (max : Option ℕ) : DecidablePred (IntsFit max) := fun d ↦ decForall _ _ d

/-- Converting the integers of a document. -/
def checkInts (env : BuildEnv) (d : Document) : Except BuiltinError Unit :=
  if IntsFit env.maxDigits d then .ok ()
  else .error ⟨"ValueError".toList, "Exceeds the limit (".toList ++
    decimal (env.maxDigits.getD 0 : ℕ) ++ " digits) for integer string conversion; ".toList ++
      "use sys.set_int_max_str_digits() to increase the limit".toList⟩

/-- `str`. -/
def strOf (env : BuildEnv) (d : Document) : Except BuiltinError PyStr := do
  checkInts env d
  return d.toStr env.unicode

/-! ### The plan -/

/-- An absolute path, by its components. -/
def posixPath (parts : List PyStr) : PyStr :=
  .char '/' :: [.char '/'].intercalate parts

/-- The command that builds one of the thicker formats. -/
def buildextend (s : PyStr) : List PyStr :=
  [.lit "cosa", .lit "buildextend-" ++ s]

/-- The command of one entry of `spec.outputFormats`, if it needs one of its own. -/
def extendCommand (fmt : Document) : Except BuiltinError (List (List PyStr)) := do
  let thick ← inFormats buildextendFormats fmt
  match thick, fmt with
  | true, .scalar (.str s) => return [buildextend s]
  | _, _ => return []

/-- The command that sets up the working directory. -/
def initCommand (env : BuildEnv) : List PyStr :=
  [.lit "cosa", .lit "init", .lit "--force", .lit "--src-dir=" ++ posixPath env.repoRoot,
    posixPath env.repoRoot]

/-- The base build. -/
def baseBuild (manifest : PyStr) : List PyStr :=
  [.lit "cosa", .lit "build", .lit "--manifest=" ++ manifest]

/-- `plan_commands`. -/
def planCommands (env : BuildEnv) (target : Document) :
    Except BuiltinError (List (List PyStr)) := do
  let spec ← target.getItem "spec"
  let manifest ← spec.getItem "packageManifestRef"
  let fmts ← formatsOf target
  let manifest ← strOf env manifest
  let extend ← fmts.mapM extendCommand
  return [initCommand env, [.lit "cosa", .lit "fetch"], baseBuild manifest] ++ extend.flatten

/-- The loop over the planned commands, from the `n`-th execution on: the commands executed, each
with its return code, and the return code of the run or what was raised. -/
def runPlan (env : BuildEnv) :
    ℕ → List (List PyStr) → List (List PyStr × ℤ) × Except BuiltinError ℤ
  | _, [] => ([], .ok 0)
  | n, c :: cs =>
    match env.command n with
    | .error e => ([], .error e)
    | .ok rc =>
      if rc ≠ 0 then ([(c, rc)], .ok rc)
      else ((c, rc) :: (runPlan env (n + 1) cs).1, (runPlan env (n + 1) cs).2)

/-! ### The provenance -/

/-- `_sha256_hex`, with the prefix every digest here has. -/
def digest (bs : List UInt8) : PyStr :=
  .lit "sha256:" ++ .ofStr (Json.hexdigest (Sha256.sum256 bs))

/-- The digest of a document's canonical text. -/
def digestDocument (env : BuildEnv) (d : Document) : Except BuiltinError PyStr := do
  checkInts env d
  let bs ← d.canonicalBytes env.floatValue
  return digest bs

/-- `_digest_file`. -/
def digestFile (env : BuildEnv) (path : PyStr) : Document :=
  match env.readBytes path with
  | some bs => .str (digest bs)
  | none => null

/-- `_source_revision`. A `git` that cannot be started leaves the rest as it is. -/
def sourceRevision (env : BuildEnv) : Except BuiltinError Document := do
  let revision (commit dirty : Document) : Document :=
    .map [(.lit "vcs", .lit "git"), (.lit "commit", commit), (.lit "dirty", dirty)]
  match ← env.gitHead with
  | none => return revision null null
  | some (rc, head) =>
    let commit := if rc = 0 then .str (.ofStr (strip head)) else null
    match ← env.gitStatus with
    | some (0, status) => return revision commit (.scalar (.bool (!(strip status).isEmpty)))
    | _ => return revision commit null

/-- `REPO_ROOT / ref`, by the path below the root. -/
def pathOf (ref : Document) : Except BuiltinError PyStr :=
  match ref with
  | .scalar (.str path) => .ok path
  | _ => .error (typeError ("unsupported operand type(s) for /: 'PosixPath' and '".toList ++
      ref.typeName.toList ++ ['\'']))

/-- `target_path.relative_to(REPO_ROOT).as_posix()`. -/
def targetRef (env : BuildEnv) : Except BuiltinError PyStr :=
  if env.repoRoot <+: env.targetPath then
    match env.targetPath.drop env.repoRoot.length with
    | [] => .ok (.lit ".")
    | parts => .ok ([.char '/'].intercalate parts)
  else .error ⟨"ValueError".toList, (posixPath env.targetPath).repr env.unicode ++
    " is not in the subpath of ".toList ++ (posixPath env.repoRoot).repr env.unicode⟩

/-- What `build_provenance` has read when it puts the provenance together. -/
structure Inputs where
  name : Document
  ref : PyStr
  configDigest : PyStr
  revision : Document
  ostreeRef : Document
  architecture : Document
  channel : Document
  manifestRef : Document
  manifestDigest : Document
  flavorRef : Document
  flavorDigest : Document

/-- The reading half of `build_provenance`. -/
def readInputs (env : BuildEnv) (target : Document) : Except BuiltinError Inputs := do
  let spec ← target.getItem "spec"
  let manifestRef ← spec.getItem "packageManifestRef"
  let manifestPath ← pathOf manifestRef
  let flavorRef ← spec.getItem "flavorRef"
  let flavorPath ← pathOf flavorRef
  let configDigest ← digestDocument env target
  let metadata ← target.getItem "metadata"
  let name ← metadata.getItem "name"
  let ref ← targetRef env
  let revision ← sourceRevision env
  let ostreeRef ← spec.getItem "ostreeRef"
  let architecture ← spec.getItem "architecture"
  let channel ← spec.get "channel"
  return ⟨name, ref, configDigest, revision, ostreeRef, architecture, channel, manifestRef,
    digestFile env manifestPath, flavorRef, digestFile env flavorPath⟩

/-- The provenance, with a given `inputs_hash`. -/
def provenance (env : BuildEnv) (inputs : Inputs) (planned : List (List PyStr)) (dryRun : Bool)
    (builderReason : Str) (inputsHash : PyStr) : Document :=
  .map
    [(.lit "type", .lit "CosaBuildProvenance"),
     (.lit "specVersion", .lit "0.1.0"),
     (.lit "createdAt", .str (.ofStr env.now.isoformat)),
     (.lit "buildTarget", .map [(.lit "name", inputs.name),
       (.lit "ref", .str inputs.ref),
       (.lit "configDigest", .str inputs.configDigest)]),
     (.lit "sourceRevision", inputs.revision),
     (.lit "ostreeRef", inputs.ostreeRef),
     (.lit "architecture", inputs.architecture),
     (.lit "channel", inputs.channel),
     (.lit "packageManifest", .map [(.lit "ref", inputs.manifestRef),
       (.lit "digest", inputs.manifestDigest)]),
     (.lit "flavor", .map [(.lit "ref", inputs.flavorRef),
       (.lit "digest", inputs.flavorDigest)]),
     (.lit "plannedCommands", .seq (planned.map fun c ↦ .str ([.char ' '].intercalate c))),
     (.lit "dryRun", .scalar (.bool dryRun)),
     (.lit "builder", .str (.ofStr builderReason)),
     (.lit "artifacts", .seq []),
     (.lit "signing", .map [(.lit "provider", .lit "cosign"),
       (.lit "signed", .scalar (.bool false))]),
     (.lit "inputs_hash", .str inputsHash),
     (.lit "result", if dryRun then .lit "DRY_RUN" else .lit "PASS"),
     (.lit "blockers", .seq (if dryRun then
       [.str (.lit "builder-unavailable: " ++ .ofStr builderReason)] else []))]

/-- `build_provenance`. -/
def buildProvenance (env : BuildEnv) (target : Document) (planned : List (List PyStr))
    (dryRun : Bool) (builderReason : Str) : Except BuiltinError Document := do
  let inputs ← readInputs env target
  let inputsHash ← digestDocument env (provenance env inputs planned dryRun builderReason [])
  return provenance env inputs planned dryRun builderReason inputsHash

/-! ### The command -/

/-- What a run of `cmd_build` has done: the commands executed, each with its return code, the
provenances emitted, to a file or to standard output, and what it returned or raised. -/
structure BuildRun where
  executed : List (List PyStr × ℤ)
  emitted : List Document
  exit : Except BuiltinError ℤ

/-- `validate_target(target) + _semantic_checks(target)`. -/
def targetErrors (env : BuildEnv) (target : Document) : Except BuiltinError (List PyStr) := do
  let errs ← validateTarget env.unicode env.floatValue env.jsonschema target
  let more ← semanticChecks env.unicode env.exists_ target
  return errs ++ more

/-- `cmd_validate`. -/
def cmdValidate (env : BuildEnv) (target : Document) : Except BuiltinError ℤ := do
  let errs ← targetErrors env target
  return if errs = [] then 0 else 1

/-- What is printed of the target, of the working directory and of the plan. The lines about the
builder and the mode have an encoding in any case. -/
def announce (env : BuildEnv) (args : BuildArgs) (target : Document)
    (planned : List (List PyStr)) : Except BuiltinError Unit := do
  let metadata ← target.getItem "metadata"
  let name ← metadata.getItem "name"
  let name ← strOf env name
  let _ ← (PyStr.lit "build target : " ++ name).encode
  let _ ← (PyStr.lit "workdir      : " ++ workdir env args).encode
  let _ ← planned.mapM fun c ↦ (PyStr.lit "  $ " ++ [.char ' '].intercalate c).encode
  return ()

/-- The plan, once it has been printed. -/
def announcedPlan (env : BuildEnv) (args : BuildArgs) (target : Document) :
    Except BuiltinError (List (List PyStr)) := do
  let planned ← planCommands env target
  announce env args target planned
  return planned

/-- `if forced_dry: … else: …`: the execution of the plan, if it is a real run. Each command is
printed once more, as it was before. -/
def execute (env : BuildEnv) (forcedDry : Bool) (planned : List (List PyStr)) :
    List (List PyStr × ℤ) × Except BuiltinError ℤ :=
  if forcedDry then ([], .ok 0)
  else
    match env.mkdir with
    | some e => ([], .error e)
    | none => runPlan env 0 planned

/-- Where the provenance is written: a file, if there is one, or else standard output. -/
def outFile (args : BuildArgs) : PyStr :=
  args.emitProvenance.getD []

/-- The line that says where the provenance is. -/
def sayWhere (args : BuildArgs) : Except BuiltinError (List UInt8) :=
  if outFile args = [] then .ok [] else (PyStr.lit "\nprovenance -> " ++ outFile args).encode

/-- The end of `cmd_build`: the provenance, if there is to be one. It is written with its keys
sorted, which raises nothing that its digest has not raised. -/
def emit (env : BuildEnv) (args : BuildArgs) (target : Document) (planned : List (List PyStr))
    (forcedDry : Bool) (reason : Str) (executed : List (List PyStr × ℤ)) (rc : ℤ) : BuildRun :=
  if rc = 0 ∧ (outFile args ≠ [] ∨ forcedDry) then
    match buildProvenance env target planned forcedDry reason with
    | .error e => ⟨executed, [], .error e⟩
    | .ok prov =>
      match if outFile args ≠ [] then env.write else none with
      | some e => ⟨executed, [], .error e⟩
      | none => ⟨executed, [prov], (sayWhere args).map fun _ ↦ rc⟩
  else ⟨executed, [], .ok rc⟩

/-- `cmd_build`. -/
def cmdBuild (env : BuildEnv) (args : BuildArgs) (target : Document) : BuildRun :=
  match targetErrors env target with
  | .error e => ⟨[], [], .error e⟩
  | .ok (_ :: _) => ⟨[], [], .ok 1⟩
  | .ok [] =>
    match announcedPlan env args target with
    | .error e => ⟨[], [], .error e⟩
    | .ok planned =>
      match execute env (forcedDry env args) planned with
      | (executed, .error e) => ⟨executed, [], .error e⟩
      | (executed, .ok rc) => emit env args target planned (forcedDry env args)
          (builderAvailable env).2 executed rc

/-! ### The plan covers the formats -/

/-- The plan has what an entry of `spec.outputFormats` needs: the base build, or a command of its
own. -/
def Covers (planned : List (List PyStr)) (fmt : Document) : Prop :=
  ∃ s, fmt = .str s ∧ (s ∈ baseBuildFormats ∧ (∃ manifest, baseBuild manifest ∈ planned) ∨
    buildextend s ∈ planned)

theorem extendCommand_of_mem {s : PyStr} (h : s ∈ buildextendFormats) :
    extendCommand (.str s) = .ok [buildextend s] := by
  rw [extendCommand, inFormats_str, decide_eq_true h]
  rfl

/-- **The plan of an approved target** has what each of its formats needs. -/
theorem covers_of_planCommands {env : BuildEnv} (hschema : SchemaChecks env.jsonschema)
    {target : Document}
    (hvalid : validateTarget env.unicode env.floatValue env.jsonschema target = .ok [])
    {planned : List (List PyStr)} (h : planCommands env target = .ok planned) :
    ∃ fmts, formatsOf target = .ok fmts ∧ ∀ f ∈ fmts, Covers planned f := by
  obtain ⟨_, -, h⟩ := exists_of_bind_eq_ok h
  obtain ⟨manifest, -, h⟩ := exists_of_bind_eq_ok h
  obtain ⟨fmts, hfmts, h⟩ := exists_of_bind_eq_ok h
  obtain ⟨manifestText, -, h⟩ := exists_of_bind_eq_ok h
  obtain ⟨extend, hextend, h⟩ := exists_of_bind_eq_ok h
  obtain rfl := Except.ok.inj h
  refine ⟨fmts, hfmts, fun f hf ↦ ?_⟩
  obtain ⟨s, rfl, hs⟩ := formats_of_validateTarget hschema hvalid hfmts f hf
  rcases List.mem_append.1 hs with hbase | hthick
  · exact ⟨s, rfl, Or.inl ⟨hbase, manifestText, by simp⟩⟩
  · obtain ⟨cmds, hcmds, hs⟩ := exists_of_mapM_eq_ok hextend _ hf
    rw [extendCommand_of_mem hthick] at hs
    obtain rfl := Except.ok.inj hs
    exact ⟨s, rfl, Or.inr (List.mem_append_right _
      (List.mem_flatten.2 ⟨_, hcmds, List.mem_singleton_self _⟩))⟩

/-! ### The loop -/

section Loop

variable {env : BuildEnv}

/-- **One pass through the loop**: the command cannot be started, or it returns 0 and the loop goes
on, or it fails and is the last one. -/
theorem runPlan_cons (env : BuildEnv) (n : ℕ) (c : List PyStr) (cs : List (List PyStr)) :
    (∃ e, env.command n = .error e ∧ runPlan env n (c :: cs) = ([], .error e)) ∨
    (env.command n = .ok 0 ∧ runPlan env n (c :: cs) =
      ((c, 0) :: (runPlan env (n + 1) cs).1, (runPlan env (n + 1) cs).2)) ∨
    ∃ rc, rc ≠ 0 ∧ env.command n = .ok rc ∧ runPlan env n (c :: cs) = ([(c, rc)], .ok rc) := by
  rcases hc : env.command n with e | rc
  · exact Or.inl ⟨e, rfl, by simp [runPlan, hc]⟩
  · by_cases hrc : rc = 0
    · exact Or.inr (Or.inl ⟨by rw [hrc], by simp [runPlan, hc, hrc]⟩)
    · exact Or.inr (Or.inr ⟨rc, hrc, rfl, by simp [runPlan, hc, hrc]⟩)

/-- **A run that ends with 0** has executed the whole plan, and each command returned 0. -/
theorem runPlan_done {n : ℕ} {cs : List (List PyStr)} (h : (runPlan env n cs).2 = .ok 0) :
    (runPlan env n cs).1 = cs.map fun c ↦ (c, 0) := by
  induction cs generalizing n with
  | nil => rfl
  | cons c cs ih =>
    rcases runPlan_cons env n c cs with ⟨e, -, hrun⟩ | ⟨-, hrun⟩ | ⟨rc, hrc, -, hrun⟩
    · rw [hrun] at h
      exact absurd h (by simp)
    · rw [hrun] at h ⊢
      show (c, 0) :: (runPlan env (n + 1) cs).1 = _
      rw [ih h, List.map_cons]
    · rw [hrun] at h
      exact absurd (Except.ok.inj h) hrc

/-- **A command that fails** is the last one, and the run ends with its return code. -/
theorem runPlan_failed {n : ℕ} {cs : List (List PyStr)} {c : List PyStr} {rc : ℤ}
    (h : (c, rc) ∈ (runPlan env n cs).1) (hrc : rc ≠ 0) : (runPlan env n cs).2 = .ok rc := by
  induction cs generalizing n with
  | nil => exact absurd h List.not_mem_nil
  | cons c' cs ih =>
    rcases runPlan_cons env n c' cs with ⟨e, -, hrun⟩ | ⟨-, hrun⟩ | ⟨rc', -, -, hrun⟩
    · rw [hrun] at h
      exact absurd h List.not_mem_nil
    · rw [hrun] at h ⊢
      rcases List.mem_cons.1 h with heq | hmem
      · exact absurd (Prod.mk.inj heq).2 hrc
      · exact ih hmem
    · rw [hrun] at h ⊢
      rw [(Prod.mk.inj (List.mem_singleton.1 h)).2]

theorem execute_done {planned : List (List PyStr)} (h : (execute env false planned).2 = .ok 0) :
    (execute env false planned).1 = planned.map fun c ↦ (c, 0) := by
  rw [execute, if_neg (by decide)] at h ⊢
  rcases hm : env.mkdir with _ | e
  · rw [hm] at h
    exact runPlan_done h
  · rw [hm] at h
    exact absurd h (by simp)

theorem execute_failed {forcedDry : Bool} {planned : List (List PyStr)} {c : List PyStr} {rc : ℤ}
    (h : (c, rc) ∈ (execute env forcedDry planned).1) (hrc : rc ≠ 0) :
    (execute env forcedDry planned).2 = .ok rc := by
  rw [execute] at h ⊢
  split_ifs at h ⊢
  · exact absurd h List.not_mem_nil
  · rcases hm : env.mkdir with _ | e
    · rw [hm] at h
      exact runPlan_failed h hrc
    · rw [hm] at h
      exact absurd h List.not_mem_nil

end Loop

/-! ### The verdict -/

section Verdict

variable {env : BuildEnv} {args : BuildArgs} {target : Document}

/-- **The verdict of a provenance** is a matter of the mode alone. -/
theorem verdict_of_buildProvenance {planned : List (List PyStr)} {dryRun : Bool} {reason : Str}
    {prov : Document} (h : buildProvenance env target planned dryRun reason = .ok prov) :
    prov.get "result" = .ok (if dryRun then .lit "DRY_RUN" else .lit "PASS") ∧
      prov.get "blockers" = .ok (.seq (if dryRun then
        [.str (.lit "builder-unavailable: " ++ .ofStr reason)] else [])) := by
  obtain ⟨inputs, -, h⟩ := exists_of_bind_eq_ok h
  obtain ⟨inputsHash, -, h⟩ := exists_of_bind_eq_ok h
  obtain rfl := Except.ok.inj h
  exact ⟨rfl, rfl⟩

/-- What is emitted is a provenance of the run, and the run has ended with 0. -/
theorem mem_emit {planned : List (List PyStr)} {forcedDry : Bool} {reason : Str}
    {executed : List (List PyStr × ℤ)} {rc : ℤ} {prov : Document}
    (h : prov ∈ (emit env args target planned forcedDry reason executed rc).emitted) :
    rc = 0 ∧ buildProvenance env target planned forcedDry reason = .ok prov := by
  unfold emit at h
  split at h
  case isTrue hcond =>
    refine ⟨hcond.1, ?_⟩
    rcases hprov : buildProvenance env target planned forcedDry reason with e | prov'
    · rw [hprov] at h
      exact absurd h List.not_mem_nil
    · rw [hprov] at h
      dsimp only at h
      split at h
      · exact absurd h List.not_mem_nil
      · rw [List.mem_singleton.1 h]
  case isFalse => exact absurd h List.not_mem_nil

theorem executed_emit (planned : List (List PyStr)) (forcedDry : Bool) (reason : Str)
    (executed : List (List PyStr × ℤ)) (rc : ℤ) :
    (emit env args target planned forcedDry reason executed rc).executed = executed := by
  unfold emit
  split
  · split
    · rfl
    · split <;> rfl
  · rfl

/-- A run that has not ended with 0 emits nothing and returns its return code. -/
theorem emit_of_ne_zero {planned : List (List PyStr)} {forcedDry : Bool} {reason : Str}
    {executed : List (List PyStr × ℤ)} {rc : ℤ} (hrc : rc ≠ 0) :
    emit env args target planned forcedDry reason executed rc = ⟨executed, [], .ok rc⟩ :=
  if_neg fun h ↦ hrc h.1

theorem planCommands_of_announcedPlan {planned : List (List PyStr)}
    (h : announcedPlan env args target = .ok planned) : planCommands env target = .ok planned := by
  obtain ⟨planned', hplan, h⟩ := exists_of_bind_eq_ok h
  obtain ⟨-, -, h⟩ := exists_of_bind_eq_ok h
  rwa [← Except.ok.inj h]

/-- No errors at all are no errors of either kind. -/
theorem targetErrors_eq_nil (h : targetErrors env target = .ok []) :
    validateTarget env.unicode env.floatValue env.jsonschema target = .ok [] ∧
      semanticChecks env.unicode env.exists_ target = .ok [] := by
  obtain ⟨errs, herrs, h⟩ := exists_of_bind_eq_ok h
  obtain ⟨more, hmore, h⟩ := exists_of_bind_eq_ok h
  obtain ⟨rfl, rfl⟩ := List.append_eq_nil_iff.1 (Except.ok.inj h)
  exact ⟨herrs, hmore⟩

/-- A run with a plan that has been printed: something is raised while it is executed, or it is
executed and the run ends. -/
theorem cmdBuild_of_announcedPlan (hvalid : targetErrors env target = .ok [])
    {planned : List (List PyStr)} (h : announcedPlan env args target = .ok planned) :
    (∃ e, (execute env (forcedDry env args) planned).2 = .error e ∧
        cmdBuild env args target =
          ⟨(execute env (forcedDry env args) planned).1, [], .error e⟩) ∨
      ∃ rc, (execute env (forcedDry env args) planned).2 = .ok rc ∧
        cmdBuild env args target = emit env args target planned (forcedDry env args)
          (builderAvailable env).2 (execute env (forcedDry env args) planned).1 rc := by
  rw [cmdBuild, hvalid]
  dsimp only
  rw [h]
  dsimp only
  rcases execute env (forcedDry env args) planned with ⟨executed, e | rc⟩
  · exact Or.inl ⟨e, rfl, rfl⟩
  · exact Or.inr ⟨rc, rfl, rfl⟩

/-- **What a run comes to**: it stops before it executes anything, or something is raised on the
way, or it executes the plan of a valid target and ends. -/
theorem cmdBuild_cases (env : BuildEnv) (args : BuildArgs) (target : Document) :
    ((cmdBuild env args target).executed = [] ∧ (cmdBuild env args target).emitted = []) ∨
    ∃ planned, validateTarget env.unicode env.floatValue env.jsonschema target = .ok [] ∧
      planCommands env target = .ok planned ∧
      ((∃ e, (execute env (forcedDry env args) planned).2 = .error e ∧
          cmdBuild env args target =
            ⟨(execute env (forcedDry env args) planned).1, [], .error e⟩) ∨
        ∃ rc, (execute env (forcedDry env args) planned).2 = .ok rc ∧
          cmdBuild env args target = emit env args target planned (forcedDry env args)
            (builderAvailable env).2 (execute env (forcedDry env args) planned).1 rc) := by
  rcases herrs : targetErrors env target with e | (_ | ⟨err, errs⟩)
  · exact Or.inl (by simp [cmdBuild, herrs])
  · rcases hannounced : announcedPlan env args target with e | planned
    · exact Or.inl (by simp [cmdBuild, herrs, hannounced])
    · exact Or.inr ⟨planned, (targetErrors_eq_nil herrs).1,
        planCommands_of_announcedPlan hannounced, cmdBuild_of_announcedPlan herrs hannounced⟩
  · exact Or.inl (by simp [cmdBuild, herrs])

/-- **What `validate` rejects is not built.** -/
theorem cmdBuild_of_invalid (h : cmdValidate env target = .ok 1) :
    cmdBuild env args target = ⟨[], [], .ok 1⟩ := by
  obtain ⟨errs, herrs, h⟩ := exists_of_bind_eq_ok h
  rcases errs with _ | ⟨err, errs⟩
  · exact absurd (Except.ok.inj h) (by decide)
  · rw [cmdBuild, herrs]

end Verdict

/-- **A PASS bundle means the build really happened.** Whatever the target, the mode, the host and
the return codes of the commands: if a provenance is emitted with the result `PASS` or without
blockers, it has both, the run was a real one on a host with a builder, the planned commands were
all executed, in order, each with return code 0, and they have what each entry of
`spec.outputFormats` needs. And if a command that was executed failed, no provenance is emitted and
its return code is returned. -/
theorem pass_means_built {env : BuildEnv} (hschema : SchemaChecks env.jsonschema) (args : BuildArgs)
    (target : Document) :
    let run := cmdBuild env args target
    (∀ prov ∈ run.emitted,
      prov.get "result" = .ok (.lit "PASS") ∨ prov.get "blockers" = .ok (.seq []) →
        prov.get "result" = .ok (.lit "PASS") ∧ prov.get "blockers" = .ok (.seq []) ∧
          args.dryRun = false ∧ (builderAvailable env).1 = true ∧
          ∃ planned, planCommands env target = .ok planned ∧
            run.executed = planned.map (fun c ↦ (c, 0)) ∧
            ∃ fmts, formatsOf target = .ok fmts ∧ ∀ f ∈ fmts, Covers planned f) ∧
      ∀ c rc, (c, rc) ∈ run.executed → rc ≠ 0 → run.emitted = [] ∧ run.exit = .ok rc := by
  intro run
  rcases cmdBuild_cases env args target with
    ⟨hexecuted, hemitted⟩ | ⟨planned, hvalid, hplan, ⟨e, he, hrun⟩ | ⟨rc, hrc, hrun⟩⟩
  · refine ⟨fun prov hprov ↦ ?_, fun c rc hmem ↦ ?_⟩
    · rw [show run.emitted = [] from hemitted] at hprov
      exact absurd hprov List.not_mem_nil
    · rw [show run.executed = [] from hexecuted] at hmem
      exact absurd hmem List.not_mem_nil
  · rw [show run = _ from hrun]
    refine ⟨fun prov hprov ↦ absurd hprov List.not_mem_nil, fun c rc hmem hne ↦ ?_⟩
    exact absurd (he.symm.trans (execute_failed hmem hne)) (by simp)
  · rw [show run = _ from hrun]
    refine ⟨fun prov hprov hverdict ↦ ?_, fun c rc' hmem hne ↦ ?_⟩
    · obtain ⟨rfl, hbuilt⟩ := mem_emit hprov
      obtain ⟨hresult, hblockers⟩ := verdict_of_buildProvenance hbuilt
      -- a dry run has neither
      rcases hdry : forcedDry env args with _ | _
      · rw [hdry] at hresult hblockers hrc
        obtain ⟨hargs, hbuilder⟩ := Bool.or_eq_false_iff.1 hdry
        refine ⟨hresult, hblockers, hargs, by simpa using hbuilder, planned, hplan, ?_,
          covers_of_planCommands hschema hvalid hplan⟩
        rw [executed_emit]
        exact execute_done hrc
      · rw [hdry] at hresult hblockers
        rcases hverdict with h | h
        · rw [hresult] at h
          have hne : Scalar.lit "DRY_RUN" ≠ Scalar.lit "PASS" := by decide
          exact absurd (Document.scalar.inj (Except.ok.inj h)) hne
        · rw [hblockers] at h
          exact absurd h (by simp)
    · rw [executed_emit] at hmem
      obtain rfl : rc = rc' := Except.ok.inj (hrc.symm.trans (execute_failed hmem hne))
      rw [emit_of_ne_zero hne]
      exact ⟨rfl, rfl⟩

/-- The strings of a list, if it has nothing else. -/
def stringsOf : List Document → Option (List PyStr)
  | [] => some []
  | .scalar (.str s) :: ds => (stringsOf ds).map (s :: ·)
  | _ => none

theorem eq_map_of_stringsOf {ds : List Document} {ss : List PyStr} (h : stringsOf ds = some ss) :
    ds = ss.map .str := by
  induction ds using stringsOf.induct generalizing ss with
  | case1 => rw [← Option.some.inj h, List.map_nil]
  | case2 s ds ih =>
    obtain ⟨ss', hss, rfl⟩ := Option.map_eq_some_iff.1 h
    rw [List.map_cons, ih hss, Document.str]
  | case3 ds _ _ => exact absurd h (by simp [stringsOf])

/-- What the schema says about the formats, as a check. -/
def checkFormats (target : Document) : Except BuiltinError (List SchemaError) :=
  match (do let spec ← target.getItem "spec"; spec.getItem "outputFormats") with
  | .ok (.seq xs) =>
    match stringsOf xs with
    | some ss =>
      if ∀ s ∈ ss, s ∈ schemaFormats then .ok []
      else .ok [⟨[.lit "spec", .lit "outputFormats"], .lit "not as the schema says"⟩]
    | none => .ok [⟨[.lit "spec", .lit "outputFormats"], .lit "not as the schema says"⟩]
  | _ => .ok [⟨[.lit "spec"], .lit "'outputFormats' is a required property"⟩]

theorem schemaChecks_checkFormats : SchemaChecks (some checkFormats) := by
  rintro iterErrors hiter target h
  obtain rfl := Option.some.inj hiter
  unfold checkFormats at h
  split at h
  next xs hformats =>
    obtain ⟨spec, hspec, hformats⟩ := exists_of_bind_eq_ok hformats
    split at h
    next ss hss =>
      split_ifs at h with hall
      · exact ⟨spec, ss, hspec, by rw [hformats, eq_map_of_stringsOf hss], hall⟩
      · exact absurd h (by simp)
    next => exact absurd h (by simp)
  next => exact absurd h (by simp)

/-- A build target for an image and its base. -/
def sampleTarget : Document :=
  .map [(.lit "apiVersion", .lit "sourceos.ai/v0"), (.lit "kind", .lit "BuildTarget"),
    (.lit "metadata", .map [(.lit "name", .lit "workstation")]),
    (.lit "spec", .map [(.lit "flavorRef", .lit "flavor.yaml"),
      (.lit "ostreeRef", .lit "sourceos/stable"),
      (.lit "packageManifestRef", .lit "manifest.yaml"),
      (.lit "architecture", .lit "x86_64"),
      (.lit "outputFormats", .seq [.lit "ostree", .lit "iso"])])]

/-- A host with a builder, on which every command returns 0. -/
def sampleEnv : BuildEnv where
  unicode := Runtime.ascii.unicode
  floatValue _ := .finite 0
  maxDigits := some 4300
  repoRoot := [.lit "repo"]
  targetPath := [.lit "repo", .lit "target.yaml"]
  cosaWorkdir := none
  jsonschema := some checkFormats
  exists_ _ := .ok true
  readBytes _ := none
  system := "Linux".toList
  kvm := true
  cosa := true
  mkdir := none
  command _ := .ok 0
  gitHead := .ok none
  gitStatus := .ok none
  now := .midnight 2025 7 9 (by decide) (by decide) (by decide)
  write := none

/-- The target is built: four commands are executed, and the one provenance says `PASS`. -/
theorem pass_means_built_sample :
    let args : BuildArgs := ⟨false, some (.lit "out.json"), none⟩
    let run := cmdBuild sampleEnv args sampleTarget
    run.emitted.length = 1 ∧ run.executed.length = 4 ∧
      ∀ prov ∈ run.emitted, prov.get "blockers" = .ok (.seq []) →
        ∃ planned, planCommands sampleEnv sampleTarget = .ok planned ∧
          run.executed = planned.map fun c ↦ (c, 0) := by
  intro args
  have hlengths : (cmdBuild sampleEnv args sampleTarget).emitted.length = 1 ∧
      (cmdBuild sampleEnv args sampleTarget).executed.length = 4 := by
    decide +kernel
  refine ⟨hlengths.1, hlengths.2, fun prov hprov hblockers ↦ ?_⟩
  obtain ⟨-, -, -, -, planned, hplan, hexecuted, -⟩ :=
    (@pass_means_built sampleEnv schemaChecks_checkFormats args sampleTarget).1 prov hprov
      (Or.inr hblockers)
  exact ⟨planned, hplan, hexecuted⟩

end SourceOS.Cosa
