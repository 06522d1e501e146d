import SourceOS.Foundation.DocumentText

/-!
# Build targets

The validation of `cosa/build.py`: a document that came out of a YAML or JSON file is checked by
`jsonschema`, where that package is installed, and by `_fallback_validate` otherwise, and then once
more across its fields by `_semantic_checks`.

The checks are Python on a document of any shape, so they may raise where a dictionary was expected.
The fallback looks at what it needs only: a list of formats may just as well be a dictionary with
formats as its keys. `formats_of_fallback` says what its approval is worth all the same: every entry
of `spec.outputFormats` is one of the formats the wrapper knows.

The errors that `jsonschema` finds are a parameter, each with the path to the value it is about;
`SchemaChecks` is the part of `cosa/build-target.schema.json` that is relied on here.
-/

namespace SourceOS.Cosa

open Document

/-- The errors of several checks, one after the other. -/
def collect {α : Type} (xs : List α) (check : α → Except BuiltinError (List PyStr)) :
    Except BuiltinError (List PyStr) := do
  let found ← xs.mapM check
  return found.flatten

/-- An error that is found, or is not. -/
def errorIf (p : Bool) (msg : PyStr) : List PyStr :=
  if p then [msg] else []

/-! ### The checks -/

/-- `_BASE_BUILD_FORMATS`. -/
def baseBuildFormats : List PyStr :=
  [.lit "ostree", .lit "qemu"]

/-- `_BUILDEXTEND_FORMATS`. -/
def buildextendFormats : List PyStr :=
  [.lit "metal", .lit "iso", .lit "qcow2", .lit "oci", .lit "raw"]

/-- The union of the two. -/
def allowedFormats : List PyStr :=
  baseBuildFormats ++ buildextendFormats

/-- `x in s`, for a set of strings. -/
def inFormats (formats : List PyStr) (d : Document) : Except BuiltinError Bool := do
  let key ← d.keyOf
  return decide (key ∈ formats.map Scalar.Key.str)

section

variable (db : UnicodeDb)

/-- The check of one required field of `spec`. -/
def requiredField (spec : Document) (field : String) : Except BuiltinError (List PyStr) := do
  let v ← spec.get field
  return errorIf (!v.truthy) (.lit "spec." ++ .lit field ++ .lit " is required")

/-- The check of one entry of `spec.outputFormats`. -/
def formatEntry (f : Document) : Except BuiltinError (List PyStr) := do
  let known ← inFormats allowedFormats f
  return errorIf (!known) (.lit "spec.outputFormats entry '" ++ f.toStr db ++
    .lit "' not in ['iso', 'metal', 'oci', 'ostree', 'qcow2', 'qemu', 'raw']")

/-- `d != s`. -/
def differs (d : Document) (s : String) : Bool :=
  match d with
  | .scalar (.str t) => t != PyStr.lit s
  -- a value of another type is never equal to a string
  | _ => true

/-- The fields of `spec` that are required. -/
def requiredFields : List String :=
  ["flavorRef", "ostreeRef", "packageManifestRef", "architecture", "outputFormats"]

/-- `_fallback_validate`. -/
def fallbackValidate (target : Document) : Except BuiltinError (List PyStr) := do
  let apiVersion ← target.get "apiVersion"
  let kind ← target.get "kind"
  let metadata ← target.get "metadata"
  -- `or {}` stands in for any false value, and `.get` raises on a true one that is no mapping
  let name ← (metadata.orElse (.map [])).get "name"
  let spec ← target.get "spec"
  let spec := spec.orElse (.map [])
  let missing ← collect requiredFields (requiredField spec)
  let arch ← spec.get "architecture"
  let outputFormats ← spec.get "outputFormats"
  let fmts ← (outputFormats.orElse (.seq [])).iterate
  let unknown ← collect fmts (formatEntry db)
  return errorIf (differs apiVersion "sourceos.ai/v0")
      (.lit "apiVersion must be 'sourceos.ai/v0'") ++
    errorIf (differs kind "BuildTarget") (.lit "kind must be 'BuildTarget'") ++
    errorIf (!name.truthy) (.lit "metadata.name is required") ++ missing ++
    errorIf (arch.truthy && differs arch "x86_64" && differs arch "aarch64")
      (.lit "spec.architecture '" ++ arch.toStr db ++ .lit "' not in [x86_64, aarch64]") ++
    unknown

/-! ### The errors of `jsonschema` -/

/-- An error that `jsonschema` reports. -/
structure SchemaError where
  /-- The keys and indices that lead to the value it is about. -/
  path : List Scalar
  /-- What is wrong with it. -/
  message : PyStr

/-- What comparing two paths raises: they are compared where they part. -/
def pathClash : List Scalar → List Scalar → Option BuiltinError
  | x :: p, y :: q => if x.key = y.key then pathClash p q else x.clash y
  | _, _ => none

/-- The order of paths. -/
def pathLe (floatValue : PyFloat → FloatValue) : List Scalar → List Scalar → Bool
  | [], _ => true
  | _ :: _, [] => false
  | x :: p, y :: q => if x.key = y.key then pathLe floatValue p q else x.le floatValue y

/-- An error as `validate_target` reports it. -/
def schemaErrorText (e : SchemaError) : PyStr :=
  let path : PyStr := [.char '/'].intercalate (e.path.map (Scalar.toStr db))
  (if path = [] then .lit "<root>" else path) ++ .lit ": " ++ e.message

/-- `jsonschema.Draft202012Validator(schema).iter_errors`: there is none where the package is not
installed. -/
abbrev JsonSchema := Option (Document → Except BuiltinError (List SchemaError))

/-- `validate_target`. -/
def validateTarget (floatValue : PyFloat → FloatValue) (jsonschema : JsonSchema)
    (target : Document) : Except BuiltinError (List PyStr) :=
  match jsonschema with
  | none => fallbackValidate db target
  | some iterErrors => do
    let errors ← iterErrors target
    checkSort pathClash (errors.map SchemaError.path)
    return (errors.insertionSort fun e f ↦ pathLe floatValue e.path f.path = true).map
      (schemaErrorText db)

/-! ### The checks across fields -/

/-- The check that a referenced file exists below the root of the repository. -/
def referenceExists (exists_ : PyStr → Except BuiltinError Bool) (spec : Document)
    (field : String) : Except BuiltinError (List PyStr) := do
  let ref ← spec.get field
  if ref.truthy then
    match ref with
    | .scalar (.str path) => do
      let found ← exists_ path
      return errorIf (!found) (.lit "spec." ++ .lit field ++ .lit " -> " ++ path ++
        .lit " does not exist (relative to repo root)")
    | _ => .error (typeError ("unsupported operand type(s) for /: 'PosixPath' and '".toList ++
        ref.typeName.toList ++ ['\'']))
  else return []

/-- The check of one key of `spec.katelloRepos`. -/
def katelloEntry (fmts : List Scalar.Key) (fmt : Document) : Except BuiltinError (List PyStr) := do
  let key ← fmt.keyOf
  return errorIf (key ∉ fmts) (.lit "spec.katelloRepos['" ++ fmt.toStr db ++
    .lit "'] has no matching entry in outputFormats")

/-- `_semantic_checks`. -/
def semanticChecks (exists_ : PyStr → Except BuiltinError Bool) (target : Document) :
    Except BuiltinError (List PyStr) := do
  let spec ← target.get "spec"
  let spec := spec.orElse (.map [])
  let outputFormats ← spec.get "outputFormats"
  let fmts ← (outputFormats.orElse (.seq [])).iterate
  -- `fmts` is a set, so every entry is hashed
  let fmts ← fmts.mapM keyOf
  let katelloRepos ← spec.get "katelloRepos"
  let repos ← (katelloRepos.orElse (.map [])).iterate
  let unmatched ← collect repos (katelloEntry db fmts)
  let missing ← collect ["flavorRef", "packageManifestRef"] (referenceExists exists_ spec)
  return unmatched ++ missing

end

/-! ### What approval is worth -/

/-- `list(target["spec"]["outputFormats"])`. -/
def formatsOf (target : Document) : Except BuiltinError (List Document) := do
  let spec ← target.getItem "spec"
  let outputFormats ← spec.getItem "outputFormats"
  outputFormats.iterate

theorem formatsOf_eq {target spec outputFormats : Document}
    (hspec : target.getItem "spec" = .ok spec)
    (houtput : spec.getItem "outputFormats" = .ok outputFormats) :
    formatsOf target = outputFormats.iterate := by
  rw [formatsOf, hspec, ok_bind, houtput, ok_bind]

/-- The formats that the schema lists. -/
def schemaFormats : List PyStr :=
  [.lit "ostree", .lit "qemu", .lit "metal", .lit "iso", .lit "qcow2", .lit "oci", .lit "raw"]

/-- What the schema says about `spec.outputFormats`: it is a required array of strings, each one of
those listed. -/
def SchemaFormats (target : Document) : Prop :=
  ∃ (spec : Document) (ss : List PyStr), target.getItem "spec" = .ok spec ∧
    spec.getItem "outputFormats" = .ok (.seq (ss.map .str)) ∧ ∀ s ∈ ss, s ∈ schemaFormats

/-- `jsonschema` finds no error only in what is as the schema says. -/
def SchemaChecks (jsonschema : JsonSchema) : Prop :=
  ∀ iterErrors, jsonschema = some iterErrors → ∀ target, iterErrors target = .ok [] →
    SchemaFormats target

theorem exists_of_mapM_eq_ok {ε α β : Type} {f : α → Except ε β} {xs : List α} {ys : List β}
    (h : xs.mapM f = .ok ys) : ∀ x ∈ xs, ∃ y ∈ ys, f x = .ok y :=
  (exists_of_forall₂ (mapM_eq_ok_iff.1 h)).2

/-- **Several checks find nothing** if and only if each of them finds nothing. -/
theorem collect_eq_nil_iff {α : Type} {xs : List α} {check : α → Except BuiltinError (List PyStr)} :
    collect xs check = .ok [] ↔ ∀ x ∈ xs, check x = .ok [] := by
  constructor
  · intro h x hx
    obtain ⟨found, hfound, h⟩ := exists_of_bind_eq_ok h
    obtain ⟨y, hy, hcheck⟩ := exists_of_mapM_eq_ok hfound x hx
    rw [hcheck, List.flatten_eq_nil_iff.1 (Except.ok.inj h) y hy]
  · intro h
    have hmapM : xs.mapM check = .ok (xs.map fun _ ↦ []) :=
      mapM_eq_ok_iff.2 (List.forall₂_map_right_iff.2 (List.forall₂_same.2 h))
    rw [collect, hmapM]
    show Except.ok (xs.map fun _ ↦ []).flatten = _
    rw [List.flatten_eq_nil_iff.2 (by simp)]

theorem errorIf_eq_nil_iff {p : Bool} {msg : PyStr} : errorIf p msg = [] ↔ p = false := by
  cases p <;> simp [errorIf]

/-- A string is looked up among strings. -/
theorem inFormats_str {formats : List PyStr} {s : PyStr} :
    inFormats formats (.str s) = .ok (decide (s ∈ formats)) := by
  have hmem : Scalar.Key.str s ∈ formats.map Scalar.Key.str ↔ s ∈ formats :=
    List.mem_map_of_injective fun _ _ ↦ Scalar.Key.str.inj
  exact congrArg Except.ok (decide_eq_decide.2 hmem)

/-- A required field without an error is there. -/
theorem truthy_of_requiredField {spec : Document} {field : String}
    (h : requiredField spec field = .ok []) : ∃ v, spec.get field = .ok v ∧ v.truthy = true := by
  obtain ⟨v, hv, h⟩ := exists_of_bind_eq_ok h
  exact ⟨v, hv, by simpa using errorIf_eq_nil_iff.1 (Except.ok.inj h)⟩

/-- An entry without an error is a format that the wrapper knows. -/
theorem format_of_entry {db : UnicodeDb} {f : Document} (h : formatEntry db f = .ok []) :
    ∃ s, f = .str s ∧ s ∈ allowedFormats := by
  obtain ⟨known, hknown, h⟩ := exists_of_bind_eq_ok h
  obtain ⟨key, hkey, hin⟩ := exists_of_bind_eq_ok hknown
  have hknown : known = true := by simpa using errorIf_eq_nil_iff.1 (Except.ok.inj h)
  have hmem : key ∈ allowedFormats.map Scalar.Key.str :=
    of_decide_eq_true ((Except.ok.inj hin).trans hknown)
  obtain ⟨s, hs, rfl⟩ := List.mem_map.1 hmem
  refine ⟨s, ?_, hs⟩
  cases f with
  | scalar x => rw [Scalar.eq_str_of_key (Except.ok.inj hkey), Document.str]
  | seq xs => exact absurd hkey (by simp [keyOf])
  | map ms => exact absurd hkey (by simp [keyOf])

theorem eq_lit_of_differs {d : Document} {s : String} (h : differs d s = false) : d = .lit s := by
  cases d with
  | scalar x =>
    cases x with
    | str t =>
      have heq : t = PyStr.lit s := by simpa [differs] using h
      rw [heq]
      rfl
    | _ => exact absurd h (by simp [differs])
  | seq xs => exact absurd h (by simp [differs])
  | map ms => exact absurd h (by simp [differs])

/-- Documents that are all strings are a list of strings. -/
theorem exists_eq_map_str {P : PyStr → Prop} {ds : List Document}
    (h : ∀ d ∈ ds, ∃ s, d = .str s ∧ P s) :
    ∃ ss : List PyStr, ds = ss.map .str ∧ ∀ s ∈ ss, P s := by
  induction ds with
  | nil => exact ⟨[], rfl, fun _ h ↦ absurd h List.not_mem_nil⟩
  | cons d ds ih =>
    obtain ⟨⟨s, rfl, hs⟩, hds⟩ := List.forall_mem_cons.1 h
    obtain ⟨ss, rfl, hss⟩ := ih hds
    exact ⟨s :: ss, rfl, List.forall_mem_cons.2 ⟨hs, hss⟩⟩

/-- Where `jsonschema` is installed, approval means that it has found nothing. -/
theorem no_errors {db : UnicodeDb} {floatValue : PyFloat → FloatValue}
    {iterErrors : Document → Except BuiltinError (List SchemaError)} {target : Document}
    (h : validateTarget db floatValue (some iterErrors) target = .ok []) :
    iterErrors target = .ok [] := by
  obtain ⟨errors, herrors, h⟩ := exists_of_bind_eq_ok h
  obtain ⟨-, -, h⟩ := exists_of_bind_eq_ok h
  have hsorted := List.map_eq_nil_iff.1 (Except.ok.inj h)
  have hperm := List.perm_insertionSort (fun e f ↦ pathLe floatValue e.path f.path = true) errors
  rw [hsorted] at hperm
  rw [herrors, hperm.nil_eq]

/-- **A target that has been checked**: it says what it is, everything required of it is there and
true, unless it is a string, and its formats are among those that the wrapper knows. -/
structure Checked (target : Document) where
  metadata : Document
  spec : Document
  fmts : List PyStr
  apiVersion : target.getItem "apiVersion" = .ok (.lit "sourceos.ai/v0")
  kind : target.getItem "kind" = .ok (.lit "BuildTarget")
  getItem_metadata : target.getItem "metadata" = .ok metadata
  getItem_spec : target.getItem "spec" = .ok spec
  name : ∃ v, metadata.getItem "name" = .ok v
  required : ∀ field ∈ requiredFields, ∃ v, spec.getItem field = .ok v ∧
    (v.truthy = true ∨ ∃ s, v = .str s)
  formats : formatsOf target = .ok (fmts.map .str)
  known : ∀ s ∈ fmts, s ∈ allowedFormats

/-- A member that is true was there to be found, and no default stood in for what it is a member
of. -/
theorem getItem_of_get_orElse {d e v : Document} {key field : String} (h : d.get key = .ok e)
    (hv : (e.orElse (.map [])).get field = .ok v) (htruthy : v.truthy = true) :
    e.orElse (.map []) = e ∧ d.getItem key = .ok e ∧ e.getItem field = .ok v := by
  have horElse := orElse_eq_of_get hv htruthy
  rw [horElse] at hv
  refine ⟨horElse, getItem_of_get h ?_, getItem_of_get hv (ne_null_of_truthy htruthy)⟩
  rintro rfl
  exact absurd hv (by simp [Document.get, null])

/-- **Where no required field is missing**, there is a `spec`, and no default stood in for it. -/
theorem fields_of_collect {target spec : Document} (hspec : target.get "spec" = .ok spec)
    (h : collect requiredFields (requiredField (spec.orElse (.map []))) = .ok []) :
    spec.orElse (.map []) = spec ∧ target.getItem "spec" = .ok spec ∧
      ∀ field ∈ requiredFields, ∃ v, spec.getItem field = .ok v ∧ v.truthy = true := by
  have hfield : ∀ field ∈ requiredFields, ∃ v, spec.orElse (.map []) = spec ∧
      target.getItem "spec" = .ok spec ∧ spec.getItem field = .ok v ∧ v.truthy = true := by
    intro field hmem
    obtain ⟨v, hv, htruthy⟩ := truthy_of_requiredField (collect_eq_nil_iff.1 h field hmem)
    obtain ⟨hdefault, hgetSpec, hgetField⟩ := getItem_of_get_orElse hspec hv htruthy
    exact ⟨v, hdefault, hgetSpec, hgetField, htruthy⟩
  obtain ⟨-, hdefault, hgetSpec, -⟩ := hfield "flavorRef" (by simp [requiredFields])
  refine ⟨hdefault, hgetSpec, fun field hmem ↦ ?_⟩
  obtain ⟨v, -, -, hv, htruthy⟩ := hfield field hmem
  exact ⟨v, hv, htruthy⟩

/-- **What the fallback's approval is worth.** -/
theorem checked_of_fallback {db : UnicodeDb} {target : Document}
    (h : fallbackValidate db target = .ok []) : Nonempty (Checked target) := by
  obtain ⟨apiVersion, hapiVersion, h⟩ := exists_of_bind_eq_ok h
  obtain ⟨kind, hkind, h⟩ := exists_of_bind_eq_ok h
  obtain ⟨metadata, hmetadata, h⟩ := exists_of_bind_eq_ok h
  obtain ⟨name, hname, h⟩ := exists_of_bind_eq_ok h
  obtain ⟨spec, hspec, h⟩ := exists_of_bind_eq_ok h
  obtain ⟨missing, hmissing, h⟩ := exists_of_bind_eq_ok h
  obtain ⟨arch, -, h⟩ := exists_of_bind_eq_ok h
  obtain ⟨outputFormats, houtput, h⟩ := exists_of_bind_eq_ok h
  obtain ⟨fmts, hfmts, h⟩ := exists_of_bind_eq_ok h
  obtain ⟨unknown, hunknown, h⟩ := exists_of_bind_eq_ok h
  have hnil := Except.ok.inj h
  -- there are no errors at all, so there is none of each kind
  simp only [List.append_eq_nil_iff, errorIf_eq_nil_iff] at hnil
  obtain ⟨⟨⟨⟨⟨hapi, hk⟩, hn⟩, rfl⟩, -⟩, rfl⟩ := hnil
  obtain rfl := eq_lit_of_differs hapi
  obtain rfl := eq_lit_of_differs hk
  obtain ⟨-, hgetMetadata, hgetName⟩ :=
    getItem_of_get_orElse hmetadata hname (by simpa using hn)
  obtain ⟨hdefault, hgetSpec, hfield⟩ := fields_of_collect hspec hmissing
  obtain ⟨formats, hgetFormats, htruthy⟩ := hfield "outputFormats" (by simp [requiredFields])
  rw [hdefault, get_of_getItem hgetFormats] at houtput
  obtain rfl := Except.ok.inj houtput
  rw [orElse_of_truthy htruthy] at hfmts
  obtain ⟨ss, rfl, hss⟩ := exists_eq_map_str fun f hf ↦
    format_of_entry (collect_eq_nil_iff.1 hunknown f hf)
  exact ⟨{
    metadata := metadata
    spec := spec
    fmts := ss
    apiVersion := getItem_of_get hapiVersion (by simp [Document.lit, null, Scalar.lit])
    kind := getItem_of_get hkind (by simp [Document.lit, null, Scalar.lit])
    getItem_metadata := hgetMetadata
    getItem_spec := hgetSpec
    name := ⟨name, hgetName⟩
    required := fun field hmem ↦ by
      obtain ⟨v, hv, htruthy⟩ := hfield field hmem
      exact ⟨v, hv, Or.inl htruthy⟩
    formats := (formatsOf_eq hgetSpec hgetFormats).trans hfmts
    known := hss }⟩

/-- **What the fallback's approval is worth for the formats**: every entry of `spec.outputFormats`
is a format that the wrapper knows. -/
theorem formats_of_fallback {db : UnicodeDb} {target : Document} {fmts : List Document}
    (h : fallbackValidate db target = .ok []) (hfmts : formatsOf target = .ok fmts) :
    ∀ f ∈ fmts, ∃ s, f = .str s ∧ s ∈ allowedFormats := by
  obtain ⟨c⟩ := checked_of_fallback h
  obtain rfl := Except.ok.inj (c.formats.symm.trans hfmts)
  intro f hf
  obtain ⟨s, hs, rfl⟩ := List.mem_map.1 hf
  exact ⟨s, rfl, c.known s hs⟩

theorem known_of_schemaFormats : ∀ s ∈ schemaFormats, s ∈ allowedFormats := by
  decide

/-- The same for either validator. -/
theorem formats_of_validateTarget {db : UnicodeDb} {floatValue : PyFloat → FloatValue}
    {jsonschema : JsonSchema} (hschema : SchemaChecks jsonschema) {target : Document}
    {fmts : List Document} (h : validateTarget db floatValue jsonschema target = .ok [])
    (hfmts : formatsOf target = .ok fmts) : ∀ f ∈ fmts, ∃ s, f = .str s ∧ s ∈ allowedFormats := by
  cases jsonschema with
  | none => exact formats_of_fallback h hfmts
  | some iterErrors =>
    obtain ⟨spec, ss, hspec, houtput, hall⟩ := hschema iterErrors rfl target (no_errors h)
    obtain rfl := Except.ok.inj ((formatsOf_eq hspec houtput).symm.trans hfmts)
    intro f hf
    obtain ⟨s, hs, rfl⟩ := List.mem_map.1 hf
    exact ⟨s, rfl, known_of_schemaFormats s (hall s hs)⟩

end SourceOS.Cosa
