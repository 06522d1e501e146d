import SourceOS.Cosa.Build
import SourceOS.Foundation.JsonSchema

/-!
# The schema and the fallback

`cosa/build-target.schema.json` says what a build target is, and `_fallback_validate` stands in for
it where `jsonschema` is not installed. Whoever writes a target against the schema expects the
stand-in to let it pass.

It does, with one exception. The stand-in asks whether a required string is true, and the schema
only whether it is there: **a document that the schema accepts passes the fallback if and only if
none of its three references is empty** (`fallback_accepts_iff`). An empty `ostreeRef` is reported
as missing (`empty_ref_rejected`).

The pattern of `metadata.name` is a parameter of the schema, as its engines differ: where the schema
language has a text end, the one of Python also lets a line end (`matchesName`, `searchName`).
-/

namespace SourceOS.Cosa

open Document Schema

/-! ### The schema -/

/-- `[a-z0-9]`. -/
def isNameHead : PyChar → Bool
  | .char c => ('a' ≤ c && c ≤ 'z') || ('0' ≤ c && c ≤ '9')
  | .surrogate _ => false

/-- `[a-z0-9._-]`. -/
def isNameTail (c : PyChar) : Bool :=
  isNameHead c || c = .char '.' || c = .char '_' || c = .char '-'

/-- `^[a-z0-9][a-z0-9._-]*$`. -/
def matchesName : PyStr → Bool
  | [] => false
  | c :: s => isNameHead c && s.all isNameTail

/-- The same, where `$` also matches before a line feed at the end. -/
def searchName (s : PyStr) : Bool :=
  matchesName s || (s.getLast? = some (.char '\n') && matchesName s.dropLast)

theorem ne_nil_of_searchName {s : PyStr} (h : searchName s = true) : s ≠ [] := by
  rintro rfl
  exact absurd h (by decide)

theorem searchName_of_matchesName {s : PyStr} (h : matchesName s = true) : searchName s = true := by
  rw [searchName, h, Bool.true_or]

/-- `cosa/build-target.schema.json`. -/
def buildTargetSchema (name : PyStr → Bool) : Schema :=
  closed ["apiVersion", "kind", "metadata", "spec"]
    [("apiVersion", text { const := some (.lit "sourceos.ai/v0") }),
     ("kind", text { const := some (.lit "BuildTarget") }),
     ("metadata", closed ["name"]
       [("name", text { pattern := some name }),
        ("labels", .keywords { type := some .object } [] (text {}) (.all true))]),
     ("spec", closed requiredFields
       [("flavorRef", text {}),
        ("ostreeRef", text {}),
        ("packageManifestRef", text {}),
        ("architecture", text { enum := some [.lit "x86_64", .lit "aarch64"] }),
        ("baseStream", text { enum := some [.lit "stable", .lit "testing", .lit "next"] }),
        ("outputFormats", .keywords { type := some .array, minItems := 1, uniqueItems := true } []
          (.all true) (text { enum := some (schemaFormats.map .str) })),
        ("katelloRepos", closed []
          [("iso", text {}), ("qcow2", text {}), ("raw", text {}), ("metal", text {}),
           ("oci", text {})]),
        ("channel", text {}),
        ("signing", closed []
          [("provider", text { enum := some [.lit "cosign"] }),
           ("enabled", .keywords { type := some .boolean } [] (.all true) (.all true))])])]

/-! ### What the schema says of a target -/

/-- The fields of `spec` that refer to something. -/
def refFields : List String :=
  ["flavorRef", "ostreeRef", "packageManifestRef"]

/-- **The fields of a target that the schema accepts.** -/
structure SchemaFields (name : PyStr → Bool) (target : Document) where
  metadata : Document
  spec : Document
  nameText : PyStr
  arch : PyStr
  fmts : List PyStr
  apiVersion : target.getItem "apiVersion" = .ok (.lit "sourceos.ai/v0")
  kind : target.getItem "kind" = .ok (.lit "BuildTarget")
  getItem_metadata : target.getItem "metadata" = .ok metadata
  getItem_name : metadata.getItem "name" = .ok (.str nameText)
  name_nameText : name nameText = true
  getItem_spec : target.getItem "spec" = .ok spec
  getItem_ref : ∀ field ∈ refFields, ∃ s, spec.getItem field = .ok (.str s)
  getItem_arch : spec.getItem "architecture" = .ok (.str arch)
  arch_mem : arch ∈ [PyStr.lit "x86_64", .lit "aarch64"]
  getItem_fmts : spec.getItem "outputFormats" = .ok (.seq (fmts.map .str))
  fmts_ne_nil : fmts ≠ []
  fmts_mem : ∀ s ∈ fmts, s ∈ schemaFormats

/-- A member that is a string by the schema. -/
theorem exists_str {required : List String} {properties : List (String × Schema)} {d : Document}
    {a : Assertions} (key : String) (h : (closed required properties).accepts d = true)
    (hkey : key ∈ required) (ha : properties.lookup key = some (text a)) :
    ∃ s, d.getItem key = .ok (.str s) ∧ (text a).accepts (.str s) = true := by
  obtain ⟨hrequired, hmembers⟩ := accepts_object h rfl
  obtain ⟨v, hv⟩ := hrequired key hkey
  have haccepts := hmembers key _ v ha hv
  obtain ⟨s, rfl, -⟩ := accepts_string haccepts
  exact ⟨s, hv, haccepts⟩

/-- A string that is one of those listed. -/
theorem mem_of_accepts_enum {ss : List PyStr} {s : PyStr}
    (h : (text { enum := some (ss.map .str) }).accepts (.str s) = true) : s ∈ ss := by
  obtain ⟨s', hs, -, -, henum⟩ := accepts_string h
  obtain ⟨c, hc, hsame⟩ := henum _ rfl
  obtain ⟨t, ht, rfl⟩ := List.mem_map.1 hc
  have heq := eq_of_same_str hsame
  rwa [Scalar.str.inj (Document.scalar.inj heq)]

/-- A member that is a given string by the schema. -/
theorem getItem_of_const {required : List String} {properties : List (String × Schema)}
    {d : Document} {value : String} (key : String)
    (h : (closed required properties).accepts d = true) (hkey : key ∈ required)
    (ha : properties.lookup key = some (text { const := some (.lit value) })) :
    d.getItem key = .ok (.lit value) := by
  obtain ⟨s, hs, haccepts⟩ := exists_str key h hkey ha
  obtain ⟨-, -, -, hconst, -⟩ := accepts_string haccepts
  rw [hs, eq_of_same_str (hconst _ rfl)]
  rfl

theorem fields_of_accepts {name : PyStr → Bool} {target : Document}
    (h : (buildTargetSchema name).accepts target = true) :
    Nonempty (SchemaFields name target) := by
  obtain ⟨hrequired, hmembers⟩ := accepts_object h rfl
  obtain ⟨metadata, hmetadata⟩ := hrequired "metadata" (by decide)
  obtain ⟨spec, hspec⟩ := hrequired "spec" (by decide)
  have hmetadata' := hmembers "metadata" _ metadata rfl hmetadata
  have hspec' := hmembers "spec" _ spec rfl hspec
  obtain ⟨nameText, hname, hnameText⟩ := exists_str "name" hmetadata' (by decide) rfl
  obtain ⟨_, hn, hpattern, -⟩ := accepts_string hnameText
  obtain ⟨arch, harch, harchMem⟩ := exists_str "architecture" hspec' (by decide) rfl
  have hrefs : ∀ field ∈ refFields, ∃ s, spec.getItem field = .ok (.str s) := by
    intro field hfield
    simp only [refFields, List.mem_cons, List.not_mem_nil, or_false] at hfield
    rcases hfield with rfl | rfl | rfl
    · exact (exists_str "flavorRef" hspec' (by decide) rfl).imp fun _ ↦ And.left
    · exact (exists_str "ostreeRef" hspec' (by decide) rfl).imp fun _ ↦ And.left
    · exact (exists_str "packageManifestRef" hspec' (by decide) rfl).imp fun _ ↦ And.left
  obtain ⟨hspecRequired, hspecMembers⟩ := accepts_object hspec' rfl
  obtain ⟨formats, hformats⟩ := hspecRequired "outputFormats" (by decide)
  obtain ⟨xs, rfl, hlength, hitems⟩ :=
    accepts_array (hspecMembers "outputFormats" _ formats rfl hformats) rfl
  obtain ⟨ss, rfl, hss⟩ := exists_eq_map_str (P := fun s ↦ s ∈ schemaFormats) fun x hx ↦ by
    obtain ⟨s, rfl, -⟩ := accepts_string (hitems x hx)
    exact ⟨s, rfl, mem_of_accepts_enum (hitems _ hx)⟩
  exact ⟨{
    metadata := metadata
    spec := spec
    nameText := nameText
    arch := arch
    fmts := ss
    apiVersion := getItem_of_const "apiVersion" h (by decide) rfl
    kind := getItem_of_const "kind" h (by decide) rfl
    getItem_metadata := hmetadata
    getItem_name := hname
    name_nameText := by
      rw [Scalar.str.inj (Document.scalar.inj hn)]
      exact hpattern name rfl
    getItem_spec := hspec
    getItem_ref := hrefs
    getItem_arch := harch
    arch_mem := @mem_of_accepts_enum [.lit "x86_64", .lit "aarch64"] arch harchMem
    getItem_fmts := hformats
    fmts_ne_nil := by
      rintro rfl
      exact absurd hlength (by decide)
    fmts_mem := hss }⟩

/-! ### The fallback on an accepted target -/

section

variable {db : UnicodeDb} {name : PyStr → Bool} {target : Document}

theorem requiredField_of_getItem {spec v : Document} {field : String}
    (h : spec.getItem field = .ok v) (hv : v.truthy = true) :
    requiredField spec field = .ok [] := by
  rw [requiredField, get_of_getItem h]
  show Except.ok (errorIf (!v.truthy) _) = _
  rw [hv]
  rfl

theorem formatEntry_of_mem {s : PyStr} (h : s ∈ allowedFormats) :
    formatEntry db (.str s) = .ok [] := by
  rw [formatEntry, inFormats_str, decide_eq_true h]
  rfl

theorem differs_lit (s : String) : differs (.lit s) s = false := by
  simp [differs, Document.lit, Scalar.lit]

theorem truthy_str {s : PyStr} : (Document.str s).truthy = true ↔ s ≠ [] := by
  cases s <;> simp [Document.str, Document.truthy, Scalar.truthy]

/-- **What the fallback has to say** of a target that the schema accepts is about its references
alone. -/
theorem fallbackValidate_of_fields (c : SchemaFields name target) (hname : c.nameText ≠ []) :
    fallbackValidate db target = collect requiredFields (requiredField c.spec) := by
  have harch : ((Document.str c.arch).truthy && differs (.str c.arch) "x86_64" &&
      differs (.str c.arch) "aarch64") = false := by
    have hmem := c.arch_mem
    simp only [List.mem_cons, List.not_mem_nil, or_false] at hmem
    rcases hmem with h | h
    · rw [h]
      decide
    · rw [h]
      decide
  have hseq : (Document.seq (c.fmts.map .str)).truthy = true := by
    simp [Document.truthy, c.fmts_ne_nil]
  have hfmts : collect (c.fmts.map .str) (formatEntry db) = .ok [] := by
    refine collect_eq_nil_iff.2 fun f hf ↦ ?_
    obtain ⟨s, hs, rfl⟩ := List.mem_map.1 hf
    exact formatEntry_of_mem (known_of_schemaFormats s (c.fmts_mem s hs))
  simp only [fallbackValidate, get_of_getItem c.apiVersion, get_of_getItem c.kind,
    get_of_getItem c.getItem_metadata, get_of_getItem c.getItem_name,
    get_of_getItem c.getItem_spec, get_of_getItem c.getItem_arch, get_of_getItem c.getItem_fmts,
    orElse_of_truthy (truthy_of_getItem c.getItem_name),
    orElse_of_truthy (truthy_of_getItem c.getItem_arch), orElse_of_truthy hseq,
    Document.iterate, ok_bind, hfmts, differs_lit, harch, truthy_str.2 hname, Bool.not_true,
    errorIf_eq_nil_iff.2, List.nil_append, List.append_nil, bind_pure]

/-- None of the three references of the target is empty. -/
def RefsNonempty (target : Document) : Prop :=
  ∀ spec, target.getItem "spec" = .ok spec → ∀ field ∈ refFields, spec.getItem field ≠ .ok (.lit "")

theorem mem_requiredFields {field : String} :
    field ∈ requiredFields ↔ field ∈ refFields ∨ field ∈ ["architecture", "outputFormats"] :=
  List.mem_append (s := refFields)

/-- A reference that is there is no reason for an error, unless it is empty. -/
theorem requiredField_ref_iff {spec : Document} {field : String} {s : PyStr}
    (h : spec.getItem field = .ok (.str s)) : requiredField spec field = .ok [] ↔ s ≠ [] := by
  constructor
  · intro hfield
    obtain ⟨v, hv, htruthy⟩ := truthy_of_requiredField hfield
    obtain rfl := Except.ok.inj (hv.symm.trans (get_of_getItem h))
    exact truthy_str.1 htruthy
  · intro hs
    exact requiredField_of_getItem h (truthy_str.2 hs)

/-- **The fallback accepts what the schema accepts** if and only if no reference is empty. -/
theorem fallback_accepts_iff (h : (buildTargetSchema matchesName).accepts target = true) :
    fallbackValidate db target = .ok [] ↔ RefsNonempty target := by
  obtain ⟨c⟩ := fields_of_accepts h
  have hname := ne_nil_of_searchName (searchName_of_matchesName c.name_nameText)
  rw [fallbackValidate_of_fields c hname, collect_eq_nil_iff]
  constructor
  · intro hfields spec hspec field hfield hempty
    obtain rfl := Except.ok.inj (c.getItem_spec.symm.trans hspec)
    exact (requiredField_ref_iff hempty).1
      (hfields field (mem_requiredFields.2 (Or.inl hfield))) rfl
  · intro hrefs field hfield
    rcases mem_requiredFields.1 hfield with href | hrest
    · obtain ⟨s, hs⟩ := c.getItem_ref field href
      refine (requiredField_ref_iff hs).2 fun hempty ↦ ?_
      exact hrefs c.spec c.getItem_spec field href (by rw [hs, hempty]; rfl)
    · -- the schema itself rules out an empty architecture and an empty list of formats
      simp only [List.mem_cons, List.not_mem_nil, or_false] at hrest
      rcases hrest with rfl | rfl
      · refine requiredField_of_getItem c.getItem_arch (truthy_str.2 fun hempty ↦ ?_)
        exact absurd (hempty ▸ c.arch_mem) (by decide)
      · exact requiredField_of_getItem c.getItem_fmts
          (by simp [Document.truthy, c.fmts_ne_nil])

end

/-! ### What approval by either validator is worth -/

/-- `jsonschema` finds no error only in what the schema accepts. Its patterns are those of
Python. -/
def SchemaSound (jsonschema : JsonSchema) : Prop :=
  ∀ iterErrors, jsonschema = some iterErrors → ∀ target, iterErrors target = .ok [] →
    (buildTargetSchema searchName).accepts target = true

/-- A target that the schema accepts has been checked. -/
def SchemaFields.checked {name : PyStr → Bool} {target : Document} (c : SchemaFields name target) :
    Checked target where
  metadata := c.metadata
  spec := c.spec
  fmts := c.fmts
  apiVersion := c.apiVersion
  kind := c.kind
  getItem_metadata := c.getItem_metadata
  getItem_spec := c.getItem_spec
  name := ⟨_, c.getItem_name⟩
  required := fun field hfield ↦ by
    rcases mem_requiredFields.1 hfield with href | hrest
    · obtain ⟨s, hs⟩ := c.getItem_ref field href
      exact ⟨_, hs, Or.inr ⟨s, rfl⟩⟩
    · simp only [List.mem_cons, List.not_mem_nil, or_false] at hrest
      rcases hrest with rfl | rfl
      · exact ⟨_, c.getItem_arch, Or.inr ⟨_, rfl⟩⟩
      · exact ⟨_, c.getItem_fmts, Or.inl (by simp [Document.truthy, c.fmts_ne_nil])⟩
  formats := formatsOf_eq c.getItem_spec c.getItem_fmts
  known := fun s hs ↦ known_of_schemaFormats s (c.fmts_mem s hs)

/-- **What approval is worth**, whichever validator it comes from. -/
theorem checked_of_validateTarget {db : UnicodeDb} {floatValue : PyFloat → FloatValue}
    {jsonschema : JsonSchema} (hsound : SchemaSound jsonschema) {target : Document}
    (h : validateTarget db floatValue jsonschema target = .ok []) : Nonempty (Checked target) := by
  cases jsonschema with
  | none => exact checked_of_fallback h
  | some iterErrors =>
    exact (fields_of_accepts (hsound iterErrors rfl target (no_errors h))).map SchemaFields.checked

/-- The schema, as a check. -/
def checkSchema (target : Document) : Except BuiltinError (List SchemaError) :=
  if (buildTargetSchema searchName).accepts target = true then .ok []
  else .ok [⟨[], .lit "not as the schema says"⟩]

theorem schemaSound_checkSchema : SchemaSound (some checkSchema) := by
  rintro _ ⟨⟩ target h
  rw [checkSchema] at h
  split_ifs at h with haccepts
  · exact haccepts
  · exact absurd h (by simp)

/-- A build target that is composed to a given branch. -/
def targetOfBranch (ostreeRef : String) : Document :=
  .map [(.lit "apiVersion", .lit "sourceos.ai/v0"), (.lit "kind", .lit "BuildTarget"),
    (.lit "metadata", .map [(.lit "name", .lit "workstation"),
      (.lit "labels", .map [(.lit "channel", .lit "dev")])]),
    (.lit "spec", .map [(.lit "flavorRef", .lit "flavor.yaml"),
      (.lit "ostreeRef", .lit ostreeRef),
      (.lit "packageManifestRef", .lit "manifest.yaml"),
      (.lit "architecture", .lit "x86_64"),
      (.lit "outputFormats", .seq [.lit "ostree", .lit "iso"]),
      (.lit "katelloRepos", .map [(.lit "iso", .lit "sourceos-live-iso")])])]

/-- A target with a branch is accepted by both. -/
theorem fallback_accepts_iff_stable :
    (buildTargetSchema matchesName).accepts (targetOfBranch "sourceos/stable") = true ∧
      RefsNonempty (targetOfBranch "sourceos/stable") := by
  have haccepts :
      (buildTargetSchema matchesName).accepts (targetOfBranch "sourceos/stable") = true := by
    decide +kernel
  have hfallback :
      fallbackValidate Runtime.ascii.unicode (targetOfBranch "sourceos/stable") = .ok [] := by
    decide +kernel
  exact ⟨haccepts, (fallback_accepts_iff haccepts).1 hfallback⟩

/-- **The fallback rejects what the schema accepts**: a target whose branch is empty has no branch,
it says. -/
theorem empty_ref_rejected :
    (buildTargetSchema matchesName).accepts (targetOfBranch "") = true ∧
      fallbackValidate Runtime.ascii.unicode (targetOfBranch "") =
        .ok [.lit "spec.ostreeRef is required"] := by
  decide +kernel

end SourceOS.Cosa
