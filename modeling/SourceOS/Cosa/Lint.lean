import SourceOS.Cosa.Schema

/-!
# Linting

`cmd_validate` is to say of any document whether it is a build target. Its checks index, iterate and
hash what they find without looking at its type, and `_semantic_checks` does so with documents that
have been found invalid already; so there are documents that are answered with an exception.

`Lintable` says which are not: the document is a mapping, what the checks look into is a mapping or
false, what they loop over has a hash, and a reference is a path. **`cmd_validate` returns 0 or 1
exactly on the lintable documents** (`validate_total_iff`), and where it returns 0 everything that
is required is there.

Each check has its own lemma, which says on which documents it raises nothing
(`fallbackValidate_ok_iff`, `semanticChecks_ok_iff`).
-/

namespace SourceOS.Cosa

open Document Schema

/-! ### Where the checks raise nothing -/

theorem collect_ok_iff {α : Type} {xs : List α} {check : α → Except BuiltinError (List PyStr)} :
    (∃ errs, collect xs check = .ok errs) ↔ ∀ x ∈ xs, ∃ errs, check x = .ok errs := by
  constructor
  · rintro ⟨errs, h⟩ x hx
    obtain ⟨found, hfound, -⟩ := exists_of_bind_eq_ok h
    obtain ⟨y, -, hy⟩ := exists_of_mapM_eq_ok hfound x hx
    exact ⟨y, hy⟩
  · intro h
    obtain ⟨found, hfound⟩ := exists_forall₂ h
    exact ⟨found.flatten, by rw [collect, mapM_eq_ok_iff.2 hfound]; rfl⟩

/-- What `spec.get(field) or default` goes through has a hash. -/
def Loopable (d : Document) : Prop :=
  d.truthy = true → d.HashableEntries

/-- A value that is looked into is a mapping. -/
def Indexable (d : Document) : Prop :=
  d.truthy = true → d.IsMap

section

variable {db : UnicodeDb} {exists_ : PyStr → Except BuiltinError Bool}

/-- `(d or {}).get(key)`. -/
theorem get_orElse_eq_ok_iff {d v : Document} {key : String} :
    (d.orElse (.map [])).get key = .ok v ↔ Indexable d ∧ v = d.member key := by
  have hmap : (d.orElse (.map [])).IsMap ↔ Indexable d := orElse_iff trivial
  constructor
  · intro h
    have hd := isMap_of_get h
    rw [get_of_isMap hd, member_orElse] at h
    exact ⟨hmap.1 hd, (Except.ok.inj h).symm⟩
  · rintro ⟨hd, rfl⟩
    rw [get_of_isMap (hmap.2 hd), member_orElse]

theorem get_eq_ok_iff {d v : Document} {key : String} :
    d.get key = .ok v ↔ d.IsMap ∧ v = d.member key := by
  constructor
  · intro h
    have hd := isMap_of_get h
    rw [get_of_isMap hd] at h
    exact ⟨hd, (Except.ok.inj h).symm⟩
  · rintro ⟨hd, rfl⟩
    exact get_of_isMap hd

/-- `for x in d or default`, with the hash of every `x`. -/
theorem iterate_orElse_iff {d default : Document} (h : default.HashableEntries) :
    (∃ xs, (d.orElse default).iterate = .ok xs ∧ ∀ x ∈ xs, x.IsScalar) ↔ Loopable d :=
  iterate_hashable_iff.trans (orElse_iff h)

theorem hashableEntries_nil : (Document.seq []).HashableEntries :=
  fun _ h ↦ absurd h List.not_mem_nil

theorem formatEntry_ok_iff {f : Document} : (∃ errs, formatEntry db f = .ok errs) ↔ f.IsScalar := by
  rw [← keyOf_ok_iff]
  constructor
  · rintro ⟨errs, h⟩
    obtain ⟨known, hknown, -⟩ := exists_of_bind_eq_ok h
    obtain ⟨key, hkey, -⟩ := exists_of_bind_eq_ok hknown
    exact ⟨key, hkey⟩
  · rintro ⟨key, hkey⟩
    simp only [formatEntry, inFormats, hkey, ok_bind]
    exact ⟨_, rfl⟩

theorem katelloEntry_ok_iff {fmts : List Scalar.Key} {fmt : Document} :
    (∃ errs, katelloEntry db fmts fmt = .ok errs) ↔ fmt.IsScalar := by
  rw [← keyOf_ok_iff]
  constructor
  · rintro ⟨errs, h⟩
    obtain ⟨key, hkey, -⟩ := exists_of_bind_eq_ok h
    exact ⟨key, hkey⟩
  · rintro ⟨key, hkey⟩
    simp only [katelloEntry, hkey, ok_bind]
    exact ⟨_, rfl⟩

/-- **Where the fallback raises nothing.** -/
theorem fallbackValidate_ok_iff {target : Document} :
    (∃ errs, fallbackValidate db target = .ok errs) ↔
      target.IsMap ∧ Indexable (target.member "metadata") ∧ Indexable (target.member "spec") ∧
        Loopable ((target.member "spec").member "outputFormats") := by
  constructor
  · rintro ⟨errs, h⟩
    obtain ⟨apiVersion, hapiVersion, h⟩ := exists_of_bind_eq_ok h
    obtain ⟨kind, hkind, h⟩ := exists_of_bind_eq_ok h
    obtain ⟨metadata, hmetadata, h⟩ := exists_of_bind_eq_ok h
    obtain ⟨name, hname, h⟩ := exists_of_bind_eq_ok h
    obtain ⟨spec, hspec, h⟩ := exists_of_bind_eq_ok h
    obtain ⟨missing, hmissing, h⟩ := exists_of_bind_eq_ok h
    obtain ⟨arch, harch, h⟩ := exists_of_bind_eq_ok h
    obtain ⟨outputFormats, houtput, h⟩ := exists_of_bind_eq_ok h
    obtain ⟨fmts, hfmts, h⟩ := exists_of_bind_eq_ok h
    obtain ⟨unknown, hunknown, h⟩ := exists_of_bind_eq_ok h
    obtain ⟨hmap, rfl⟩ := get_eq_ok_iff.1 hmetadata
    obtain ⟨-, rfl⟩ := get_eq_ok_iff.1 hspec
    obtain ⟨hindexable, rfl⟩ := get_orElse_eq_ok_iff.1 houtput
    refine ⟨hmap, (get_orElse_eq_ok_iff.1 hname).1, hindexable,
      (iterate_orElse_iff hashableEntries_nil).1 ⟨fmts, hfmts, ?_⟩⟩
    exact fun f hf ↦ formatEntry_ok_iff.1 (collect_ok_iff.1 ⟨unknown, hunknown⟩ f hf)
  · rintro ⟨hmap, hmetadata, hspec, hformats⟩
    have hget : ∀ key, target.get key = .ok (target.member key) := fun key ↦ get_of_isMap hmap
    have hname : ((target.member "metadata").orElse (.map [])).get "name" =
        .ok ((target.member "metadata").member "name") := get_orElse_eq_ok_iff.2 ⟨hmetadata, rfl⟩
    have hfield : ∀ key, ((target.member "spec").orElse (.map [])).get key =
        .ok ((target.member "spec").member key) := fun key ↦ get_orElse_eq_ok_iff.2 ⟨hspec, rfl⟩
    obtain ⟨missing, hmissing⟩ := (@collect_ok_iff _ requiredFields
      (requiredField ((target.member "spec").orElse (.map [])))).2 fun field _ ↦ by
        rw [requiredField, hfield]
        exact ⟨_, rfl⟩
    obtain ⟨fmts, hfmts, hscalar⟩ := (iterate_orElse_iff hashableEntries_nil).2 hformats
    obtain ⟨unknown, hunknown⟩ := (@collect_ok_iff _ fmts (formatEntry db)).2 fun f hf ↦
      formatEntry_ok_iff.2 (hscalar f hf)
    simp only [fallbackValidate, hget, hname, hfield, hmissing, hfmts, hunknown, ok_bind]
    exact ⟨_, rfl⟩

/-- The reference of a field raises nothing. -/
def Reference (exists_ : PyStr → Except BuiltinError Bool) (d : Document) : Prop :=
  d.truthy = true → ∃ path, d = .str path ∧ ∃ found, exists_ path = .ok found

theorem referenceExists_ok_iff {spec : Document} {field : String} (hspec : Indexable spec) :
    (∃ errs, referenceExists exists_ (spec.orElse (.map [])) field = .ok errs) ↔
      Reference exists_ (spec.member field) := by
  rw [referenceExists, get_orElse_eq_ok_iff.2 ⟨hspec, rfl⟩, ok_bind]
  split
  case isFalse hfalse => exact iff_of_true ⟨_, rfl⟩ fun h ↦ absurd h hfalse
  case isTrue htrue =>
    constructor
    · rintro ⟨errs, h⟩ -
      split at h
      next path heq =>
        obtain ⟨found, hfound, -⟩ := exists_of_bind_eq_ok h
        exact ⟨path, heq, found, hfound⟩
      next => exact absurd h (by simp)
    · intro h
      obtain ⟨path, heq, found, hfound⟩ := h htrue
      simp only [heq, Document.str, hfound, ok_bind]
      exact ⟨_, rfl⟩

/-- **Where the checks across fields raise nothing.** -/
theorem semanticChecks_ok_iff {target : Document} :
    (∃ errs, semanticChecks db exists_ target = .ok errs) ↔
      target.IsMap ∧ Indexable (target.member "spec") ∧
        Loopable ((target.member "spec").member "outputFormats") ∧
        Loopable ((target.member "spec").member "katelloRepos") ∧
        ∀ field ∈ ["flavorRef", "packageManifestRef"],
          Reference exists_ ((target.member "spec").member field) := by
  constructor
  · rintro ⟨errs, h⟩
    obtain ⟨spec, hspec, h⟩ := exists_of_bind_eq_ok h
    obtain ⟨outputFormats, houtput, h⟩ := exists_of_bind_eq_ok h
    obtain ⟨fmts, hfmts, h⟩ := exists_of_bind_eq_ok h
    obtain ⟨keys, hkeys, h⟩ := exists_of_bind_eq_ok h
    obtain ⟨katelloRepos, hkatello, h⟩ := exists_of_bind_eq_ok h
    obtain ⟨repos, hrepos, h⟩ := exists_of_bind_eq_ok h
    obtain ⟨unmatched, hunmatched, h⟩ := exists_of_bind_eq_ok h
    obtain ⟨missing, hmissing, h⟩ := exists_of_bind_eq_ok h
    obtain ⟨hmap, rfl⟩ := get_eq_ok_iff.1 hspec
    obtain ⟨hindexable, rfl⟩ := get_orElse_eq_ok_iff.1 houtput
    obtain ⟨-, rfl⟩ := get_orElse_eq_ok_iff.1 hkatello
    refine ⟨hmap, hindexable, (iterate_orElse_iff hashableEntries_nil).1 ⟨fmts, hfmts, ?_⟩,
      (@iterate_orElse_iff _ (.map []) trivial).1 ⟨repos, hrepos, ?_⟩, fun field hfield ↦ ?_⟩
    · intro f hf
      obtain ⟨key, -, hkey⟩ := exists_of_mapM_eq_ok hkeys f hf
      exact keyOf_ok_iff.1 ⟨key, hkey⟩
    · -- the keys of `katelloRepos` are looked up in the set, so each of them is hashed too
      exact fun f hf ↦ katelloEntry_ok_iff.1 (collect_ok_iff.1 ⟨unmatched, hunmatched⟩ f hf)
    · exact (referenceExists_ok_iff hindexable).1
        (collect_ok_iff.1 ⟨missing, hmissing⟩ field hfield)
  · rintro ⟨hmap, hspec, hformats, hkatello, hrefs⟩
    have hfield : ∀ key, ((target.member "spec").orElse (.map [])).get key =
        .ok ((target.member "spec").member key) := fun key ↦ get_orElse_eq_ok_iff.2 ⟨hspec, rfl⟩
    obtain ⟨fmts, hfmts, hscalar⟩ := (iterate_orElse_iff hashableEntries_nil).2 hformats
    obtain ⟨keys, hkeys⟩ := exists_forall₂ fun f hf ↦ keyOf_ok_iff.2 (hscalar f hf)
    obtain ⟨repos, hrepos, hscalar'⟩ := (@iterate_orElse_iff _ (.map []) trivial).2 hkatello
    obtain ⟨unmatched, hunmatched⟩ := (@collect_ok_iff _ repos (katelloEntry db keys)).2 fun f hf ↦
      katelloEntry_ok_iff.2 (hscalar' f hf)
    obtain ⟨missing, hmissing⟩ := collect_ok_iff.2 fun field hfield ↦
      (referenceExists_ok_iff hspec).2 (hrefs field hfield)
    simp only [semanticChecks, get_of_isMap hmap, hfield, hfmts, mapM_eq_ok_iff.2 hkeys, hrepos,
      hunmatched, hmissing, ok_bind]
    exact ⟨_, rfl⟩

/-! ### What can be linted -/

/-- The errors that `jsonschema` reports can be sorted by their paths. -/
def SortableErrors (jsonschema : JsonSchema) (target : Document) : Prop :=
  ∀ iterErrors errors, jsonschema = some iterErrors → iterErrors target = .ok errors →
    (errors.map SchemaError.path).Pairwise fun p q ↦ pathClash p q = none

/-- **A document that can be linted.** Only the fallback looks into `metadata`, and only
`jsonschema` has errors to sort. -/
structure Lintable (env : BuildEnv) (target : Document) : Prop where
  isMap : target.IsMap
  metadata : env.jsonschema = none → Indexable (target.member "metadata")
  errors : SortableErrors env.jsonschema target
  spec : Indexable (target.member "spec")
  formats : Loopable ((target.member "spec").member "outputFormats")
  repos : Loopable ((target.member "spec").member "katelloRepos")
  refs : ∀ field ∈ ["flavorRef", "packageManifestRef"],
    Reference env.exists_ ((target.member "spec").member field)

/-- `jsonschema` reports errors without raising. -/
def Reports (jsonschema : JsonSchema) : Prop :=
  ∀ iterErrors, jsonschema = some iterErrors → ∀ target, ∃ errors, iterErrors target = .ok errors

/-- Where it is installed, its errors are what may raise, when they are sorted. -/
theorem validateTarget_some_ok_iff {floatValue : PyFloat → FloatValue}
    {iterErrors : Document → Except BuiltinError (List SchemaError)}
    (hreports : Reports (some iterErrors)) {target : Document} :
    (∃ errs, validateTarget db floatValue (some iterErrors) target = .ok errs) ↔
      SortableErrors (some iterErrors) target := by
  obtain ⟨errors, herrors⟩ := hreports iterErrors rfl target
  constructor
  · rintro ⟨errs, h⟩ _ errors' ⟨⟩ herrors'
    obtain rfl := Except.ok.inj (herrors.symm.trans herrors')
    simp only [validateTarget, herrors, ok_bind] at h
    obtain ⟨⟨⟩, hsort, -⟩ := exists_of_bind_eq_ok h
    exact checkSort_eq_ok_iff.1 hsort
  · intro h
    simp only [validateTarget, herrors, ok_bind,
      checkSort_eq_ok_iff.2 (h iterErrors errors rfl herrors)]
    exact ⟨_, rfl⟩

theorem reports_checkSchema : Reports (some checkSchema) := by
  rintro _ ⟨⟩ target
  rw [checkSchema]
  split_ifs
  · exact ⟨_, rfl⟩
  · exact ⟨_, rfl⟩

/-- **Where the checks raise nothing**: exactly on the lintable documents. -/
theorem targetErrors_ok_iff {env : BuildEnv} (hreports : Reports env.jsonschema)
    {target : Document} : (∃ errs, targetErrors env target = .ok errs) ↔ Lintable env target := by
  have hvalidate : (∃ errs, validateTarget env.unicode env.floatValue env.jsonschema target =
        .ok errs) ∧ (∃ errs, semanticChecks env.unicode env.exists_ target = .ok errs) ↔
      Lintable env target := by
    rw [semanticChecks_ok_iff]
    -- what the fallback needs besides `metadata`, the checks across fields need as well
    rcases hjsonschema : env.jsonschema with _ | iterErrors
    · rw [validateTarget, fallbackValidate_ok_iff]
      constructor
      · rintro ⟨⟨-, hmetadata, -⟩, hmap, hspec, hformats, hrepos, hrefs⟩
        refine ⟨hmap, fun _ ↦ hmetadata, ?_, hspec, hformats, hrepos, hrefs⟩
        rw [hjsonschema]
        rintro _ _ ⟨⟩
      · rintro ⟨hmap, hmetadata, -, hspec, hformats, hrepos, hrefs⟩
        exact ⟨⟨hmap, hmetadata hjsonschema, hspec, hformats⟩, hmap, hspec, hformats, hrepos, hrefs⟩
    · rw [hjsonschema] at hreports
      rw [validateTarget_some_ok_iff hreports]
      constructor
      · rintro ⟨herrors, hmap, hspec, hformats, hrepos, hrefs⟩
        refine ⟨hmap, fun h ↦ ?_, hjsonschema ▸ herrors, hspec, hformats, hrepos, hrefs⟩
        exact absurd (hjsonschema.symm.trans h) (by simp)
      · rintro ⟨hmap, -, herrors, hspec, hformats, hrepos, hrefs⟩
        exact ⟨hjsonschema ▸ herrors, hmap, hspec, hformats, hrepos, hrefs⟩
  rw [← hvalidate]
  constructor
  · rintro ⟨errs, h⟩
    obtain ⟨errs, herrs, h⟩ := exists_of_bind_eq_ok h
    obtain ⟨more, hmore, -⟩ := exists_of_bind_eq_ok h
    exact ⟨⟨errs, herrs⟩, more, hmore⟩
  · rintro ⟨⟨errs, herrs⟩, more, hmore⟩
    exact ⟨errs ++ more, by rw [targetErrors, herrs, ok_bind, hmore]; rfl⟩

end

/-! ### What `validate` returns -/

/-- Everything that is required of a target is there. -/
def Complete (target : Document) : Prop :=
  (∃ v, target.getItem "apiVersion" = .ok v) ∧ (∃ v, target.getItem "kind" = .ok v) ∧
    (∃ metadata v, target.getItem "metadata" = .ok metadata ∧ metadata.getItem "name" = .ok v) ∧
    ∃ spec, target.getItem "spec" = .ok spec ∧
      ∀ field ∈ ["flavorRef", "ostreeRef", "packageManifestRef", "architecture", "outputFormats"],
        ∃ v, spec.getItem field = .ok v

theorem complete_of_targetErrors {env : BuildEnv} (hsound : SchemaSound env.jsonschema)
    {target : Document} (h : targetErrors env target = .ok []) : Complete target := by
  obtain ⟨c⟩ := checked_of_validateTarget hsound (targetErrors_eq_nil h).1
  obtain ⟨name, hname⟩ := c.name
  exact ⟨⟨_, c.apiVersion⟩, ⟨_, c.kind⟩, ⟨c.metadata, name, c.getItem_metadata, hname⟩, c.spec,
    c.getItem_spec, fun field hfield ↦ (c.required field hfield).imp fun _ ↦ And.left⟩

/-- **`cmd_validate` returns 0 or 1, and 0 only for a complete target**, if and only if the document
can be linted. -/
theorem validate_total_iff {env : BuildEnv} (hreports : Reports env.jsonschema)
    (hsound : SchemaSound env.jsonschema) (target : Document) :
    (cmdValidate env target = .ok 0 ∨ cmdValidate env target = .ok 1) ∧
        (cmdValidate env target = .ok 0 → Complete target) ↔
      Lintable env target := by
  rw [← targetErrors_ok_iff hreports]
  constructor
  · rintro ⟨h | h, -⟩
    · obtain ⟨errs, herrs, -⟩ := exists_of_bind_eq_ok h
      exact ⟨errs, herrs⟩
    · obtain ⟨errs, herrs, -⟩ := exists_of_bind_eq_ok h
      exact ⟨errs, herrs⟩
  · rintro ⟨errs, herrs⟩
    have hreturns : cmdValidate env target = .ok (if errs = [] then 0 else 1) := by
      rw [cmdValidate, herrs]
      rfl
    rw [hreturns]
    rcases errs with _ | ⟨err, errs⟩
    · exact ⟨Or.inl rfl, fun _ ↦ complete_of_targetErrors hsound herrs⟩
    · exact ⟨Or.inr rfl, fun h ↦ absurd (Except.ok.inj h) (by simp)⟩

/-- A sample target can be linted, and it is complete. -/
theorem validate_total_iff_stable :
    Lintable { sampleEnv with jsonschema := some checkSchema } (targetOfBranch "sourceos/stable") ∧
      Complete (targetOfBranch "sourceos/stable") := by
  have hlintable := (@targetErrors_ok_iff { sampleEnv with jsonschema := some checkSchema }
    reports_checkSchema (targetOfBranch "sourceos/stable")).1 ⟨[], by decide +kernel⟩
  refine ⟨hlintable, ((@validate_total_iff { sampleEnv with jsonschema := some checkSchema }
    reports_checkSchema schemaSound_checkSchema (targetOfBranch "sourceos/stable")).2
      hlintable).2 ?_⟩
  decide +kernel

/-- **A list is not answered**: an exception is raised, with either validator. -/
theorem list_not_linted :
    cmdValidate { sampleEnv with jsonschema := none } (.seq []) =
        .error ⟨"AttributeError".toList, "'list' object has no attribute 'get'".toList⟩ ∧
      cmdValidate { sampleEnv with jsonschema := some checkSchema } (.seq []) =
        .error ⟨"AttributeError".toList, "'list' object has no attribute 'get'".toList⟩ := by
  decide +kernel

end SourceOS.Cosa
