import Mathlib.Data.List.Infix
import SourceOS.Foundation.Decides
import SourceOS.Foundation.Document

/-!
# The check of a capability package

`caps/semantic-search-bi/tools/validate_package.py`: a script that goes through the files of a
package and exits with 2 at the first thing it does not like. It runs with and without PyYAML: where
that is missing, a YAML file is only checked for being there and not blank, and the contents of
`capability.yaml` are not looked at.

* `main` is the script, on what it reads from the package (`PackageEnv`); the lines it prints are
  the state, `sys.exit` and built-in exceptions are what it raises. Everything it asks the operating
  system may raise, printing a line included.
* `Valid` says what a package must be, without the order of the checks, the defaults of `get` and
  the handlers.
* `package_verdict` is the result: the script exits with 0 for the valid packages whose report can
  be printed, and with 2 for the others. It crashes only if one of the schemas is a value that
  nothing can be `in`, or if the operating system refuses something outside the handlers. What is
  valid with PyYAML is valid without it.
-/

namespace SourceOS

namespace Document

/-- `d.get(key, default)`. -/
def getOr (d : Document) (key : String) (default : Document) : Except BuiltinError Document :=
  match d with
  | .map ms => .ok ((ms.lookup (.lit key)).getD default)
  | d => d.get key

/-- `d == s`. -/
def isStr (d : Document) (s : String) : Bool :=
  match d with
  | .scalar (.str t) => decide (t = PyStr.lit s)
  | _ => false

/-- `d is True`. -/
def isTrue : Document → Bool
  | .scalar (.bool b) => b
  | _ => false

/-- `key in d`. -/
def contains (d : Document) (key : String) : Except BuiltinError Bool :=
  match d with
  | .map ms => .ok (decide (.lit key ∈ ms.map Prod.fst))
  | .seq xs => .ok (xs.any fun x ↦ x.isStr key)
  | .scalar (.str s) => .ok (decide (PyStr.lit key <:+: s))
  | d => .error (typeError ("argument of type '".toList ++ d.typeName.toList ++
      "' is not iterable".toList))

theorem isStr_iff {d : Document} {s : String} : d.isStr s = true ↔ d = .lit s := by
  constructor
  · intro h
    rcases d with (_ | _ | _ | _ | t | _) | _ | _
    case scalar.str => exact congrArg Document.str (of_decide_eq_true h)
    all_goals cases h
  · rintro rfl
    exact decide_eq_true rfl

/-- A member that has members itself is there: neither of the two defaults is one. -/
theorem getOr_orElse_iff {d v w : Document} {key k : String} (hw : v.getItem k = .ok w) :
    (d.orElse (.map [])).getOr key (.map []) = .ok v ↔ d.getItem key = .ok v := by
  have hv : v ≠ .map [] := by
    rintro rfl
    exact absurd hw (by simp [getItem])
  constructor
  · intro h
    have hd : d.orElse (.map []) = d := by
      rw [orElse]
      split
      case isTrue => rfl
      case isFalse hfalse =>
        rw [orElse, if_neg hfalse] at h
        exact absurd (Except.ok.inj h).symm hv
    rw [hd] at h
    rcases d with s | xs | ms
    · exact absurd h (by simp [getOr, get])
    · exact absurd h (by simp [getOr, get])
    · rcases hl : ms.lookup (.lit key) with _ | u
      · rw [getOr, hl] at h
        exact absurd (Except.ok.inj h).symm hv
      · rw [getOr, hl] at h
        rw [getItem, hl]
        exact h
  · intro h
    rw [orElse_of_truthy (truthy_of_getItem h)]
    obtain ⟨ms, rfl, hl⟩ := exists_lookup_of_getItem h
    rw [getOr, hl]
    rfl

theorem isTrue_iff {d : Document} : d.isTrue = true ↔ d = .scalar (.bool true) := by
  constructor
  · intro h
    rcases d with (_ | b | _ | _ | _ | _) | _ | _
    case scalar.bool => rw [show b = true from h]
    all_goals cases h
  · rintro rfl
    rfl

end Document

namespace Caps

open Document Effect Text

/-! ### The script -/

/-- What ends the script early: `sys.exit`, after a message, or an exception. -/
inductive Raised
  | exit (code : ℕ) (message : Str)
  | error (e : BuiltinError)

/-- `except Exception`. `SystemExit` is none. -/
def Raised.caught : Raised → Option BuiltinError
  | .error e => some e
  | .exit .. => none

/-- The exit status of the interpreter. -/
def exitStatus : Except Raised Unit → ℕ
  | .ok _ => 0
  | .error (.exit code _) => code
  | .error (.error _) => 1

/-- What the script reads. A path is one below the package. -/
structure PackageEnv where
  /-- The path of the package, with the slash after it. -/
  pkg : Str
  /-- `Path.is_dir`. -/
  isDir : Str → Except BuiltinError Bool
  /-- `Path.exists`. -/
  exists_ : Str → Except BuiltinError Bool
  /-- `Path.read_text`. -/
  readText : Str → Except BuiltinError Str
  /-- `yaml.safe_load`, if PyYAML is installed. -/
  yaml : Option (Str → Except BuiltinError Document)
  /-- `json.loads`. -/
  json : Str → Except BuiltinError Document
  /-- The names in `schemas` that match `*.schema.json`, in the order of the directory. -/
  schemas : Except BuiltinError (List Str)
  /-- What printing a line to standard output raises. -/
  stdout : Str → Option BuiltinError
  /-- What printing a line to standard error raises. -/
  stderr : Str → Option BuiltinError

/-- A part of the script. Its state are the lines that it has printed. -/
abbrev Check := Effect Raised (List Str)

/-- `ok`. -/
def ok (env : PackageEnv) (msg : Str) : Check Unit := fun lines ↦
  match env.stdout ("OK: ".toList ++ msg) with
  | some e => (.error (.error e), lines)
  | none => (.ok (), lines ++ ["OK: ".toList ++ msg])

/-- `fail`. -/
def fail {α : Type} (env : PackageEnv) (msg : Str) : Check α :=
  match env.stderr ("ERR: ".toList ++ msg) with
  | some e => raise (.error e)
  | none => raise (.exit 2 ("ERR: ".toList ++ msg))

/-- `if c: fail(msg)`. -/
def failIf (env : PackageEnv) (c : Bool) (msg : Str) : Check Unit :=
  if c then fail env msg else pure ()

/-- A call that may raise a built-in exception. -/
def call {α : Type} (r : Except BuiltinError α) : Check α :=
  ofExcept (r.mapError .error)

/-- `try: … except Exception as e: fail(what + str(e))`. -/
def orFail {α : Type} (env : PackageEnv) (x : Check α) (what : Str) : Check α :=
  catching Raised.caught x fun e ↦ fail env (what ++ ": ".toList ++ e.msg)

/-- `read_text`. -/
def readText (env : PackageEnv) (p : Str) : Check Str :=
  orFail env (call (env.readText p)) ("unable to read ".toList ++ (env.pkg ++ p))

/-- `try_parse_yaml`. -/
def tryParseYaml (env : PackageEnv) (p : Str) : Check Unit := do
  let text ← readText env p
  failIf env (strip text).isEmpty (env.pkg ++ p ++ " is empty".toList)
  match env.yaml with
  | none =>
    ok env ("yaml present (PyYAML not installed; parse skipped): ".toList ++ (env.pkg ++ p))
  | some load =>
    orFail env (do
      let _ ← call (load (strip text))
      ok env ("yaml parses: ".toList ++ (env.pkg ++ p)))
      ("yaml parse failed for ".toList ++ (env.pkg ++ p))

/-- A YAML file that must be there. -/
def requireYaml (env : PackageEnv) (p : Str) : Check Unit := do
  let there ← call (env.exists_ p)
  failIf env (!there) ("missing ".toList ++ p)
  tryParseYaml env p

/-- `"$schema" not in obj or "type" not in obj`. -/
def lacksKeys (obj : Document) : Except BuiltinError Bool := do
  let hasSchema ← obj.contains "$schema"
  if !hasSchema then return true
  let hasType ← obj.contains "type"
  return !hasType

/-- `json.loads(read_text(p))`, without the handlers. -/
def loadJson (env : PackageEnv) (p : Str) : Except BuiltinError Document := do
  let text ← env.readText p
  env.json text

/-- `parse_json_schema`. -/
def parseJsonSchema (env : PackageEnv) (p : Str) : Check Unit := do
  let obj ← orFail env (do
    let text ← readText env p
    call (env.json text))
    ("json parse failed for ".toList ++ (env.pkg ++ p))
  let lacking ← call (lacksKeys obj)
  failIf env lacking (env.pkg ++ p ++
    " does not look like a JSON Schema (missing $schema/type)".toList)
  ok env ("json schema parses: ".toList ++ (env.pkg ++ p))

/-- The directories that must be there. -/
def requiredDirs : List String :=
  ["capd", "docs", "rpc", "schemas", "tools", "topics"]

/-- The file with the capability. -/
def capd : Str :=
  "capd/capability.yaml".toList

/-- What the capability must require. -/
def requiredFlags : List String :=
  ["trirpc_bus", "policy_guard", "evidence_emission"]

/-- `if not capinfo.get("name") or not capinfo.get("version")`. -/
def lacksName (capinfo : Document) : Except BuiltinError Bool := do
  let name ← capinfo.get "name"
  if !name.truthy then return true
  let version ← capinfo.get "version"
  return !version.truthy

/-- The checks of the capability, if there is a loader. -/
def checkCapability (env : PackageEnv) (load : Str → Except BuiltinError Document) :
    Check Unit :=
  orFail env (do
    let text ← readText env capd
    let cap ← call (load text)
    let capinfo ← call ((cap.orElse (.map [])).getOr "capability" (.map []))
    let kind ← call (capinfo.get "kind")
    failIf env (!kind.isStr "contract-only") "capability.kind must be 'contract-only'".toList
    let lacking ← call (lacksName capinfo)
    failIf env lacking "capability.name and capability.version are required".toList
    let req ← call ((cap.orElse (.map [])).getOr "requires" (.map []))
    each (fun k ↦ do
      let v ← call (req.get k)
      failIf env (!v.isTrue) ("requires.".toList ++ k.toList ++ " must be true".toList))
      requiredFlags
    ok env "capd semantics validated".toList)
    "capd semantic validation failed".toList

/-- The checks of the capability, or what stands in for them. -/
def capabilityChecks (env : PackageEnv) : Check Unit :=
  match env.yaml with
  | none => ok env "capd semantic validation skipped (PyYAML not installed)".toList
  | some load => checkCapability env load

/-- `main`. -/
def main (env : PackageEnv) : Check Unit := do
  each (fun d ↦ do
    let there ← call (env.isDir d.toList)
    failIf env (!there) ("missing dir: ".toList ++ d.toList)) requiredDirs
  ok env "package structure looks sane".toList
  requireYaml env capd
  capabilityChecks env
  requireYaml env "rpc/semantic.search.v0.yaml".toList
  requireYaml env "topics/semantic.search.topics.v0.yaml".toList
  let names ← call env.schemas
  failIf env names.isEmpty "no schemas/*.schema.json found".toList
  each (fun name ↦ parseJsonSchema env ("schemas/".toList ++ name))
    (names.insertionSort (· ≤ ·))
  ok env "capability package validates".toList

/-- The exit status of a run of the script. -/
def status (env : PackageEnv) : ℕ :=
  exitStatus ((main env).run []).1

/-! ### What a package must be -/

/-- A file that is there and can be read, is not blank, and parses if there is a loader. -/
def YamlFile (env : PackageEnv) (p : Str) : Prop :=
  env.exists_ p = .ok true ∧ ∃ text, env.readText p = .ok text ∧ isBlank text = false ∧
    ∀ load, env.yaml = some load → ∃ d, load (strip text) = .ok d

/-- The capability is a contract and nothing else, it has a name and a version, and it requires what
it must. -/
structure ContractOnly (cap : Document) : Prop where
  capability : ∃ capinfo, cap.getItem "capability" = .ok capinfo ∧
    capinfo.getItem "kind" = .ok (.lit "contract-only") ∧
    ∀ k ∈ ["name", "version"], ∃ v, capinfo.getItem k = .ok v ∧ v.truthy = true
  requires : ∃ req, cap.getItem "requires" = .ok req ∧
    ∀ k ∈ requiredFlags, req.getItem k = .ok (.scalar (.bool true))

/-- A file with both of the keys in it. -/
def SchemaFile (env : PackageEnv) (p : Str) : Prop :=
  ∃ obj, loadJson env p = .ok obj ∧ obj.contains "$schema" = .ok true ∧
    obj.contains "type" = .ok true

/-- A package that is in order. -/
structure Valid (env : PackageEnv) : Prop where
  dirs : ∀ d ∈ requiredDirs, env.isDir d.toList = .ok true
  yamlFiles : ∀ p ∈ ["capd/capability.yaml", "rpc/semantic.search.v0.yaml",
    "topics/semantic.search.topics.v0.yaml"], YamlFile env p.toList
  contract : ∀ load, env.yaml = some load → ∃ text cap, env.readText capd = .ok text ∧
    load text = .ok cap ∧ ContractOnly cap
  schemas : ∃ names, env.schemas = .ok names ∧ names ≠ [] ∧
    ∀ name ∈ names, SchemaFile env ("schemas/".toList ++ name)

/-- A value that nothing can be `in`. -/
def NoContainer : Document → Prop
  | .scalar (.str _) => False
  | .scalar _ => True
  | _ => False

/-! ### What is reported of it -/

/-- What is printed for a YAML file. -/
def yamlReport (env : PackageEnv) (p : Str) : Str :=
  match env.yaml with
  | none => "yaml present (PyYAML not installed; parse skipped): ".toList ++ (env.pkg ++ p)
  | some _ => "yaml parses: ".toList ++ (env.pkg ++ p)

/-- What is printed for the capability. -/
def capabilityReport (env : PackageEnv) : Str :=
  match env.yaml with
  | none => "capd semantic validation skipped (PyYAML not installed)".toList
  | some _ => "capd semantics validated".toList

/-- What is printed for a package that is in order, with these schemas. -/
def reports (env : PackageEnv) (names : List Str) : List Str :=
  ["package structure looks sane".toList, yamlReport env capd, capabilityReport env,
    yamlReport env "rpc/semantic.search.v0.yaml".toList,
    yamlReport env "topics/semantic.search.topics.v0.yaml".toList,
    "capability package validates".toList] ++
    names.map fun name ↦ "json schema parses: ".toList ++ (env.pkg ++ ("schemas/".toList ++ name))

/-- Standard output takes the message. -/
def Takes (env : PackageEnv) (msg : Str) : Prop :=
  env.stdout ("OK: ".toList ++ msg) = none

/-- Standard output takes the report on a package that is in order. -/
def Reported (env : PackageEnv) : Prop :=
  ∀ names, env.schemas = .ok names → ∀ msg ∈ reports env names, Takes env msg

/-- The operating system does not say whether a path is there or what the schemas are, or it does
not take a line. -/
def Refuses (env : PackageEnv) : Prop :=
  (∃ p e, env.isDir p = .error e ∨ env.exists_ p = .error e) ∨ (∃ e, env.schemas = .error e) ∨
    ∃ line e, env.stdout line = some e ∨ env.stderr line = some e

/-! ### What each check decides -/

/-- `fail` was called, or something was refused outside the handlers. -/
def Failed (env : PackageEnv) (r : Raised) : Prop :=
  (∃ message, r = .exit 2 message) ∨ (∃ e, r = .error e) ∧ Refuses env

/-- `fail` was called, or there was an exception. -/
def Ended (r : Raised) : Prop :=
  (∃ message, r = .exit 2 message) ∨ ∃ e, r = .error e

section

variable (env : PackageEnv)

theorem decides_ok (msg : Str) : Decides (Failed env) (Takes env msg) (ok env msg) := by
  intro s
  rcases hout : env.stdout ("OK: ".toList ++ msg) with _ | e
  · have hrun : (ok env msg).run s = (.ok (), s ++ ["OK: ".toList ++ msg]) := by
      show (match env.stdout ("OK: ".toList ++ msg) with | some e => _ | none => _) = _
      rw [hout]
    exact Or.inl ⟨hout, _, _, hrun⟩
  · have hrun : (ok env msg).run s = (.error (.error e), s) := by
      show (match env.stdout ("OK: ".toList ++ msg) with | some e => _ | none => _) = _
      rw [hout]
    refine Or.inr ⟨fun htakes ↦ ?_, _, _,
      Or.inr ⟨⟨e, rfl⟩, Or.inr (Or.inr ⟨_, e, Or.inl hout⟩)⟩, hrun⟩
    rw [Takes, hout] at htakes
    exact nomatch htakes

theorem decides_fail {α : Type} (msg : Str) :
    Decides (Failed env) False (fail env msg : Check α) := by
  rw [fail]
  split
  · rename_i e herr
    exact decides_raise (Or.inr ⟨⟨e, rfl⟩, Or.inr (Or.inr ⟨_, e, Or.inr herr⟩)⟩)
  · exact decides_raise (Or.inl ⟨_, rfl⟩)

theorem decides_failIf (c : Bool) (msg : Str) :
    Decides (Failed env) (c = false) (failIf env c msg) := by
  cases c with
  | true => exact (decides_fail env msg).congr (by simp)
  | false => exact (decides_pure ()).congr (by simp)

variable {env}

theorem Failed.ended {r : Raised} (h : Failed env r) : Ended r :=
  h.imp_right And.left

/-- What `except Exception` lets through is a call of `fail`. -/
theorem failed_of_caught {r : Raised} (h : Ended r) (hr : r.caught = none) : Failed env r := by
  rcases h with h | ⟨e, rfl⟩
  · exact Or.inl h
  · cases hr

/-- **A handler that fails** leaves what is decided as it is. -/
theorem decides_orFail {α : Type} {P : Prop} {x : Check α} (h : Decides Ended P x) (what : Str) :
    Decides (Failed env) P (orFail env x what) :=
  h.catching (fun _ ↦ failed_of_caught) fun _ ↦ decides_fail env _

theorem yields_orFail {α : Type} {r : Except BuiltinError α} {x : Check α} (h : Yields Ended r x)
    (what : Str) : Yields (Failed env) r (orFail env x what) :=
  h.catching (fun _ ↦ failed_of_caught) fun _ ↦ decides_fail env _

theorem yields_call {α : Type} (r : Except BuiltinError α) : Yields Ended r (call r) :=
  @yields_ofExcept _ _ _ Ended _ Raised.error (fun e ↦ Or.inr ⟨e, rfl⟩) r

/-- A question that the operating system may refuse to answer. -/
theorem yields_question {α : Type} {r : Except BuiltinError α}
    (h : ∀ e, r = .error e → Refuses env) : Yields (Failed env) r (call r) := by
  intro s
  rcases r with e | a
  · exact Or.inr ⟨e, .error e, s, rfl, Or.inr ⟨⟨e, rfl⟩, h e rfl⟩, rfl⟩
  · exact Or.inl ⟨a, rfl, rfl⟩

variable (env)

theorem yields_readText (p : Str) : Yields (Failed env) (env.readText p) (readText env p) :=
  yields_orFail (yields_call _) _

/-- A path that must be there, as the two kinds of question have it. -/
theorem decides_there {r : Except BuiltinError Bool} (h : ∀ e, r = .error e → Refuses env)
    (msg : Str) : Decides (Failed env) (r = .ok true) (do
      let there ← call r
      failIf env (!there) msg) := by
  refine ((yields_question h).decides_bind fun there _ ↦ decides_failIf env (!there) msg).congr ?_
  constructor
  · rintro ⟨there, hr, hthere⟩
    rw [hr, show there = true by simpa using hthere]
  · exact fun hr ↦ ⟨true, hr, rfl⟩

theorem decides_tryParseYaml (p : Str) :
    Decides (Failed env) ((∃ text, env.readText p = .ok text ∧ isBlank text = false ∧
      ∀ load, env.yaml = some load → ∃ d, load (strip text) = .ok d) ∧ Takes env (yamlReport env p))
      (tryParseYaml env p) := by
  have hblank : ∀ text, (strip text).isEmpty = false ↔ isBlank text = false := by
    intro text
    rw [← Bool.not_eq_true, ← Bool.not_eq_true, List.isEmpty_iff, strip_eq_nil_iff]
  refine ((yields_readText env p).decides_bind (Q := fun text ↦ isBlank text = false ∧
    (∀ load, env.yaml = some load → ∃ d, load (strip text) = .ok d) ∧
      Takes env (yamlReport env p)) fun text _ ↦ ?_).congr
    ⟨fun ⟨text, hread, hne, hloads, htakes⟩ ↦ ⟨⟨text, hread, hne, hloads⟩, htakes⟩,
      fun ⟨⟨text, hread, hne, hloads⟩, htakes⟩ ↦ ⟨text, hread, hne, hloads, htakes⟩⟩
  refine ((decides_failIf env _ _).seq (Q := (∀ load, env.yaml = some load →
    ∃ d, load (strip text) = .ok d) ∧ Takes env (yamlReport env p)) fun _ _ ↦ ?_).congr
      (and_congr_left' (hblank text))
  rw [yamlReport]
  rcases env.yaml with _ | load
  · exact (decides_ok env _).congr (by simp)
  · refine (decides_orFail ((yields_call _).decides_bind fun _ _ ↦
      (decides_ok env _).imp Iff.rfl fun _ ↦ Failed.ended) _).congr ?_
    simp

theorem decides_requireYaml (p : Str) :
    Decides (Failed env) (YamlFile env p ∧ Takes env (yamlReport env p)) (requireYaml env p) := by
  refine ((yields_question fun e he ↦ Or.inl ⟨p, e, Or.inr he⟩).decides_bind fun there _ ↦
    (decides_failIf env _ _).seq fun _ _ ↦ decides_tryParseYaml env p).congr ?_
  constructor
  · rintro ⟨there, hexists, hthere, hfile, htakes⟩
    rw [show there = true by simpa using hthere] at hexists
    exact ⟨⟨hexists, hfile⟩, htakes⟩
  · rintro ⟨⟨hexists, hfile⟩, htakes⟩
    exact ⟨true, hexists, rfl, hfile, htakes⟩

end

/-- What a check of the name and the version finds. -/
theorem lacksName_eq_false_iff {capinfo : Document} : lacksName capinfo = .ok false ↔
    ∀ k ∈ ["name", "version"], ∃ v, capinfo.getItem k = .ok v ∧ v.truthy = true := by
  have hmember : ∀ {k : String} {v : Document}, v.truthy = true →
      (capinfo.get k = .ok v ↔ capinfo.getItem k = .ok v) := fun hv ↦
    ⟨fun h ↦ getItem_of_get h (ne_null_of_truthy hv), get_of_getItem⟩
  rw [List.forall_mem_cons, List.forall_mem_singleton]
  constructor
  · intro h
    obtain ⟨name, hname, h⟩ := exists_of_bind_eq_ok h
    split at h
    case isTrue => exact absurd (Except.ok.inj h) (by simp)
    case isFalse htruthy =>
      have htruthy : name.truthy = true := by simpa using htruthy
      obtain ⟨version, hversion, h⟩ := exists_of_bind_eq_ok h
      have hv : version.truthy = true := by simpa using Except.ok.inj h
      exact ⟨⟨name, (hmember htruthy).1 hname, htruthy⟩, version, (hmember hv).1 hversion, hv⟩
  · rintro ⟨⟨name, hname, htruthy⟩, version, hversion, hv⟩
    rw [lacksName, get_of_getItem hname, ok_bind, htruthy, if_neg (by simp),
      get_of_getItem hversion, ok_bind, hv]
    rfl

/-- What is looked up of a capability, with the defaults of the source. -/
theorem contractOnly_iff {cap : Document} : ContractOnly cap ↔
    ∃ capinfo, (cap.orElse (.map [])).getOr "capability" (.map []) = .ok capinfo ∧
      ∃ kind, capinfo.get "kind" = .ok kind ∧ kind.isStr "contract-only" = true ∧
        lacksName capinfo = .ok false ∧
        ∃ req, (cap.orElse (.map [])).getOr "requires" (.map []) = .ok req ∧
          ∀ k ∈ requiredFlags, ∃ v, req.get k = .ok v ∧ v.isTrue = true := by
  constructor
  · rintro ⟨⟨capinfo, hcapinfo, hkind, hname⟩, req, hreq, hflags⟩
    exact ⟨capinfo, (getOr_orElse_iff hkind).2 hcapinfo, _, get_of_getItem hkind, isStr_iff.2 rfl,
      lacksName_eq_false_iff.2 hname, req,
      (getOr_orElse_iff (hflags "trirpc_bus" List.mem_cons_self)).2 hreq,
      fun k hk ↦ ⟨_, get_of_getItem (hflags k hk), rfl⟩⟩
  · rintro ⟨capinfo, hcapinfo, kind, hkind, hstr, hname, req, hreq, hflags⟩
    obtain rfl := isStr_iff.1 hstr
    have hkind := getItem_of_get hkind nofun
    have hflags : ∀ k ∈ requiredFlags, req.getItem k = .ok (.scalar (.bool true)) := by
      intro k hk
      obtain ⟨v, hv, htrue⟩ := hflags k hk
      rw [← isTrue_iff.1 htrue]
      exact getItem_of_get hv (by rw [isTrue_iff.1 htrue]; nofun)
    exact ⟨⟨capinfo, (getOr_orElse_iff hkind).1 hcapinfo, hkind, lacksName_eq_false_iff.1 hname⟩,
      req, (getOr_orElse_iff (hflags "trirpc_bus" List.mem_cons_self)).1 hreq, hflags⟩

theorem decides_checkCapability (env : PackageEnv) (load : Str → Except BuiltinError Document) :
    Decides (Failed env) ((∃ text cap, env.readText capd = .ok text ∧ load text = .ok cap ∧
      ContractOnly cap) ∧ Takes env "capd semantics validated".toList)
      (checkCapability env load) := by
  have hended : ∀ r, Failed env r → Ended r := fun _ ↦ Failed.ended
  have hfailIf : ∀ c msg, Decides Ended (c = false) (failIf env c msg) := fun c msg ↦
    (decides_failIf env c msg).imp Iff.rfl hended
  refine (decides_orFail (((yields_readText env capd).mono hended).decides_bind fun text _ ↦
    (yields_call (load text)).decides_bind fun cap _ ↦
    (yields_call _).decides_bind fun capinfo _ ↦
    (yields_call _).decides_bind fun kind _ ↦ (hfailIf _ _).seq fun _ _ ↦
    (yields_call _).decides_bind fun lacking _ ↦ (hfailIf _ _).seq fun _ _ ↦
    (yields_call _).decides_bind fun req _ ↦
    (Decides.each fun k _ ↦ (yields_call _).decides_bind fun v _ ↦ hfailIf _ _).seq fun _ _ ↦
    (decides_ok env _).imp Iff.rfl hended) _).congr ?_
  have hlacking : ∀ (r : Except BuiltinError Bool) (P : Prop),
      (∃ b, r = .ok b ∧ b = false ∧ P) ↔ r = .ok false ∧ P := fun r P ↦
    ⟨fun ⟨_, hr, hb, hP⟩ ↦ ⟨hb ▸ hr, hP⟩, fun ⟨hr, hP⟩ ↦ ⟨false, hr, rfl, hP⟩⟩
  simp only [contractOnly_iff, hlacking, Bool.not_eq_false', exists_and_left]
  simp only [← exists_and_right, and_assoc]

theorem lacksKeys_eq_false_iff {obj : Document} : lacksKeys obj = .ok false ↔
    obj.contains "$schema" = .ok true ∧ obj.contains "type" = .ok true := by
  constructor
  · intro h
    obtain ⟨hasSchema, hschema, h⟩ := exists_of_bind_eq_ok h
    cases hasSchema with
    | false => exact absurd (Except.ok.inj h) (by simp)
    | true =>
      obtain ⟨hasType, htype, h⟩ := exists_of_bind_eq_ok h
      refine ⟨hschema, ?_⟩
      rw [htype, show hasType = true by simpa using Except.ok.inj h]
  · rintro ⟨hschema, htype⟩
    rw [lacksKeys, hschema, ok_bind, if_neg (by decide), htype]
    rfl

/-- Looking for the keys raises only where nothing can be `in`. -/
theorem exists_lacksKeys {obj : Document} (h : ¬ NoContainer obj) :
    ∃ b, lacksKeys obj = .ok b := by
  have hcontains : ∀ key, ∃ b, obj.contains key = .ok b := by
    intro key
    rcases obj with (_ | _ | _ | _ | s | _) | xs | ms
    case scalar.str => exact ⟨_, rfl⟩
    case seq => exact ⟨_, rfl⟩
    case map => exact ⟨_, rfl⟩
    all_goals exact absurd trivial h
  obtain ⟨hasSchema, hschema⟩ := hcontains "$schema"
  obtain ⟨hasType, htype⟩ := hcontains "type"
  rw [lacksKeys, hschema, ok_bind]
  cases hasSchema with
  | false => exact ⟨true, rfl⟩
  | true => exact ⟨!hasType, by rw [if_neg (by decide), htype]; rfl⟩

/-- The script has crashed on a schema. -/
def Crashed (env : PackageEnv) (p : Str) (r : Raised) : Prop :=
  (∃ e, r = .error e) ∧ ∃ obj, loadJson env p = .ok obj ∧ NoContainer obj

theorem decides_parseJsonSchema (env : PackageEnv) (p : Str) :
    Decides (fun r ↦ Failed env r ∨ Crashed env p r)
      (SchemaFile env p ∧ Takes env ("json schema parses: ".toList ++ (env.pkg ++ p)))
      (parseJsonSchema env p) := by
  have hload : Yields (Failed env) (loadJson env p) (orFail env (do
      let text ← readText env p
      call (env.json text)) ("json parse failed for ".toList ++ (env.pkg ++ p))) :=
    yields_orFail (((yields_readText env p).mono fun _ ↦ Failed.ended).bind
      fun text _ ↦ yields_call (env.json text)) _
  refine ((hload.mono fun _ ↦ Or.inl).decides_bind (Q := fun obj ↦
    lacksKeys obj = .ok false ∧ Takes env ("json schema parses: ".toList ++ (env.pkg ++ p)))
    fun obj hobj ↦ ?_).congr ?_
  · have hkeys : Yields (fun r ↦ Failed env r ∨ Crashed env p r) (lacksKeys obj)
        (call (lacksKeys obj)) := by
      by_cases hcontainer : NoContainer obj
      · exact (yields_call _).mono fun r hr ↦
          hr.imp Or.inl fun he ↦ ⟨he, obj, hobj, hcontainer⟩
      · obtain ⟨b, hb⟩ := exists_lacksKeys hcontainer
        rw [hb]
        exact fun s ↦ Or.inl ⟨b, rfl, rfl⟩
    refine (hkeys.decides_bind fun lacking _ ↦ ((decides_failIf env lacking _).seq fun _ _ ↦
      decides_ok env _).imp Iff.rfl fun _ ↦ Or.inl).congr ?_
    exact ⟨fun ⟨b, hr, hb, htakes⟩ ↦ ⟨hb ▸ hr, htakes⟩,
      fun ⟨hr, htakes⟩ ↦ ⟨false, hr, rfl, htakes⟩⟩
  · simp only [lacksKeys_eq_false_iff, SchemaFile, exists_and_right, ← and_assoc]

/-! ### The verdict -/

/-- What ends the script early: it fails, or it crashes on one of the schemas. -/
def Stopped (env : PackageEnv) (r : Raised) : Prop :=
  Failed env r ∨ ∃ names, env.schemas = .ok names ∧
    ∃ name ∈ names, Crashed env ("schemas/".toList ++ name) r

/-- **The script decides whether the package is valid** and can be reported. -/
theorem decides_main (env : PackageEnv) :
    Decides (Stopped env) (Valid env ∧ Reported env) (main env) := by
  have hfailed : ∀ {P : Prop} {x : Check Unit}, Decides (Failed env) P x →
      Decides (Stopped env) P x := fun h ↦ h.imp Iff.rfl fun _ ↦ Or.inl
  have hcapability : Decides (Failed env) ((∀ load, env.yaml = some load → ∃ text cap,
      env.readText capd = .ok text ∧ load text = .ok cap ∧ ContractOnly cap) ∧
        Takes env (capabilityReport env)) (capabilityChecks env) := by
    rw [capabilityChecks, capabilityReport]
    rcases env.yaml with _ | load
    · exact (decides_ok env _).congr (by simp)
    · exact (decides_checkCapability env load).congr (by simp)
  have hschemas : ∀ names, env.schemas = .ok names → Decides (Stopped env)
      (∀ name ∈ names, SchemaFile env ("schemas/".toList ++ name) ∧ Takes env
        ("json schema parses: ".toList ++ (env.pkg ++ ("schemas/".toList ++ name))))
      (each (fun name ↦ parseJsonSchema env ("schemas/".toList ++ name))
        (names.insertionSort (· ≤ ·))) := by
    intro names hnames
    refine (Decides.each fun name hname ↦ (decides_parseJsonSchema env _).imp Iff.rfl
      fun r hr ↦ hr.imp_right fun hcrash ↦ ⟨names, hnames, name,
        (List.mem_insertionSort _).1 hname, hcrash⟩).congr ?_
    simp only [List.mem_insertionSort]
  refine ((hfailed (Decides.each fun d _ ↦ decides_there env
      (fun e he ↦ Or.inl ⟨d.toList, e, Or.inl he⟩) _)).seq fun _ _ ↦
    (hfailed (decides_ok env _)).seq fun _ _ ↦
    (hfailed (decides_requireYaml env capd)).seq fun _ _ ↦
    (hfailed hcapability).seq fun _ _ ↦
    (hfailed (decides_requireYaml env _)).seq fun _ _ ↦
    (hfailed (decides_requireYaml env _)).seq fun _ _ ↦
    ((yields_question fun e he ↦ Or.inr (Or.inl ⟨e, he⟩)).mono fun _ ↦ Or.inl).decides_bind
      fun names hnames ↦ (hfailed (decides_failIf env _ _)).seq fun _ _ ↦
    (hschemas names hnames).seq fun _ _ ↦ hfailed (decides_ok env _)).congr ?_
  constructor
  · rintro ⟨hdirs, htake, ⟨hcapd, htake₁⟩, ⟨hcontract, htake₂⟩, ⟨hrpc, htake₃⟩, ⟨htopics, htake₄⟩,
      names, hnames, hnonempty, hfiles, htake₅⟩
    refine ⟨⟨hdirs, ?_, hcontract, names, hnames, by simpa using hnonempty,
      fun name hname ↦ (hfiles name hname).1⟩, ?_⟩
    · rw [List.forall_mem_cons, List.forall_mem_cons, List.forall_mem_singleton]
      exact ⟨hcapd, hrpc, htopics⟩
    · intro names' hnames'
      obtain rfl := Except.ok.inj (hnames.symm.trans hnames')
      rw [reports, List.forall_mem_append, List.forall_mem_map]
      refine ⟨?_, fun name hname ↦ (hfiles name hname).2⟩
      simp only [List.forall_mem_cons]
      exact ⟨htake, htake₁, htake₂, htake₃, htake₄, htake₅, nofun⟩
  · rintro ⟨⟨hdirs, hyaml, hcontract, names, hnames, hnonempty, hfiles⟩, hreported⟩
    rw [List.forall_mem_cons, List.forall_mem_cons, List.forall_mem_singleton] at hyaml
    have htakes := hreported names hnames
    rw [reports, List.forall_mem_append, List.forall_mem_map] at htakes
    simp only [List.forall_mem_cons] at htakes
    obtain ⟨⟨htake, htake₁, htake₂, htake₃, htake₄, htake₅, -⟩, hschema⟩ := htakes
    exact ⟨hdirs, htake, ⟨hyaml.1, htake₁⟩, ⟨hcontract, htake₂⟩, ⟨hyaml.2.1, htake₃⟩,
      ⟨hyaml.2.2, htake₄⟩, names, hnames, by simpa using hnonempty,
      fun name hname ↦ ⟨hfiles name hname, hschema name hname⟩, htake₅⟩

/-- A package that is valid with PyYAML is valid without it. -/
theorem Valid.without_yaml {env : PackageEnv} (h : Valid env) :
    Valid { env with yaml := none } where
  dirs := h.dirs
  yamlFiles p hp := by
    obtain ⟨hexists, text, htext, hblank, -⟩ := h.yamlFiles p hp
    exact ⟨hexists, text, htext, hblank, nofun⟩
  contract := nofun
  schemas := h.schemas

/-- **The verdict on a package.** Whatever is in it, and with or without PyYAML: the script exits
with 0 if and only if the package is valid and the report on it can be printed. Otherwise it exits
with 2, or with 1, but that only if one of the schemas is a number, a truth value or null, or if the
operating system refuses to say what is there or to take a line. What is valid with PyYAML is valid
without. -/
theorem package_verdict (env : PackageEnv) :
    (status env = 0 ↔ Valid env ∧ Reported env) ∧
      (status env = 0 ∨ status env = 2 ∨ status env = 1 ∧ (Refuses env ∨ ∃ names, env.schemas =
        .ok names ∧ ∃ name ∈ names, ∃ obj,
          loadJson env ("schemas/".toList ++ name) = .ok obj ∧ NoContainer obj)) ∧
      (Valid env → Valid { env with yaml := none }) := by
  refine ⟨?_, ?_, Valid.without_yaml⟩
  all_goals rcases decides_main env [] with ⟨hvalid, a, s, hrun⟩ | ⟨hinvalid, r, s, hr, hrun⟩
  · exact iff_of_true (by rw [status, hrun]; rfl) hvalid
  · refine iff_of_false (fun hstatus ↦ ?_) hinvalid
    rw [status, hrun] at hstatus
    rcases hr with (⟨message, rfl⟩ | ⟨⟨e, rfl⟩, -⟩) | ⟨names, hnames, name, hname, ⟨e, rfl⟩, -⟩
    all_goals exact absurd hstatus (by simp [exitStatus])
  · exact Or.inl (by rw [status, hrun]; rfl)
  · rw [status, hrun]
    rcases hr with (⟨message, rfl⟩ | ⟨⟨e, rfl⟩, hrefuses⟩) |
      ⟨names, hnames, name, hname, ⟨e, rfl⟩, hcrash⟩
    · exact Or.inr (Or.inl rfl)
    · exact Or.inr (Or.inr ⟨rfl, Or.inl hrefuses⟩)
    · exact Or.inr (Or.inr ⟨rfl, Or.inr ⟨names, hnames, name, hname, hcrash⟩⟩)

end Caps

end SourceOS
