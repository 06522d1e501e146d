import SourceOS.Foundation.PyString

/-!
# Documents

What a YAML or a JSON file is read as: mappings, sequences and scalars, the scalars being null,
booleans, numbers, strings and dates. Unlike an object of JSON, a mapping may have any scalar as a
key.

The second part is Python's view of such a value, as a program sees that indexes, iterates, hashes
and prints what it was given without looking at its type first: each operation with the error it
raises. A document is a tree; an alias of a YAML file is the node it stands for.
-/

namespace SourceOS

/-- What a date is: a day, or a point in time without or with a time zone. -/
inductive DateKind
  | date
  | naive
  | aware
deriving DecidableEq

/-- A date as far as a program looks at it. -/
structure PyDate where
  /-- What it is. -/
  kind : DateKind
  /-- What it is compared by with others of its kind. -/
  instant : ℤ
  /-- Its text: `str`. -/
  text : Str
  /-- Its representation: `repr`. -/
  repr : Str
deriving DecidableEq

/-- A value without parts. -/
inductive Scalar
  | null
  | bool (b : Bool)
  | int (n : ℤ)
  | float (x : PyFloat)
  | str (s : PyStr)
  | date (d : PyDate)
deriving DecidableEq

/-- A document. Mappings keep the order of their members. -/
inductive Document
  | scalar (s : Scalar)
  | seq (xs : List Document)
  | map (ms : List (Scalar × Document))

/-- A `TypeError`. -/
def typeError (msg : Str) : BuiltinError :=
  ⟨"TypeError".toList, msg⟩

namespace Scalar

/-- A string literal. -/
def lit (s : String) : Scalar :=
  .str (PyStr.lit s)

/-- Truth value testing. Every date is true. -/
def truthy : Scalar → Bool
  | .null => false
  | .bool b => b
  | .int n => n != 0
  | .float x => !x.isZero
  | .str s => !s.isEmpty
  | .date _ => true

/-- The name of a type as error messages have it. -/
def typeName : Scalar → String
  | .null => "NoneType"
  | .bool _ => "bool"
  | .int _ => "int"
  | .float _ => "float"
  | .str _ => "str"
  | .date d => if d.kind = .date then "datetime.date" else "datetime.datetime"

/-- `repr`. -/
def repr (db : UnicodeDb) : Scalar → Str
  | .null => "None".toList
  | .bool true => "True".toList
  | .bool false => "False".toList
  | .int n => Text.decimal n
  | .float x => x.repr
  | .str s => s.repr db
  | .date d => d.repr

/-- `str`. -/
def toStr (db : UnicodeDb) : Scalar → PyStr
  | .str s => s
  | .date d => .ofStr d.text
  | s => .ofStr (s.repr db)

/-- What a hashable value is compared by in a set. Numbers are compared by their value. -/
inductive Key
  | none
  | num (n : ℤ)
  | float (x : PyFloat)
  | str (s : PyStr)
  | date (kind : DateKind) (instant : ℤ)
deriving DecidableEq

/-- The key of a scalar. -/
def key : Scalar → Key
  | .null => .none
  | .bool b => .num (if b then 1 else 0)
  | .int n => .num n
  | .float x =>
    -- a number without a fraction is equal to an integer, and hashed like it
    match x.trunc with
    | some n => if x.repr = Text.decimal n ++ ".0".toList then .num n else .float x
    | none => .float x
  | .str s => .str s
  | .date d => .date d.kind d.instant

theorem eq_str_of_key {s : Scalar} {t : PyStr} (h : s.key = .str t) : s = .str t := by
  cases s with
  | str u => rw [Key.str.inj h]
  | float x =>
    rw [key] at h
    split at h
    · split_ifs at h
    · cases h
  | _ => cases h

end Scalar

namespace Document

/-- A string. -/
def str (s : PyStr) : Document :=
  .scalar (.str s)

/-- A string literal. -/
def lit (s : String) : Document :=
  .scalar (.lit s)

/-- `None`. -/
def null : Document :=
  .scalar .null

/-- Truth value testing. -/
def truthy : Document → Bool
  | .scalar s => s.truthy
  | .seq xs => !xs.isEmpty
  | .map ms => !ms.isEmpty

/-- The name of a type as error messages have it. -/
def typeName : Document → String
  | .scalar s => s.typeName
  | .seq _ => "list"
  | .map _ => "dict"

mutual

/-- `repr`. -/
def repr (db : UnicodeDb) : Document → Str
  | .scalar s => s.repr db
  | .seq xs => '[' :: reprItems db xs
  | .map ms => '\x7b' :: reprMembers db ms

/-- The items of a list and its closing bracket. -/
def reprItems (db : UnicodeDb) : List Document → Str
  | [] => [']']
  | [x] => repr db x ++ [']']
  | x :: y :: xs => repr db x ++ ',' :: ' ' :: reprItems db (y :: xs)

/-- The entries of a dictionary and its closing brace. -/
def reprMembers (db : UnicodeDb) : List (Scalar × Document) → Str
  | [] => ['\x7d']
  | [(k, v)] => k.repr db ++ ':' :: ' ' :: (repr db v ++ ['\x7d'])
  | (k, v) :: m :: ms =>
    k.repr db ++ ':' :: ' ' :: (repr db v ++ ',' :: ' ' :: reprMembers db (m :: ms))

end

/-- `str`. -/
def toStr (db : UnicodeDb) : Document → PyStr
  | .scalar s => s.toStr db
  | d => .ofStr (d.repr db)

/-- `d.get(key)`. -/
def get (d : Document) (key : String) : Except BuiltinError Document :=
  match d with
  | .map ms => .ok ((ms.lookup (.lit key)).getD null)
  | _ => .error ⟨"AttributeError".toList, '\'' :: (d.typeName.toList ++
      "' object has no attribute 'get'".toList)⟩

/-- The member of a mapping, if there is one; anything else has none. -/
def member (d : Document) (key : String) : Document :=
  match d with
  | .map ms => (ms.lookup (.lit key)).getD null
  | _ => null

/-- `d[key]`. -/
def getItem (d : Document) (key : String) : Except BuiltinError Document :=
  match d with
  | .map ms =>
    match ms.lookup (.lit key) with
    | some v => .ok v
    | none => .error ⟨"KeyError".toList, '\'' :: (key.toList ++ ['\''])⟩
  | .seq _ => .error (typeError "list indices must be integers or slices, not str".toList)
  | .scalar (.str _) => .error (typeError "string indices must be integers, not 'str'".toList)
  | _ => .error (typeError ('\'' :: (d.typeName.toList ++
      "' object is not subscriptable".toList)))

/-- `d or default`. -/
def orElse (d default : Document) : Document :=
  if d.truthy then d else default

/-- What `for x in d` goes through. -/
def iterate : Document → Except BuiltinError (List Document)
  | .seq xs => .ok xs
  | .scalar (.str s) => .ok (s.map fun c ↦ str [c])
  | .map ms => .ok (ms.map fun m ↦ .scalar m.1)
  | d => .error (typeError ('\'' :: (d.typeName.toList ++ "' object is not iterable".toList)))

/-- What a value is hashed by; lists and dictionaries have no hash. -/
def keyOf : Document → Except BuiltinError Scalar.Key
  | .scalar s => .ok s.key
  | .seq _ => .error (typeError "unhashable type: 'list'".toList)
  | .map _ => .error (typeError "unhashable type: 'dict'".toList)

/-! ### When nothing is raised -/

/-- A mapping. -/
def IsMap : Document → Prop
  | .map _ => True
  | _ => False

/-- A scalar. -/
def IsScalar : Document → Prop
  | .scalar _ => True
  | _ => False

/-- What a loop goes through has a hash: the value is a string, a mapping, or a sequence of
scalars. -/
def HashableEntries : Document → Prop
  | .seq xs => ∀ x ∈ xs, x.IsScalar
  | .map _ => True
  | .scalar (.str _) => True
  | .scalar _ => False

theorem isMap_of_get {d v : Document} {key : String} (h : d.get key = .ok v) : d.IsMap := by
  cases d with
  | map ms => trivial
  | seq xs => exact absurd h (by simp [get])
  | scalar s => exact absurd h (by simp [get])

theorem get_of_isMap {d : Document} {key : String} (h : d.IsMap) :
    d.get key = .ok (d.member key) := by
  cases d with
  | map ms => rfl
  | seq xs => exact h.elim
  | scalar s => exact h.elim

theorem keyOf_ok_iff {d : Document} : (∃ k, d.keyOf = .ok k) ↔ d.IsScalar := by
  cases d <;> simp [keyOf, IsScalar]

/-- A loop over a value, and over the hashes of what it goes through. -/
theorem iterate_hashable_iff {d : Document} :
    (∃ xs, d.iterate = .ok xs ∧ ∀ x ∈ xs, x.IsScalar) ↔ d.HashableEntries := by
  cases d with
  | seq xs => simp [iterate, HashableEntries]
  | map ms =>
    refine iff_of_true ⟨_, rfl, fun x hx ↦ ?_⟩ trivial
    obtain ⟨m, -, rfl⟩ := List.mem_map.1 hx
    trivial
  | scalar s => cases s <;> simp [iterate, HashableEntries, IsScalar, str]

/-- What a default satisfies, a value with that default satisfies if it does where it is true. -/
theorem orElse_iff {P : Document → Prop} {d default : Document} (h : P default) :
    P (d.orElse default) ↔ (d.truthy = true → P d) := by
  rw [orElse]
  split
  case isTrue htrue => simp [htrue]
  case isFalse hfalse => simp [hfalse, h]

/-- The empty mapping stands in for nothing that has members. -/
theorem member_orElse (d : Document) (key : String) :
    (d.orElse (.map [])).member key = d.member key := by
  rw [orElse]
  split
  case isTrue => rfl
  case isFalse h =>
    cases d with
    | map ms =>
      cases ms with
      | nil => rfl
      | cons m ms => exact absurd rfl h
    | seq xs => rfl
    | scalar s => rfl

/-- **Only a mapping has members.** -/
theorem exists_lookup_of_getItem {d v : Document} {key : String} (h : d.getItem key = .ok v) :
    ∃ ms, d = .map ms ∧ ms.lookup (.lit key) = some v := by
  cases d with
  | map ms =>
    refine ⟨ms, rfl, ?_⟩
    rcases hl : ms.lookup (.lit key) with _ | v'
    · simp [getItem, hl] at h
    · simp only [getItem, hl] at h
      rw [hl, Except.ok.inj h]
  | seq xs => exact absurd h (by simp [getItem])
  | scalar s => cases s <;> exact absurd h (by simp [getItem])

theorem exists_mem_of_getItem {d v : Document} {key : String} (h : d.getItem key = .ok v) :
    ∃ ms, d = .map ms ∧ (Scalar.lit key, v) ∈ ms := by
  obtain ⟨ms, rfl, hl⟩ := exists_lookup_of_getItem h
  obtain ⟨l₁, l₂, rfl, -⟩ := List.lookup_eq_some_iff.1 hl
  exact ⟨_, rfl, by simp⟩

/-- A member that is there is what `get` finds. -/
theorem get_of_getItem {d v : Document} {key : String} (h : d.getItem key = .ok v) :
    d.get key = .ok v := by
  obtain ⟨ms, rfl, hl⟩ := exists_lookup_of_getItem h
  rw [get, hl]
  rfl

theorem member_of_getItem {d v : Document} {key : String} (h : d.getItem key = .ok v) :
    d.member key = v := by
  obtain ⟨ms, rfl, hl⟩ := exists_lookup_of_getItem h
  rw [member, hl]
  rfl

/-- What `get` finds is there, unless it is null. -/
theorem getItem_of_get {d v : Document} {key : String} (h : d.get key = .ok v)
    (hv : v ≠ null) : d.getItem key = .ok v := by
  cases d with
  | map ms =>
    rcases hl : ms.lookup (.lit key) with _ | v'
    · rw [get, hl] at h
      exact absurd (Except.ok.inj h).symm hv
    · rw [get, hl] at h
      rw [getItem, hl]
      exact h
  | seq xs => exact absurd h (by simp [get])
  | scalar s => exact absurd h (by simp [get])

/-- What has a member is true. -/
theorem truthy_of_getItem {d v : Document} {key : String} (h : d.getItem key = .ok v) :
    d.truthy = true := by
  obtain ⟨ms, rfl, hmem⟩ := exists_mem_of_getItem h
  rw [truthy, Bool.not_eq_true', List.isEmpty_eq_false_iff]
  exact List.ne_nil_of_mem hmem

theorem ne_null_of_truthy {d : Document} (h : d.truthy = true) : d ≠ null := by
  rintro rfl
  exact absurd h (by decide)

theorem orElse_of_truthy {d : Document} (h : d.truthy = true) (default : Document) :
    d.orElse default = d :=
  if_pos h

/-- A member that is true is a member of a document that is true, whatever stands in for one that
is not. -/
theorem orElse_eq_of_get {d v : Document} {key : String}
    (h : (d.orElse (.map [])).get key = .ok v) (hv : v.truthy = true) :
    d.orElse (.map []) = d := by
  rw [orElse]
  split
  case isTrue => rfl
  case isFalse hd =>
    rw [orElse, if_neg hd] at h
    obtain rfl := Except.ok.inj h
    exact absurd hv Bool.false_ne_true

end Document

end SourceOS
