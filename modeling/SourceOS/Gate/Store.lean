import Mathlib.Algebra.Group.Int.Defs
import Mathlib.Data.Finset.Basic
import Mathlib.Data.List.Sort
import SourceOS.Foundation.Effect
import SourceOS.Foundation.Run
import SourceOS.Gate.Errors

/-!
# The grant store

`store.py`: two tables in one sqlite database. `replay` remembers every `(token_id, nonce)` pair
ever accepted, `grants` holds the grants that are still of interest. A grant goes into both in one
transaction; pruning removes expired rows of `grants` only.

## What is modelled

* The tables are lists of rows in the order of insertion. A table that has not been created yet is
  the empty list: `init` runs before every access and is idempotent. The primary keys are what
  makes `INSERT` fail.
* The columns `targets_json` and `ports_json` hold JSON **text**, written with `json.dumps` and read
  back with `json.loads`; the round trip is a theorem of `Foundation.Json`, not an assumption. Half
  of a surrogate pair in a target is written like any other character. In a token id or a nonce it
  cannot be bound to a column.
* A target is a string in normal form (`JsonStr`), as all strings of requests are.
* Every reading of the clock is an argument of the call it happens in, so a run may use any clock at
  all: standing still, jumping, going backwards.
* Everything that may raise beside the code's own checks — a conversion, the database at any of its
  statements or at the commit — is a `Fault` of the call.
* `withConnection` is the `with self.connect() as conn:` block: commit on normal exit, roll back on
  an exception. Transactions are atomic and serialised, so the calls of any number of processes on
  one store are one list, in the order of their transactions.
-/

namespace SourceOS.Gate

open Text

/-! ### Tables -/

/-- A row of `replay`. -/
structure ReplayRow where
  tokenId : PyStr
  nonce : PyStr
  exp : ℤ
  seenAt : ℤ
deriving DecidableEq

/-- A row of `grants`. -/
structure GrantRow where
  tokenId : PyStr
  nonce : PyStr
  exp : ℤ
  proto : PyStr
  targetsJson : Str
  portsJson : Str
  installedAt : ℤ
deriving DecidableEq

/-- The primary key of a row. -/
def ReplayRow.key (r : ReplayRow) : PyStr × PyStr := (r.tokenId, r.nonce)

@[inherit_doc ReplayRow.key]
def GrantRow.key (r : GrantRow) : PyStr × PyStr := (r.tokenId, r.nonce)

/-- The database. -/
structure Db where
  replay : List ReplayRow
  grants : List GrantRow
deriving DecidableEq

/-- A fresh store root. -/
def Db.empty : Db := ⟨[], []⟩

/-- `Grant`. -/
structure Grant where
  tokenId : PyStr
  nonce : PyStr
  exp : ℤ
  targets : List JsonStr
  ports : List ℤ
  proto : PyStr
  installedAt : ℤ
deriving DecidableEq

/-- The key a grant is installed under. -/
def Grant.key (g : Grant) : PyStr × PyStr := (g.tokenId, g.nonce)

/-! ### Faults and transactions -/

/-- A point where something outside the store may raise. -/
abbrev Fault := Option BuiltinError

/-- Raise if the environment says so. -/
def Fault.check : Fault → Except Exc Unit
  | none => .ok ()
  | some e => .error (.builtin e)

@[simp] theorem Fault.check_none : Fault.check none = .ok () := rfl

theorem Fault.check_ok_iff {f : Fault} : f.check = .ok () ↔ f = none := by
  cases f <;> simp [Fault.check]

/-- `with self.connect() as conn:` — the body works on a copy, which is committed when the body and
the commit both succeed and dropped otherwise. -/
def withConnection {α : Type} (connect commit : Fault) (body : Db → Except Exc (α × Db)) (db : Db) :
    Except Exc α × Db :=
  match connect.check with
  | .error e => (.error e, db)
  | .ok () =>
    match body db with
    | .error e => (.error e, db)
    | .ok (a, db') =>
      match commit.check with
      | .error e => (.error e, db)
      | .ok () => (.ok a, db')

/-- **A block that raises changes nothing.** -/
theorem withConnection_error {α : Type} {connect commit : Fault}
    {body : Db → Except Exc (α × Db)} {db : Db} {e : Exc}
    (h : (withConnection connect commit body db).1 = .error e) :
    (withConnection connect commit body db).2 = db := by
  unfold withConnection at h ⊢
  split
  · rfl
  · split
    · rfl
    · split
      · rfl
      · simp_all

/-- A block that returns has run its body on the database and committed the outcome. -/
theorem withConnection_ok {α : Type} {connect commit : Fault} {body : Db → Except Exc (α × Db)}
    {db : Db} {a : α} (h : (withConnection connect commit body db).1 = .ok a) :
    body db = .ok (a, (withConnection connect commit body db).2) := by
  unfold withConnection at h ⊢
  split at h
  · exact absurd h (by simp)
  · split at h
    · exact absurd h (by simp)
    · split at h
      · exact absurd h (by simp)
      · simp_all

/-- An `INTEGER` column holds 64-bit integers. -/
def fitsInteger (n : ℤ) : Bool :=
  -2 ^ 63 ≤ n && n < 2 ^ 63

/-- The error of the database driver on a larger integer. -/
def integerTooLarge : BuiltinError :=
  ⟨"OverflowError".toList, "Python int too large to convert to SQLite INTEGER".toList⟩

/-- The error of the database on a repeated primary key of `grants`. -/
def uniqueFailed : BuiltinError :=
  ⟨"IntegrityError".toList, "UNIQUE constraint failed: grants.token_id, grants.nonce".toList⟩

/-! ### `install_grant` -/

/-- The arguments of `install_grant`. -/
structure GrantArgs where
  tokenId : PyStr
  nonce : PyStr
  exp : ℤ
  targets : List JsonStr
  ports : List ℤ
  proto : PyStr
deriving DecidableEq

/-- The key a request installs its grant under. -/
def GrantArgs.key (a : GrantArgs) : PyStr × PyStr := (a.tokenId, a.nonce)

/-- One call of `install_grant` as the outside world sees it: its four readings of the clock, and
where it is made to fail. -/
structure InstallEnv where
  /-- The reading the expiry is compared with. -/
  now : ℤ
  /-- The reading stored in `replay`. -/
  seenAt : ℤ
  /-- The reading stored in `grants`. -/
  installedAt : ℤ
  /-- The reading in the returned `Grant`. -/
  returnedAt : ℤ
  /-- `str(t)` or `int(p)` raises. -/
  convert : Fault := none
  /-- `self.init()` raises. -/
  init : Fault := none
  /-- `self.connect()` raises. -/
  connect : Fault := none
  /-- The first `INSERT` raises something other than `IntegrityError`. -/
  insertReplay : Fault := none
  /-- The second `INSERT`, or `json.dumps` of one of its arguments, raises. -/
  insertGrant : Fault := none
  /-- The commit raises. -/
  commit : Fault := none

/-- `str.lower`, for one character. -/
def lowerChar : PyChar → PyChar
  | .char c => .char c.toLower
  | .surrogate i => .surrogate i

/-- `(proto or "tcp").lower()`, and `"tcp"` for everything unknown. Lower-casing is ASCII only: no
character beyond ASCII lower-cases to a letter of `tcp` or `udp`. -/
def normalizeProto (proto : PyStr) : PyStr :=
  let p := (if proto = [] then PyStr.lit "tcp" else proto).map lowerChar
  if p = PyStr.lit "tcp" ∨ p = PyStr.lit "udp" then p else PyStr.lit "tcp"

/-- A string bound to a column: it is encoded. -/
def bindText (s : PyStr) : Except Exc Unit :=
  if s.Clean then .ok () else .error (.builtin s.encodeError)

/-- The key of a request bound to its columns. -/
def GrantArgs.bindKey (a : GrantArgs) : Except Exc Unit := do
  bindText a.tokenId
  bindText a.nonce

/-- `_record_replay`: the first `INSERT`. A repeated key is a replay. -/
def recordReplay (env : InstallEnv) (a : GrantArgs) (db : Db) : Except Exc Db := do
  env.insertReplay.check
  a.bindKey
  if !(fitsInteger a.exp && fitsInteger env.seenAt) then .error (.builtin integerTooLarge)
  else if a.key ∈ db.replay.map ReplayRow.key then .error (.replay "replay detected".toList)
  else .ok { db with replay := db.replay ++ [⟨a.tokenId, a.nonce, a.exp, env.seenAt⟩] }

/-- The row the second `INSERT` adds. -/
def GrantArgs.row (env : InstallEnv) (a : GrantArgs) : GrantRow where
  tokenId := a.tokenId
  nonce := a.nonce
  exp := a.exp
  proto := normalizeProto a.proto
  targetsJson := Json.dumps (.arr (a.targets.map fun t ↦ .str t.val))
  portsJson := Json.dumps (.arr (a.ports.map .int) : Json PyChar)
  installedAt := env.installedAt

/-- The ports have texts. -/
def GrantArgs.Numerals (a : GrantArgs) : Prop :=
  ∀ p ∈ a.ports, Python.HasNumeral p

instance : DecidablePred GrantArgs.Numerals := fun a ↦ List.decidableBAll _ a.ports

/-- `json.dumps` of the ports raises when one of them has no text. -/
def GrantArgs.dumpPorts (a : GrantArgs) : Except Exc Unit :=
  if a.Numerals then .ok () else .error (.builtin Python.numeralError)

/-- The second `INSERT`. -/
def insertGrant (env : InstallEnv) (a : GrantArgs) (db : Db) : Except Exc Db := do
  env.insertGrant.check
  a.dumpPorts
  a.bindKey
  if !(fitsInteger a.exp && fitsInteger env.installedAt) then .error (.builtin integerTooLarge)
  else if a.key ∈ db.grants.map GrantRow.key then .error (.builtin uniqueFailed)
  else .ok { db with grants := db.grants ++ [a.row env] }

/-- The grant a successful call returns. -/
def GrantArgs.grant (env : InstallEnv) (a : GrantArgs) : Grant :=
  ⟨a.tokenId, a.nonce, a.exp, a.targets, a.ports, normalizeProto a.proto, env.returnedAt⟩

/-- The body of the transaction: both rows or none. -/
def installBody (env : InstallEnv) (a : GrantArgs) (db : Db) : Except Exc (Unit × Db) := do
  let db ← recordReplay env a db
  let db ← insertGrant env a db
  return ((), db)

/-- `install_grant`. -/
def installGrant (env : InstallEnv) (a : GrantArgs) (db : Db) : Except Exc Grant × Db :=
  if a.exp ≤ env.now then (.error (.expired "grant expired".toList), db)
  else
    match env.convert.check, env.init.check with
    | .error e, _ => (.error e, db)
    | .ok (), .error e => (.error e, db)
    | .ok (), .ok () =>
      match withConnection env.connect env.commit (installBody env a) db with
      | (.error e, db') => (.error e, db')
      | (.ok (), db') => (.ok (a.grant env), db')

/-! ### `prune_expired`, `list_active`, `compute_active_sets` -/

/-- One call of `prune_expired` or `list_active`: its cutoff, the clock's reading, and its
faults. -/
structure ReadEnv where
  /-- The reading of the clock. -/
  cutoff : ℤ
  /-- `self.init()` raises. -/
  init : Fault := none
  /-- `self.connect()` raises. -/
  connect : Fault := none
  /-- The `SELECT` raises. -/
  select : Fault := none
  /-- The `DELETE` raises. -/
  delete : Fault := none
  /-- The commit raises. -/
  commit : Fault := none

/-- `prune_expired`: count the expired rows, then delete them. -/
def pruneExpired (env : ReadEnv) (db : Db) : Except Exc ℕ × Db :=
  match env.init.check with
  | .error e => (.error e, db)
  | .ok () =>
    withConnection env.connect env.commit (fun db ↦ do
      env.select.check
      let toDelete := db.grants.countP fun r ↦ r.exp ≤ env.cutoff
      env.delete.check
      return (toDelete, { db with grants := db.grants.filter fun r ↦ !(r.exp ≤ env.cutoff) })) db

variable (py : Runtime)

/-- `json.loads` of a column that holds a list of strings. -/
def loadStrings (text : Str) : Option (List JsonStr) :=
  match py.loads text with
  | some (.arr xs) => xs.mapM fun x ↦ match x with
    | .str s => some (.ofPy s)
    | _ => none
  | _ => none

/-- `[int(p) for p in json.loads(…)]` of a column that holds a list of integers. -/
def loadInts (text : Str) : Option (List ℤ) :=
  match py.loads text with
  | some (.arr xs) => xs.mapM fun x ↦ (Python.int py x).toOption
  | _ => none

/-- The grant a row stands for. A row whose JSON columns are not lists of strings and of integers
has none; the store never writes one. -/
def GrantRow.decode (r : GrantRow) : Option Grant :=
  match loadStrings py r.targetsJson, loadInts py r.portsJson with
  | some targets, some ports =>
    some ⟨r.tokenId, r.nonce, r.exp, targets, ports, r.proto, r.installedAt⟩
  | _, _ => none

/-- The error of a column that does not hold what the store writes. -/
def badColumn : BuiltinError :=
  ⟨"JSONDecodeError".toList, "Expecting value".toList⟩

/-- `SELECT … WHERE exp > ? ORDER BY installed_at ASC`. -/
def Db.activeRows (db : Db) (cutoff : ℤ) : List GrantRow :=
  (db.grants.filter fun r ↦ cutoff < r.exp).insertionSort fun r r' ↦
    r.installedAt ≤ r'.installedAt

/-- `list_active`: the rows that expire after the cutoff, oldest installation first. -/
def listActive (env : ReadEnv) (db : Db) : Except Exc (List Grant) × Db :=
  match env.init.check with
  | .error e => (.error e, db)
  | .ok () =>
    withConnection env.connect env.commit (fun db ↦ do
      env.select.check
      match (db.activeRows env.cutoff).mapM (GrantRow.decode py) with
      | some out => .ok (out, db)
      | none => .error (.builtin badColumn)) db

/-- The three sets `compute_active_sets` returns. -/
structure ActiveSets where
  addrs : Finset PyStr
  tcpPorts : Finset PyStr
  udpPorts : Finset PyStr
deriving DecidableEq

/-- `t.replace("/32", "")`. -/
def dropHostMask (t : PyStr) : PyStr :=
  replace (PyStr.lit "/32") [] t

/-- One turn of the loop of `compute_active_sets`. -/
def ActiveSets.add (s : ActiveSets) (g : Grant) : ActiveSets :=
  let addrs := s.addrs ∪ (g.targets.map fun t ↦ dropHostMask t.val).toFinset
  if g.proto = PyStr.lit "udp" then
    { s with addrs := addrs, udpPorts := s.udpPorts ∪ (g.ports.map PyStr.ofInt).toFinset }
  else { s with addrs := addrs, tcpPorts := s.tcpPorts ∪ (g.ports.map PyStr.ofInt).toFinset }

/-- The sets of a list of grants. -/
def ActiveSets.ofGrants (gs : List Grant) : ActiveSets :=
  gs.foldl ActiveSets.add ⟨∅, ∅, ∅⟩

/-- `compute_active_sets`. -/
def computeActiveSets (env : ReadEnv) (db : Db) : Except Exc ActiveSets :=
  (listActive py env db).1.map ActiveSets.ofGrants

/-! ### The store as a machine -/

/-- A call on the store. -/
inductive StoreCall
  | install (env : InstallEnv) (a : GrantArgs)
  | prune (env : ReadEnv)
  | list (env : ReadEnv)

/-- What a call returns or raises. -/
inductive StoreAnswer
  | installed (r : Except Exc Grant)
  | pruned (r : Except Exc ℕ)
  | listed (r : Except Exc (List Grant))

/-- The store: every run of calls on it, from any number of processes, is a run of this machine. -/
def store : Machine Db StoreCall StoreAnswer where
  step db
    | .install env a => ((installGrant env a db).2, .installed (installGrant env a db).1)
    | .prune env => ((pruneExpired env db).2, .pruned (pruneExpired env db).1)
    | .list env => ((listActive py env db).2, .listed (listActive py env db).1)

/-! ### What a step can do -/

/-- The database after `a` has been accepted. -/
def Db.accept (db : Db) (env : InstallEnv) (a : GrantArgs) : Db where
  replay := db.replay ++ [⟨a.tokenId, a.nonce, a.exp, env.seenAt⟩]
  grants := db.grants ++ [a.row env]

/-- The database after the rows expired at `cutoff` have been pruned. -/
def Db.prune (db : Db) (cutoff : ℤ) : Db :=
  { db with grants := db.grants.filter fun r ↦ !(r.exp ≤ cutoff) }

@[simp] theorem Db.prune_replay (db : Db) (cutoff : ℤ) : (db.prune cutoff).replay = db.replay := rfl

/-- A key is bound to its columns if it can be encoded. -/
theorem GrantArgs.bindKey_ok_iff {a : GrantArgs} :
    a.bindKey = .ok () ↔ a.tokenId.Clean ∧ a.nonce.Clean := by
  unfold bindKey bindText
  split_ifs with htoken hnonce
  · exact iff_of_true rfl ⟨htoken, hnonce⟩
  · exact iff_of_false (by simp [bind, Except.bind]) fun h ↦ hnonce h.2
  · exact iff_of_false (by simp [bind, Except.bind]) fun h ↦ htoken h.1
  · exact iff_of_false (by simp [bind, Except.bind]) fun h ↦ htoken h.1

theorem GrantArgs.dumpPorts_ok_iff {a : GrantArgs} : a.dumpPorts = .ok () ↔ a.Numerals := by
  rw [dumpPorts]
  split <;> simp [*]

theorem recordReplay_ok {env : InstallEnv} {a : GrantArgs} {db db' : Db}
    (h : recordReplay env a db = .ok db') :
    a.key ∉ db.replay.map ReplayRow.key ∧
      db' = { db with replay := db.replay ++ [⟨a.tokenId, a.nonce, a.exp, env.seenAt⟩] } := by
  obtain ⟨-, -, h⟩ := exists_of_bind_eq_ok h
  obtain ⟨-, -, h⟩ := exists_of_bind_eq_ok h
  split at h
  · exact absurd h (by simp)
  · split at h
    · exact absurd h (by simp)
    · exact ⟨by assumption, (Except.ok.inj h).symm⟩

theorem insertGrant_ok {env : InstallEnv} {a : GrantArgs} {db db' : Db}
    (h : insertGrant env a db = .ok db') :
    a.Numerals ∧ a.key ∉ db.grants.map GrantRow.key ∧
      db' = { db with grants := db.grants ++ [a.row env] } := by
  obtain ⟨-, -, h⟩ := exists_of_bind_eq_ok h
  obtain ⟨_, hports, h⟩ := exists_of_bind_eq_ok h
  obtain ⟨-, -, h⟩ := exists_of_bind_eq_ok h
  split at h
  · exact absurd h (by simp)
  · split at h
    · exact absurd h (by simp)
    · exact ⟨GrantArgs.dumpPorts_ok_iff.1 hports, by assumption, (Except.ok.inj h).symm⟩

theorem installBody_ok {env : InstallEnv} {a : GrantArgs} {db db' : Db}
    (h : installBody env a db = .ok ((), db')) :
    a.key ∉ db.replay.map ReplayRow.key ∧ a.key ∉ db.grants.map GrantRow.key ∧
      db' = db.accept env a ∧ a.Numerals := by
  obtain ⟨db₁, h₁, h⟩ := exists_of_bind_eq_ok h
  obtain ⟨db₂, h₂, h⟩ := exists_of_bind_eq_ok h
  obtain ⟨hr, rfl⟩ := recordReplay_ok h₁
  obtain ⟨hports, hg, rfl⟩ := insertGrant_ok h₂
  exact ⟨hr, hg, (Prod.mk.inj (Except.ok.inj h)).2.symm, hports⟩

/-- **A call of `install_grant` that raises changes nothing.** -/
theorem installGrant_error {env : InstallEnv} {a : GrantArgs} {db : Db} {e : Exc}
    (h : (installGrant env a db).1 = .error e) : (installGrant env a db).2 = db := by
  unfold installGrant at h ⊢
  split
  · rfl
  · split
    · rfl
    · rfl
    · rcases hw : withConnection env.connect env.commit (installBody env a) db with ⟨e' | u, db'⟩
      · have hdb := withConnection_error (e := e') (by rw [hw])
        rw [hw] at hdb
        exact hdb
      · simp_all

/-- **A call of `install_grant` that returns** found the expiry in the future and the key unused,
and wrote both rows; the ports had texts. -/
theorem installGrant_ok {env : InstallEnv} {a : GrantArgs} {db : Db} {g : Grant}
    (h : (installGrant env a db).1 = .ok g) :
    g = a.grant env ∧ env.now < a.exp ∧ a.key ∉ db.replay.map ReplayRow.key ∧
      a.key ∉ db.grants.map GrantRow.key ∧ (installGrant env a db).2 = db.accept env a ∧
      a.Numerals := by
  unfold installGrant at h ⊢
  split at h
  · exact absurd h (by simp)
  · rename_i hexp
    rw [if_neg hexp]
    split at h
    · exact absurd h (by simp)
    · exact absurd h (by simp)
    · rename_i hc hi
      rcases hw : withConnection env.connect env.commit (installBody env a) db with ⟨e' | u, db'⟩
      · rw [hw] at h
        exact absurd h (by simp)
      · rw [hw] at h
        have hbody := withConnection_ok (a := u) (by rw [hw])
        rw [hw] at hbody
        obtain ⟨hr, hg, hdb, hports⟩ := installBody_ok hbody
        exact ⟨(Except.ok.inj h).symm, by omega, hr, hg, hdb, hports⟩

/-- What `install_grant` looks at before it takes a grant: its expiry, the two tables, and whether
anything fails. The targets are not among it, and of the ports only that they have texts. -/
structure Accepts (env : InstallEnv) (a : GrantArgs) (db : Db) : Prop where
  /-- The expiry is in the future. -/
  unexpired : env.now < a.exp
  /-- Nothing fails. -/
  healthy : env.convert = none ∧ env.init = none ∧ env.connect = none ∧ env.insertReplay = none ∧
    env.insertGrant = none ∧ env.commit = none
  /-- The database can hold the integers. -/
  fits : fitsInteger a.exp = true ∧ fitsInteger env.seenAt = true ∧
    fitsInteger env.installedAt = true
  /-- The key can be encoded. -/
  clean : a.tokenId.Clean ∧ a.nonce.Clean
  /-- The ports can be written. -/
  numerals : a.Numerals
  /-- The key has not been used. -/
  fresh : a.key ∉ db.replay.map ReplayRow.key ∧ a.key ∉ db.grants.map GrantRow.key

/-- **A grant that is accepted** is stored and returned. -/
theorem installGrant_of_accepts {env : InstallEnv} {a : GrantArgs} {db : Db}
    (h : Accepts env a db) : installGrant env a db = (.ok (a.grant env), db.accept env a) := by
  obtain ⟨hconvert, hinit, hconnect, hreplay, hgrant, hcommit⟩ := h.healthy
  obtain ⟨hexp, hseen, hinstalled⟩ := h.fits
  have hbody : installBody env a db = .ok ((), db.accept env a) := by
    simp only [installBody, recordReplay, insertGrant, hreplay, hgrant, hexp, hseen, hinstalled,
      h.fresh.1, Fault.check_none, GrantArgs.bindKey_ok_iff.2 h.clean,
      GrantArgs.dumpPorts_ok_iff.2 h.numerals]
    have hfresh : a.key ∉ db.grants.map GrantRow.key := h.fresh.2
    simp [bind, Except.bind, pure, Except.pure, hfresh, Db.accept]
  rw [installGrant, if_neg (not_le.2 h.unexpired), hconvert, hinit]
  simp only [Fault.check_none, withConnection, hconnect, hcommit, hbody]

/-- A block that returns has met no fault of the connection. -/
theorem withConnection_healthy {α : Type} {connect commit : Fault}
    {body : Db → Except Exc (α × Db)} {db : Db} {a : α}
    (h : (withConnection connect commit body db).1 = .ok a) : connect = none ∧ commit = none := by
  have hbody := withConnection_ok h
  unfold withConnection at h
  rcases hc : connect.check with e | u
  · rw [hc] at h
    exact absurd h (by simp)
  · rw [hc] at h
    simp only [hbody] at h
    rcases hm : commit.check with e | v
    · rw [hm] at h
      exact absurd h (by simp)
    · exact ⟨Fault.check_ok_iff.1 hc, Fault.check_ok_iff.1 hm⟩

/-- A grant that is taken was accepted. -/
theorem accepts_of_ok {env : InstallEnv} {a : GrantArgs} {db : Db} {g : Grant}
    (h : (installGrant env a db).1 = .ok g) : Accepts env a db := by
  obtain ⟨-, hexp, hreplay, hgrants, -, hports⟩ := installGrant_ok h
  rw [installGrant, if_neg (not_le.2 hexp)] at h
  rcases hconvert : env.convert.check with e | u
  · rw [hconvert] at h
    exact absurd h (by simp)
  rcases hinit : env.init.check with e | v
  · rw [hconvert, hinit] at h
    exact absurd h (by simp)
  simp only [hconvert, hinit] at h
  rcases hw : withConnection env.connect env.commit (installBody env a) db with ⟨e | x, db'⟩
  · rw [hw] at h
    exact absurd h (by simp)
  obtain ⟨hconnect, hcommit⟩ := withConnection_healthy (a := x) (by rw [hw])
  have hbody := withConnection_ok (a := x) (by rw [hw])
  -- the two inserts, one after the other
  obtain ⟨db₁, h₁, h⟩ := exists_of_bind_eq_ok hbody
  obtain ⟨db₂, h₂, -⟩ := exists_of_bind_eq_ok h
  obtain ⟨_, hr, h₁⟩ := exists_of_bind_eq_ok h₁
  obtain ⟨_, hkey, h₁⟩ := exists_of_bind_eq_ok h₁
  obtain ⟨_, hg, h₂⟩ := exists_of_bind_eq_ok h₂
  obtain ⟨_, -, h₂⟩ := exists_of_bind_eq_ok h₂
  obtain ⟨_, -, h₂⟩ := exists_of_bind_eq_ok h₂
  have hfits₁ : (fitsInteger a.exp && fitsInteger env.seenAt) = true := by
    by_contra hno
    rw [Bool.not_eq_true] at hno
    simp [hno] at h₁
  have hfits₂ : (fitsInteger a.exp && fitsInteger env.installedAt) = true := by
    by_contra hno
    rw [Bool.not_eq_true] at hno
    simp [hno] at h₂
  rw [Bool.and_eq_true] at hfits₁ hfits₂
  exact ⟨hexp, ⟨Fault.check_ok_iff.1 hconvert, Fault.check_ok_iff.1 hinit, hconnect,
    Fault.check_ok_iff.1 hr, Fault.check_ok_iff.1 hg, hcommit⟩,
    ⟨hfits₁.1, hfits₁.2, hfits₂.2⟩, GrantArgs.bindKey_ok_iff.1 hkey, hports, hreplay, hgrants⟩

/-- **A grant that is not accepted** is refused. -/
theorem installGrant_of_not_accepts {env : InstallEnv} {a : GrantArgs} {db : Db}
    (h : ¬ Accepts env a db) : ∃ e, installGrant env a db = (.error e, db) := by
  rcases hres : installGrant env a db with ⟨e | g, db'⟩
  · have hdb := installGrant_error (e := e) (by rw [hres])
    rw [hres] at hdb
    exact ⟨e, by rw [show db' = db from hdb]⟩
  · exact absurd (accepts_of_ok (g := g) (by rw [hres])) h

/-- **A call of `prune_expired`** either raises and changes nothing, or returns the number of
expired rows and deletes them. -/
theorem pruneExpired_cases (env : ReadEnv) (db : Db) :
    (∃ e, pruneExpired env db = (.error e, db)) ∨
      pruneExpired env db =
        (.ok (db.grants.countP fun r ↦ r.exp ≤ env.cutoff), db.prune env.cutoff) := by
  rcases hp : pruneExpired env db with ⟨e | n, db'⟩
  · refine Or.inl ⟨e, ?_⟩
    unfold pruneExpired at hp
    split at hp
    · simp_all
    · have := withConnection_error (e := e) (by rw [hp])
      rw [hp] at this
      rw [← this]
  · refine Or.inr ?_
    unfold pruneExpired at hp
    split at hp
    · exact absurd hp (by simp)
    · have hbody := withConnection_ok (a := n) (by rw [hp])
      rw [hp] at hbody
      obtain ⟨-, -, hbody⟩ := exists_of_bind_eq_ok hbody
      obtain ⟨-, -, hbody⟩ := exists_of_bind_eq_ok hbody
      obtain ⟨rfl, rfl⟩ := Prod.mk.inj (Except.ok.inj hbody)
      rfl

/-- `list_active` never writes. -/
theorem listActive_snd (env : ReadEnv) (db : Db) : (listActive py env db).2 = db := by
  unfold listActive
  split
  · rfl
  · rcases hw : withConnection env.connect env.commit _ db with ⟨e | gs, db'⟩
    · exact hw ▸ withConnection_error (e := e) (by rw [hw])
    · have hbody := withConnection_ok (a := gs) (by rw [hw])
      rw [hw] at hbody
      obtain ⟨-, -, hbody⟩ := exists_of_bind_eq_ok hbody
      split at hbody
      · exact (Prod.mk.inj (Except.ok.inj hbody)).2.symm
      · exact absurd hbody (by simp)

/-- A call of `list_active` that returns has decoded the active rows. -/
theorem listActive_ok {env : ReadEnv} {db : Db} {out : List Grant}
    (h : (listActive py env db).1 = .ok out) :
    (db.activeRows env.cutoff).mapM (GrantRow.decode py) = some out := by
  unfold listActive at h
  split at h
  · exact absurd h (by simp)
  · obtain ⟨-, -, hbody⟩ := exists_of_bind_eq_ok (withConnection_ok h)
    split at hbody
    · rename_i hout
      rw [hout, (Prod.mk.inj (Except.ok.inj hbody)).1]
    · exact absurd hbody (by simp)

end SourceOS.Gate
