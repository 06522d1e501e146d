import SourceOS.Gate.Egress

/-!
# The daemon's request handler

`handle_client` of `daemon.py`, for one request line: decode the JSON, check the shape, convert the
parameters, run one operation of the gate, and answer. Whatever raises on the way becomes an error
response, so **every line gets exactly one answer**, and the world is whatever the operation left.

The conversions are Python's: `str` and `int` of any JSON value, iteration over a list, over the
characters of a string, or over the keys of an object. They are evaluated in the order of the call's
arguments, before the operation starts; a request that fails there has done nothing.

The strings are Python strings, with halves of surrogate pairs where a line has them escaped. A line
that is malformed, or beyond the limits of `json.loads`, makes it raise; the error is taken from the
environment.
-/

namespace SourceOS.Gate

open Text

/-! ### Responses -/

/-- A response: `ok_response` and `err_response`. -/
inductive Response
  | okResponse (id : Json PyChar) (result : Json PyChar)
  | errResponse (id : Json PyChar) (error : RpcError)

/-- The `ok` member. -/
def Response.ok : Response → Bool
  | .okResponse _ _ => true
  | .errResponse _ _ => false

/-! ### Reading a request -/

/-- A `ValueError`. -/
def valueError (msg : Str) : Exc :=
  .builtin ⟨"ValueError".toList, msg⟩

/-- `require_fields`. -/
def requireFields (obj : Json PyChar) (fields : List String) : Except Exc Unit :=
  fields.forM fun f ↦
    match obj.get? f.toList with
    | some _ => .ok ()
    | none => .error (.validation ("missing field: ".toList ++ f.toList))

/-- `obj[key]`. -/
def getItem (obj : Json PyChar) (key : String) : Except Exc (Json PyChar) :=
  match obj.get? key.toList with
  | some v => .ok v
  | none => .error (.builtin ⟨"KeyError".toList, '\'' :: (key.toList ++ ['\''])⟩)

/-- What `for x in j` goes through. -/
def iterate : Json PyChar → Except Exc (List (Json PyChar))
  | .arr xs => .ok xs
  | .str s => .ok (s.map fun c ↦ .str [c])
  | .obj ms => .ok (ms.map fun m ↦ .str m.1)
  | j => .error (.builtin ⟨"TypeError".toList,
      '\'' :: ((Python.typeName j).toList ++ "' object is not iterable".toList)⟩)

/-- `int`, raising. -/
def toInt (py : Runtime) (j : Json PyChar) : Except Exc ℤ :=
  match Python.int py j with
  | .ok n => .ok n
  | .error e => .error (.builtin e)

/-- The arguments of `grant.install`. -/
def grantArgs (py : Runtime) (params : Json PyChar) : Except Exc GrantArgs := do
  requireFields params ["token_id", "nonce", "exp", "targets", "ports", "proto"]
  let tokenId ← getItem params "token_id"
  let nonce ← getItem params "nonce"
  let exp ← getItem params "exp"
  let exp ← toInt py exp
  let targets ← getItem params "targets"
  let targets ← iterate targets
  let ports ← getItem params "ports"
  let ports ← iterate ports
  let ports ← ports.mapM (toInt py)
  let proto ← getItem params "proto"
  return ⟨Python.str py.unicode tokenId, Python.str py.unicode nonce, exp,
    targets.map fun x ↦ .ofPy (Python.str py.unicode x), ports, Python.str py.unicode proto⟩

/-- `bool(params.get("apply", False))`. -/
def applyFlag (params : Json PyChar) : Bool :=
  match params.get? "apply".toList with
  | some v => Python.truthy v
  | none => false

/-- A request whose outer shape is right. -/
structure Request where
  method : PyStr
  params : Json PyChar

/-- `req.get("params") or {}`. -/
def paramsOf (req : Json PyChar) : Json PyChar :=
  match req.get? "params".toList with
  | some v => if Python.truthy v then v else .obj []
  | none => .obj []

/-- The checks on the outer shape. -/
def checkRequest (req : Json PyChar) : Except Exc Request :=
  match req.get? "method".toList, paramsOf req with
  | some (.str method), .obj ms => .ok ⟨method, .obj ms⟩
  | some (.str _), _ => .error (valueError "params must be object".toList)
  | _, _ => .error (valueError "missing method".toList)

/-! ### Handling it -/

/-- Everything the outside decides while a request is handled. -/
structure RequestEnv where
  /-- What `json.loads` raises on a line that it does not read. -/
  decode : BuiltinError
  /-- `now_iso_utc()`. -/
  ts : Str
  /-- For `snapshot`. -/
  read : ReadEnv
  /-- For `grant.install`. -/
  install : GateInstallEnv
  /-- For `prune`. -/
  prune : GatePruneEnv
  /-- For `apply`. -/
  apply : GateApplyEnv
  /-- For `verify`. -/
  verify : GateVerifyEnv

variable {κ : Type} (G : EgressGate κ)

/-- A `status` result. -/
def status (s : String) : Json PyChar :=
  .obj [("status".toList, .str s.toList)]

/-- The operation a request asks for, with its result. -/
def dispatch (env : RequestEnv) (r : Request) : GateM κ (Json PyChar) :=
  if r.method = PyStr.lit "health" then
    pure (.obj [("ts".toList, .str env.ts), ("status".toList, .str "ok".toList)])
  else if r.method = PyStr.lit "snapshot" then G.snapshot env.read env.ts
  else if r.method = PyStr.lit "grant.install" then do
    let a ← .ofExcept (grantArgs G.py r.params)
    G.installGrant env.install a (applyFlag r.params)
    return status "installed"
  else if r.method = PyStr.lit "prune" then do
    let removed ← G.prune env.prune (applyFlag r.params)
    return .obj [("removed".toList, .int removed)]
  else if r.method = PyStr.lit "apply" then do
    G.apply env.apply
    return status "applied"
  else if r.method = PyStr.lit "verify" then do
    G.verify env.verify
    return status "ok"
  else .raise (.value (PyStr.lit "unknown method: " ++ r.method))

/-- The body of the `try` block: checks, then the operation. -/
def serveRequest (env : RequestEnv) (req : Json PyChar) : GateM κ (Json PyChar) := do
  let r ← .ofExcept (checkRequest req)
  dispatch G env r

/-- `handle_client`, for one non-blank line. -/
def handleClient (env : RequestEnv) (raw : Str) (w : World κ) : Response × World κ :=
  match G.py.loads raw with
  | none => (.errResponse .null (mapError (.builtin env.decode)), w)
  | some (.obj ms) =>
    let id := ((Json.obj ms).get? "id".toList).getD .null
    match (serveRequest G env (.obj ms)).run w with
    | (.ok result, w') => (.okResponse id result, w')
    | (.error e, w') => (.errResponse id (mapError e), w')
  | some _ => (.errResponse .null (mapError (valueError "request is not an object".toList)), w)

/-! ### What a refused request leaves behind -/

/-- An `apply` never writes the database. -/
theorem frames_db_apply (env : GateApplyEnv) : Effect.Frames World.db (G.apply env) := by
  refine Effect.Frames.bind (Effect.Frames.ofExcept _) fun _ ↦ ?_
  refine Effect.Frames.bind (frames_readStore _) fun sets ↦ ?_
  refine Effect.Frames.bind (frames_db_onKernel _) fun _ ↦ ?_
  exact frames_auditAppend (fun db _ ↦ db) env.audit _ _

/-- The script of an `apply` was taken, and then its audit record could not be written. -/
def ScriptTaken (env : GateApplyEnv) (db : Db) (k k' : κ) : Prop :=
  env.audit.fault ≠ none ∧ env.sets.script = .applied ∧
    ∃ sets script, computeActiveSets G.py env.read db = .ok sets ∧
      applyScript G.py G.cfg sets = .ok script ∧ k' = G.act script k

/-- An `apply_sets` that returns has run its script. -/
theorem applySets_ok {py : Runtime} {cfg : NftConfig} {act : PyStr → κ → κ} {env : ApplyEnv}
    {sets : ActiveSets} {k : κ} (h : (applySets py cfg act env sets k).1 = .ok ()) :
    env.script = .applied ∧ ∃ script, applyScript py cfg sets = .ok script ∧
      (applySets py cfg act env sets k).2 = act script k := by
  unfold applySets at h ⊢
  split at h
  · exact absurd h (by simp)
  · rename_i hroot
    rw [if_neg hroot]
    cases hbase : requireBaseline cfg env.probe with
    | error e => simp [hbase] at h
    | ok u =>
      cases hscript : applyScript py cfg sets with
      | error e => simp [hbase, hscript] at h
      | ok script =>
        cases hout : env.script with
        | applied => exact ⟨rfl, script, rfl, rfl⟩
        | refused stderr stdout => simp [hbase, hscript, hout, runScript] at h
        | raised e => simp [hbase, hscript, hout, runScript] at h

/-- **An `apply` that raises** leaves the kernel alone, unless its script was taken. -/
theorem apply_error {env : GateApplyEnv} {w : World κ} {e : Exc}
    (h : ((G.apply env).run w).1 = .error e) :
    ((G.apply env).run w).2.kernel = w.kernel ∨
      ScriptTaken G env w.db w.kernel ((G.apply env).run w).2.kernel := by
  unfold EgressGate.apply at h ⊢
  rcases Effect.read_bind_cases (Effect.run_ofExcept (requireBaseline G.cfg env.probe) w) _ with
    ⟨_, -, hrun⟩ | ⟨_, -, hrun⟩
  · exact Or.inl (by rw [hrun])
  rw [hrun] at h ⊢
  rcases Effect.read_bind_cases (run_readStore (computeActiveSets G.py env.read) w) _ with
    ⟨_, -, hrun⟩ | ⟨sets, hsets, hrun⟩
  · exact Or.inl (by rw [hrun])
  rw [hrun] at h ⊢
  rcases Effect.bind_cases (onKernel (applySets G.py G.cfg G.act env.sets sets)) _ w with
    ⟨e', w', hkernel, hrun⟩ | ⟨_, w', hkernel, hrun⟩
  · rw [hrun]
    rw [run_onKernel, Prod.mk.injEq] at hkernel
    obtain ⟨herr, rfl⟩ := hkernel
    exact Or.inl (applySets_error herr)
  · -- the script has been taken, so what raised is the audit log
    rw [hrun] at h ⊢
    rw [run_auditAppend_fst] at h
    rw [run_onKernel, Prod.mk.injEq] at hkernel
    obtain ⟨hok, rfl⟩ := hkernel
    obtain ⟨happlied, script, hscript, hact⟩ := applySets_ok hok
    have hkeep := frames_auditAppend (fun _ k ↦ k) env.audit "gate.egress"
      (("action".toList, .str "apply".toList) :: sets.members)
      { w with kernel := (applySets G.py G.cfg G.act env.sets sets w.kernel).2 }
    refine Or.inr ⟨fun hnone ↦ ?_, happlied, sets, script, hsets, hscript, hkeep.trans hact⟩
    rw [hnone] at h
    exact absurd h (by simp)

/-- What the end of `install_grant` and of `prune` leaves behind when it raises. -/
theorem recordAndApply_error {audit : AuditEnv} {record : List (PyStr × Json PyChar)} {apply : Bool}
    {env : GateApplyEnv} {w : World κ} {e : Exc}
    (h : ((G.recordAndApply audit record apply env).run w).1 = .error e) :
    ((G.recordAndApply audit record apply env).run w).2.db = w.db ∧
      (((G.recordAndApply audit record apply env).run w).2.kernel = w.kernel ∨
        apply = true ∧ ScriptTaken G env w.db w.kernel
          ((G.recordAndApply audit record apply env).run w).2.kernel) ∧
      (audit.fault ≠ none ∨ apply = true) := by
  unfold EgressGate.recordAndApply at h ⊢
  have hdb := frames_auditAppend (fun db (_ : κ) ↦ db) audit "gate.egress" record w
  have hkernel := frames_auditAppend (fun _ (k : κ) ↦ k) audit "gate.egress" record w
  rcases Effect.bind_cases (auditAppend audit "gate.egress" record) _ w with
    ⟨e', w', hx, hrun⟩ | ⟨_, w', hx, hrun⟩
  · have hfault := run_auditAppend_fst audit "gate.egress" record w
    rw [hx] at hdb hkernel hfault
    rw [hrun]
    refine ⟨hdb, Or.inl hkernel, Or.inl fun hnone ↦ ?_⟩
    rw [hnone] at hfault
    exact absurd hfault (by simp)
  · rw [hx] at hdb hkernel
    rw [hrun] at h ⊢
    cases apply with
    | false => exact absurd h (by simp)
    | true =>
      refine ⟨(frames_db_apply G env w').trans hdb, ?_, Or.inr rfl⟩
      rw [← show w'.db = w.db from hdb, ← show w'.kernel = w.kernel from hkernel]
      exact (apply_error G h).imp_right fun htaken ↦ ⟨rfl, htaken⟩

/-- The `apply` a request leads to, if it leads to one. -/
def RequestEnv.applyOf (env : RequestEnv) (r : Request) : Option GateApplyEnv :=
  if r.method = PyStr.lit "apply" then some env.apply
  else if r.method = PyStr.lit "grant.install" ∧ applyFlag r.params = true then
    some env.install.apply
  else if r.method = PyStr.lit "prune" ∧ applyFlag r.params = true then some env.prune.apply
  else none

/-- The store's transaction of a `grant.install` or `prune` was committed, and a step after it was
still to come that can raise: the audit record failed, or an `apply` was asked for. -/
def StoreCommitted (env : RequestEnv) (r : Request) (db db' : Db) : Prop :=
  (r.method = PyStr.lit "grant.install" ∧ ∃ a g, grantArgs G.py r.params = .ok a ∧
      installGrant env.install.store a db = (.ok g, db') ∧
      (env.install.audit.fault ≠ none ∨ applyFlag r.params = true)) ∨
    r.method = PyStr.lit "prune" ∧ ∃ n, pruneExpired env.prune.store db = (.ok n, db') ∧
      (env.prune.audit.fault ≠ none ∨ applyFlag r.params = true)

/-- What a request that raises has done to the database and to the kernel. -/
def LeavesBehind (env : RequestEnv) (r : Request) (w w' : World κ) : Prop :=
  (w'.db = w.db ∨ StoreCommitted G env r w.db w'.db) ∧
    (w'.kernel = w.kernel ∨
      ∃ e, env.applyOf r = some e ∧ ScriptTaken G e w'.db w.kernel w'.kernel)

theorem leavesBehind_refl (env : RequestEnv) (r : Request) (w : World κ) :
    LeavesBehind G env r w w :=
  ⟨Or.inl rfl, Or.inl rfl⟩

theorem installGrant_leavesBehind {env : RequestEnv} {r : Request} {a : GrantArgs} {w : World κ}
    {e : Exc} (hr : r.method = PyStr.lit "grant.install") (ha : grantArgs G.py r.params = .ok a)
    (h : ((G.installGrant env.install a (applyFlag r.params)).run w).1 = .error e) :
    LeavesBehind G env r w ((G.installGrant env.install a (applyFlag r.params)).run w).2 := by
  unfold EgressGate.installGrant at h ⊢
  rcases Effect.bind_cases (onStore (installGrant env.install.store a)) _ w with
    ⟨e', w', hx, hrun⟩ | ⟨g, w', hx, hrun⟩
  · rw [run_onStore, Prod.mk.injEq] at hx
    obtain ⟨herr, rfl⟩ := hx
    rw [hrun]
    exact ⟨Or.inl (installGrant_error herr), Or.inl rfl⟩
  · rw [run_onStore, Prod.mk.injEq] at hx
    obtain ⟨hok, rfl⟩ := hx
    rw [hrun] at h ⊢
    obtain ⟨hdb, hkernel, hlate⟩ := recordAndApply_error G h
    refine ⟨Or.inr (Or.inl ⟨hr, a, g, ha, ?_, hlate⟩), ?_⟩
    · rw [hdb, ← hok]
    · refine hkernel.imp_right fun ⟨hflag, htaken⟩ ↦ ⟨env.install.apply, ?_, hdb.symm ▸ htaken⟩
      rw [RequestEnv.applyOf, if_neg (by rw [hr]; decide), if_pos ⟨hr, hflag⟩]

theorem prune_leavesBehind {env : RequestEnv} {r : Request} {w : World κ} {e : Exc}
    (hr : r.method = PyStr.lit "prune")
    (h : ((G.prune env.prune (applyFlag r.params)).run w).1 = .error e) :
    LeavesBehind G env r w ((G.prune env.prune (applyFlag r.params)).run w).2 := by
  unfold EgressGate.prune at h ⊢
  rcases Effect.bind_cases (onStore (pruneExpired env.prune.store)) _ w with
    ⟨e', w', hx, hrun⟩ | ⟨n, w', hx, hrun⟩
  · rw [run_onStore, Prod.mk.injEq] at hx
    obtain ⟨herr, rfl⟩ := hx
    rw [hrun]
    refine ⟨Or.inl ?_, Or.inl rfl⟩
    rcases pruneExpired_cases env.prune.store w.db with ⟨e, hp⟩ | hp
    · show (pruneExpired env.prune.store w.db).2 = w.db
      rw [hp]
    · rw [hp] at herr
      exact absurd herr (by simp)
  · rw [run_onStore, Prod.mk.injEq] at hx
    obtain ⟨hok, rfl⟩ := hx
    rw [hrun] at h ⊢
    obtain ⟨h, hworld⟩ := Effect.error_of_bind_pure h
    rw [hworld]
    obtain ⟨hdb, hkernel, hlate⟩ := recordAndApply_error G h
    refine ⟨Or.inr (Or.inr ⟨hr, n, ?_, hlate⟩), ?_⟩
    · rw [hdb, ← hok]
    · refine hkernel.imp_right fun ⟨hflag, htaken⟩ ↦ ⟨env.prune.apply, ?_, hdb.symm ▸ htaken⟩
      rw [RequestEnv.applyOf, if_neg (by rw [hr]; decide),
        if_neg (by rw [hr]; exact fun h ↦ absurd h.1 (by decide)), if_pos ⟨hr, hflag⟩]

/-- A `verify` changes neither the database nor the kernel. -/
theorem frames_verify {γ : Type} (get : Db → κ → γ) (env : GateVerifyEnv) :
    Effect.Frames (fun w : World κ ↦ get w.db w.kernel) (G.verify env) := by
  refine Effect.Frames.bind (Effect.Frames.ofExcept _) fun _ ↦ ?_
  refine Effect.Frames.bind (frames_readStore _) fun sets ↦ ?_
  refine Effect.Frames.bind (Effect.Frames.ofExcept _) fun _ ↦ ?_
  exact frames_auditAppend get env.audit _ _

/-- **What an operation that raises leaves behind**, method by method. -/
theorem dispatch_leavesBehind {env : RequestEnv} {r : Request} {w : World κ} {e : Exc}
    (h : ((dispatch G env r).run w).1 = .error e) :
    LeavesBehind G env r w ((dispatch G env r).run w).2 := by
  unfold dispatch at h ⊢
  split_ifs at h ⊢ with hhealth hsnapshot hinstall hprune happly hverify
  · exact absurd h (by simp)
  · obtain ⟨-, hworld⟩ := Effect.error_of_bind_pure h
    rw [EgressGate.snapshot, hworld]
    exact leavesBehind_refl G env r w
  · rcases Effect.read_bind_cases (Effect.run_ofExcept (grantArgs G.py r.params) w) _ with
      ⟨_, -, hrun⟩ | ⟨a, ha, hrun⟩
    · rw [hrun]
      exact leavesBehind_refl G env r w
    · rw [hrun] at h ⊢
      obtain ⟨h, hworld⟩ := Effect.error_of_bind_pure h
      rw [hworld]
      exact installGrant_leavesBehind G hinstall ha h
  · obtain ⟨h, hworld⟩ := Effect.error_of_bind_pure h
    rw [hworld]
    exact prune_leavesBehind G hprune h
  · obtain ⟨h, hworld⟩ := Effect.error_of_bind_pure h
    rw [hworld]
    have hdb := frames_db_apply G env.apply w
    refine ⟨Or.inl hdb, (apply_error G h).imp_right fun htaken ↦ ⟨env.apply, ?_, ?_⟩⟩
    · rw [RequestEnv.applyOf, if_pos happly]
    · rw [hdb]
      exact htaken
  · obtain ⟨-, hworld⟩ := Effect.error_of_bind_pure h
    rw [hworld]
    exact ⟨Or.inl (frames_verify G (fun db _ ↦ db) env.verify w),
      Or.inl (frames_verify G (fun _ k ↦ k) env.verify w)⟩
  · exact leavesBehind_refl G env r w

/-- The request a line asks for, if its outer shape is right. -/
def requestOf (py : Runtime) (raw : Str) : Option Request :=
  match py.loads raw with
  | some (.obj ms) => (checkRequest (.obj ms)).toOption
  | _ => none

/-- **A line that asks for a request** is answered by what the request's operation comes to. -/
theorem handleClient_of_requestOf {env : RequestEnv} {raw : Str} {r : Request} (w : World κ)
    (h : requestOf G.py raw = some r) :
    ∃ id, handleClient G env raw w =
      match (dispatch G env r).run w with
      | (.ok result, w') => (.okResponse id result, w')
      | (.error e, w') => (.errResponse id (mapError e), w') := by
  unfold handleClient requestOf at *
  rcases hloads : G.py.loads raw with - | (_ | _ | _ | _ | _ | _ | ms)
  case some.obj =>
    simp only [hloads] at h ⊢
    have hcheck : checkRequest (.obj ms) = .ok r := by
      cases hc : checkRequest (.obj ms) with
      | error e =>
        rw [hc] at h
        exact absurd h (by simp [Except.toOption])
      | ok r' =>
        rw [hc] at h
        rw [Option.some.inj h]
    have hserve : (serveRequest G env (.obj ms)).run w = (dispatch G env r).run w := by
      rw [serveRequest, hcheck]
      rfl
    rw [hserve]
    exact ⟨_, rfl⟩
  all_goals simp [hloads] at h

/-- Any other line is refused before anything has happened. -/
theorem handleClient_of_requestOf_none {env : RequestEnv} {raw : Str} (w : World κ)
    (h : requestOf G.py raw = none) :
    ∃ id error, handleClient G env raw w = (.errResponse id error, w) := by
  unfold handleClient requestOf at *
  rcases hloads : G.py.loads raw with - | (_ | _ | _ | _ | _ | _ | ms)
  case some.obj =>
    simp only [hloads] at h ⊢
    cases hcheck : checkRequest (.obj ms) with
    | ok r =>
      rw [hcheck] at h
      exact absurd h (by simp [Except.toOption])
    | error e =>
      have hserve : (serveRequest G env (.obj ms)).run w = (.error e, w) := by
        rw [serveRequest, hcheck]
        rfl
      rw [hserve]
      exact ⟨_, _, rfl⟩
  all_goals exact ⟨_, _, rfl⟩

/-- **What a refused request may have changed.** If the answer to a line is an error, the database
and the kernel's sets are what they were, with two exceptions. The transaction of a `grant.install`
or of a `prune` is not undone when a later step raises — its audit record, or the `apply` that was
asked for — and the database is then exactly as that transaction left it. And a script that `nft`
has taken is not undone when the audit record of its `apply` cannot be written. -/
theorem refused_request_leaves {env : RequestEnv} {raw : Str} {w : World κ}
    (h : (handleClient G env raw w).1.ok = false) :
    ((handleClient G env raw w).2.db = w.db ∧ (handleClient G env raw w).2.kernel = w.kernel) ∨
      ∃ r, requestOf G.py raw = some r ∧ LeavesBehind G env r w (handleClient G env raw w).2 := by
  cases hr : requestOf G.py raw with
  | none =>
    obtain ⟨id, error, hrun⟩ := @handleClient_of_requestOf_none _ G env _ w hr
    rw [hrun]
    exact Or.inl ⟨rfl, rfl⟩
  | some r =>
    obtain ⟨id, hrun⟩ := @handleClient_of_requestOf _ G env _ _ w hr
    rw [hrun] at h ⊢
    refine Or.inr ⟨r, rfl, ?_⟩
    rcases hdispatch : (dispatch G env r).run w with ⟨e | result, w'⟩
    · have hleaves := @dispatch_leavesBehind _ G env r w e (by rw [hdispatch])
      rwa [hdispatch] at hleaves
    · rw [hdispatch] at h
      exact absurd h (by simp [Response.ok])

/-- An `apply` at time `t` on a machine without the baseline. -/
def GateApplyEnv.noBaseline (t : ℤ) : GateApplyEnv where
  probe _ _ := .ok false
  read := .quiet t
  sets := ⟨true, fun _ _ ↦ .ok false, .refused [] []⟩
  audit := { ts := [] }

/-- A request at time `t` on a machine without the baseline; nothing else fails. -/
def RequestEnv.noBaseline (t : ℤ) : RequestEnv where
  decode := ⟨"JSONDecodeError".toList, []⟩
  ts := []
  read := .quiet t
  install := ⟨.quiet t, { ts := [] }, .noBaseline t⟩
  prune := ⟨.quiet t, { ts := [] }, .noBaseline t⟩
  apply := .noBaseline t
  verify := ⟨fun _ _ ↦ .ok false, .quiet t, fun _ _ ↦ .ok false,
    ⟨fun _ ↦ .ok ⟨1, []⟩, fun _ ↦ .ok ⟨1, []⟩⟩, { ts := [] }⟩

/-- A gate with the default configuration that never gets to a script. -/
def EgressGate.idle : EgressGate Unit := { py := .ascii, act := fun _ k ↦ k }

/-- A line that asks for a grant and for an `apply` after it. -/
def installAndApplyLine : Str :=
  @Json.dumps PyChar _ (.obj [("method".toList, .str "grant.install".toList),
    ("params".toList, .obj [("token_id".toList, .str "a".toList), ("nonce".toList, .str "1".toList),
      ("exp".toList, .int 90), ("targets".toList, .arr [.str "1.1.1.1".toList]),
      ("ports".toList, .arr [.int 443]), ("proto".toList, .str "tcp".toList),
      ("apply".toList, .bool true)])])

/-- The line on a machine without the baseline. -/
theorem refused_request_leaves_of_install :
    (handleClient EgressGate.idle (.noBaseline 1) installAndApplyLine ⟨Db.empty, (), []⟩).1.ok =
        false ∧
      ∃ r, requestOf .ascii installAndApplyLine = some r ∧
        LeavesBehind EgressGate.idle (.noBaseline 1) r ⟨Db.empty, (), []⟩
          (handleClient EgressGate.idle (.noBaseline 1) installAndApplyLine
            ⟨Db.empty, (), []⟩).2 := by
  refine ⟨by decide +kernel, ?_⟩
  rcases @refused_request_leaves _ EgressGate.idle (.noBaseline 1) installAndApplyLine
    ⟨Db.empty, (), []⟩ (by decide +kernel) with ⟨hdb, -⟩ | h
  · exact absurd hdb (by decide +kernel)
  · exact h

/-- **A refused `grant.install` has stored its grant.** Without the baseline the `apply` raises, the
answer is an error, and the tables are no longer empty. -/
theorem refused_install_is_stored :
    (handleClient EgressGate.idle (.noBaseline 1) installAndApplyLine ⟨Db.empty, (), []⟩).1.ok =
        false ∧
      (handleClient EgressGate.idle (.noBaseline 1) installAndApplyLine ⟨Db.empty, (), []⟩).2.db ≠
        Db.empty := by
  refine ⟨by decide +kernel, by decide +kernel⟩

end SourceOS.Gate
