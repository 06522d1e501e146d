import SourceOS.Gate.Connections
import SourceOS.Gate.Firewall

/-!
# The two front ends

`grant` on the command line of `tools/sourceos_gate_egress.py`, which calls the gate itself, and of
`tools/sourceos_gate_egressctl.py`, which sends the daemon a request. Both parsers take the same
options; each fills in what was left out by its own rule, and the second writes the call as JSON,
which the daemon reads and converts back.

On the wire the call arrives as it was sent (`handleClient_grant`), since a line of JSON is read
back as it was written and the conversions are the identity on what the parsers produce. So the
front ends differ in two ways only: in the ports of a `udp` grant without `--port`, and in a request
that is too long for a line. `front_ends_agree_iff` says exactly when they lead to the same store
and to the same outcome.
-/

namespace SourceOS.Gate

open Text Json LineReader

/-! ### The command lines -/

/-- The options of `grant`, as they stand on a command line. -/
structure GrantArgv where
  tokenId : Str
  nonce : Str
  exp : ℤ
  /-- `--proto`, if it is given. -/
  proto : Option Proto
  /-- `--target`, repeatable. -/
  target : List Str
  /-- `--port`, repeatable. -/
  port : List ℤ
  /-- `--apply`. -/
  apply : Bool
  /-- `type=int` takes no numeral that is too long. -/
  expNumeral : Python.HasNumeral exp
  portNumerals : ∀ n ∈ port, Python.HasNumeral n

namespace GrantArgv

variable (argv : GrantArgv)

/-- `args.proto`: both parsers have `default="tcp"`. -/
def protoText : PyStr :=
  (argv.proto.getD .tcp).name

/-- `args.port or [443]`. -/
def egressPorts : List ℤ :=
  if argv.port = [] then [443] else argv.port

/-- `args.port or ([443] if args.proto == "tcp" else [53])`. -/
def egressctlPorts : List ℤ :=
  if argv.port = [] then (if argv.protoText = PyStr.lit "tcp" then [443] else [53]) else argv.port

/-- The call that the options ask for, with the ports filled in. -/
def args (ports : List ℤ) : GrantArgs :=
  ⟨argv.tokenId, argv.nonce, argv.exp, argv.target.map JsonStr.ofStr, ports, argv.protoText⟩

/-- The targets, as JSON. -/
def targetsJson : Json PyChar :=
  .arr ((argv.target.map PyStr.ofStr).map .str)

/-- The parameters of the request that `egressctl` sends. -/
def params : List (PyStr × Json PyChar) :=
  [("token_id".toList, .str argv.tokenId), ("nonce".toList, .str argv.nonce),
   ("exp".toList, .int argv.exp), ("targets".toList, argv.targetsJson),
   ("ports".toList, .arr (argv.egressctlPorts.map .int)), ("proto".toList, .str argv.protoText),
   ("apply".toList, .bool argv.apply)]

/-- The request that `egressctl` sends. -/
def request (reqId : Str) : List (PyStr × Json PyChar) :=
  [("id".toList, .str reqId), ("method".toList, .str "grant.install".toList),
   ("params".toList, .obj argv.params)]

end GrantArgv

section

variable {κ : Type} (G : EgressGate κ)

/-- `main` of `sourceos_gate_egress.py`, for `grant`: whether it exits with 0, and the world it
leaves. Whatever raises makes it exit with something else. -/
def egressGrant (env : GateInstallEnv) (argv : GrantArgv) (w : World κ) : Bool × World κ :=
  if argv.target = [] then (false, w)
  else
    match (G.installGrant env (argv.args argv.egressPorts) argv.apply).run w with
    | (.ok _, w') => (true, w')
    | (.error _, w') => (false, w')

/-- `send`, to a daemon that serves nobody else meanwhile: the response, if there is one, and the
world it leaves. -/
def send (env : RequestEnv) (msg : Json PyChar) (w : World κ) :
    Option (Json PyChar) × World κ :=
  let s := (server G).after (Server.start w : Server Unit κ)
    [.feed () (utf8 (dumps (sortKeys msg)) ++ [newline]), .turn () env .done]
  ((s.conns ()).written.head?.bind fun line ↦ loads G.py.readFloat (decodeReplace line), s.world)

/-- `main` of `sourceos_gate_egressctl.py`, for `grant`: whether it exits with 0, and the world it
leaves. It raises when there is no response. -/
def egressctlGrant (env : RequestEnv) (reqId : Str) (argv : GrantArgv) (w : World κ) :
    Bool × World κ :=
  let (resp, w') := send G env (.obj (argv.request reqId)) w
  (resp.any fun r ↦ (r.get? "ok".toList).any Python.truthy, w')

end

/-! ### The wire -/

section Wire

variable {κ : Type} (G : EgressGate κ) (env : RequestEnv) (argv : GrantArgv) (reqId : Str)

theorem nodup_params : (argv.params.map Prod.fst).Nodup := by
  simp only [GrantArgv.params, List.map_cons, List.map_nil]
  decide

theorem nodup_request : ((argv.request reqId).map Prod.fst).Nodup := by
  simp only [GrantArgv.request, List.map_cons, List.map_nil]
  decide

theorem plain_targetsJson : Plain argv.targetsJson :=
  plain_strings _

theorem plain_request : Plain (.obj (argv.request reqId)) :=
  ⟨nodup_request argv reqId, trivial, trivial, ⟨nodup_params argv, trivial, trivial, trivial,
    plain_targetsJson argv, plain_ints _, trivial, trivial, trivial⟩, trivial⟩

theorem normal_protoText : JsonChar.normal argv.protoText = argv.protoText := by
  rw [GrantArgv.protoText]
  cases argv.proto.getD .tcp with
  | tcp => exact PyStr.normal_ofStr _
  | udp => exact PyStr.normal_ofStr _

/-- The strings of the request are texts. -/
theorem tidy_request : Tidy (.obj (argv.request reqId)) := by
  have htargets : Tidy argv.targetsJson :=
    tidy_strings (List.forall_mem_map.2 fun t _ ↦ PyStr.normal_ofStr t)
  refine ⟨nodup_request argv reqId, tidyMembers_iff.2 fun m hm ↦ ?_⟩
  simp only [GrantArgv.request, List.mem_cons, List.not_mem_nil, or_false] at hm
  rcases hm with rfl | rfl | rfl
  · exact ⟨PyStr.normal_ofStr _, PyStr.normal_ofStr reqId⟩
  · exact ⟨PyStr.normal_ofStr _, PyStr.normal_ofStr _⟩
  refine ⟨PyStr.normal_ofStr _, nodup_params argv, tidyMembers_iff.2 fun m hm ↦ ?_⟩
  simp only [GrantArgv.params, List.mem_cons, List.not_mem_nil, or_false] at hm
  rcases hm with rfl | rfl | rfl | rfl | rfl | rfl | rfl
  · exact ⟨PyStr.normal_ofStr _, PyStr.normal_ofStr argv.tokenId⟩
  · exact ⟨PyStr.normal_ofStr _, PyStr.normal_ofStr argv.nonce⟩
  · exact ⟨PyStr.normal_ofStr _, trivial⟩
  · exact ⟨PyStr.normal_ofStr _, htargets⟩
  · exact ⟨PyStr.normal_ofStr _, tidy_ints _⟩
  · exact ⟨PyStr.normal_ofStr _, normal_protoText argv⟩
  · exact ⟨PyStr.normal_ofStr _, trivial⟩

theorem hasNumeral_of_mem_egressctlPorts :
    ∀ n ∈ argv.egressctlPorts, Python.HasNumeral n := by
  have hhttps : Python.HasNumeral 443 := by decide
  have hdns : Python.HasNumeral 53 := by decide
  unfold GrantArgv.egressctlPorts
  split_ifs
  · exact List.forall_mem_singleton.2 hhttps
  · exact List.forall_mem_singleton.2 hdns
  · exact argv.portNumerals

theorem hasNumeral_of_mem_egressPorts : ∀ n ∈ argv.egressPorts, Python.HasNumeral n := by
  have hhttps : Python.HasNumeral 443 := by decide
  unfold GrantArgv.egressPorts
  split_ifs
  · exact List.forall_mem_singleton.2 hhttps
  · exact argv.portNumerals

/-- The request keeps the limits of the daemon's `json.loads`. -/
theorem fits_request (py : Runtime) : Fits py.reader 0 (.obj (argv.request reqId)) := by
  have htargets : Fits py.reader 2 argv.targetsJson :=
    fits_strings (py.takesDepth (by decide)) _
  have hports : Fits py.reader 2 (.arr (argv.egressctlPorts.map .int) : Json PyChar) :=
    fits_ints (py.takesDepth (by decide)) fun n hn ↦
      (Python.takesDigits_iff py).2 (hasNumeral_of_mem_egressctlPorts argv n hn)
  exact ⟨py.takesDepth (by decide), trivial, trivial, ⟨py.takesDepth (by decide), trivial, trivial,
    (Python.takesDigits_iff py).2 argv.expNumeral, htargets, hports, trivial, trivial, trivial⟩,
    trivial⟩

/-- The daemon reads the request that was sent. -/
theorem loads_request (py : Runtime) :
    py.loads (dumps (sortKeys (.obj (argv.request reqId)))) =
      some (sortKeys (.obj (argv.request reqId))) :=
  read_dumps_of_tidy (tidy_sortKeys (tidy_request argv reqId))
    (plain_sortKeys (plain_request argv reqId)) (fits_sortKeys (fits_request argv reqId py))

/-- A parameter of the request as the daemon finds it. -/
theorem get?_params {k : PyStr} {v : Json PyChar} (h : (Json.obj argv.params).get? k = some v) :
    (sortKeys (.obj argv.params)).get? k = some (sortKeys v) := by
  rw [get?_sortKeys (nodup_params argv), h]
  rfl

theorem get?_request {k : PyStr} {v : Json PyChar}
    (h : (Json.obj (argv.request reqId)).get? k = some v) :
    (sortKeys (.obj (argv.request reqId))).get? k = some (sortKeys v) := by
  rw [get?_sortKeys (nodup_request argv reqId), h]
  rfl

/-- An object that has all the fields passes. -/
theorem requireFields_ok {obj : Json PyChar} {fields : List String}
    (h : ∀ f ∈ fields, ∃ v, obj.get? f.toList = some v) : requireFields obj fields = .ok () := by
  unfold requireFields
  induction fields with
  | nil => rfl
  | cons f fields ih =>
    obtain ⟨v, hv⟩ := h f List.mem_cons_self
    rw [List.forM_eq_forM, List.forM_cons, hv]
    exact ih fun g hg ↦ h g (List.mem_cons_of_mem _ hg)

/-- A `grant.install` request whose parameters convert. -/
theorem dispatch_install {r : Request} (hr : r.method = PyStr.lit "grant.install") {a : GrantArgs}
    (ha : grantArgs G.py r.params = .ok a) :
    dispatch G env r = G.installGrant env.install a (applyFlag r.params) >>=
      fun _ ↦ pure (status "installed") := by
  rw [dispatch, if_neg (by rw [hr]; decide), if_neg (by rw [hr]; decide), if_pos hr, ha]
  rfl

/-- **The conversions are the identity** on the parameters that `egressctl` sends. -/
theorem grantArgs_params (py : Runtime) :
    grantArgs py (sortKeys (.obj argv.params)) = .ok (argv.args argv.egressctlPorts) := by
  have htoken : (sortKeys (.obj argv.params)).get? "token_id".toList = some (.str argv.tokenId) :=
    get?_params argv (v := .str argv.tokenId) rfl
  have hnonce : (sortKeys (.obj argv.params)).get? "nonce".toList = some (.str argv.nonce) :=
    get?_params argv (v := .str argv.nonce) rfl
  have hexp : (sortKeys (.obj argv.params)).get? "exp".toList = some (.int argv.exp) :=
    get?_params argv (v := .int argv.exp) rfl
  have htargets : (sortKeys (.obj argv.params)).get? "targets".toList =
      some argv.targetsJson := by
    have hsorted : sortKeys argv.targetsJson = argv.targetsJson := sortKeys_strings _
    rw [← hsorted]
    exact get?_params argv rfl
  have hports : (sortKeys (.obj argv.params)).get? "ports".toList =
      some (.arr (argv.egressctlPorts.map .int)) := by
    rw [← sortKeys_ints]
    exact get?_params argv rfl
  have hproto : (sortKeys (.obj argv.params)).get? "proto".toList = some (.str argv.protoText) :=
    get?_params argv (v := .str argv.protoText) rfl
  have hints : ∀ ns : List ℤ,
      (ns.map Json.int).mapM (toInt py) = (.ok ns : Except Exc (List ℤ)) := by
    intro ns
    rw [mapM_eq_ok_iff, List.forall₂_map_left_iff, List.forall₂_same]
    exact fun n _ ↦ rfl
  have hfields : requireFields (sortKeys (.obj argv.params))
      ["token_id", "nonce", "exp", "targets", "ports", "proto"] = .ok () := by
    refine requireFields_ok fun f hf ↦ ?_
    simp only [List.mem_cons, List.not_mem_nil, or_false] at hf
    rcases hf with rfl | rfl | rfl | rfl | rfl | rfl
    exacts [⟨_, htoken⟩, ⟨_, hnonce⟩, ⟨_, hexp⟩, ⟨_, htargets⟩, ⟨_, hports⟩, ⟨_, hproto⟩]
  have hstr : ((argv.target.map PyStr.ofStr).map Json.str).map
      (fun x ↦ JsonStr.ofPy (Python.str py.unicode x)) = argv.target.map JsonStr.ofStr := by
    rw [List.map_map, List.map_map]
    exact List.map_congr_left fun t _ ↦ JsonStr.ofPy_val (JsonStr.ofStr t)
  simp only [grantArgs, hfields, getItem, htoken, hnonce, hexp, htargets, hports, hproto]
  show (do
    let ports ← (argv.egressctlPorts.map Json.int).mapM (toInt py)
    return (⟨argv.tokenId, argv.nonce, argv.exp,
      ((argv.target.map PyStr.ofStr).map Json.str).map
        (fun x ↦ JsonStr.ofPy (Python.str py.unicode x)), ports, argv.protoText⟩ :
        GrantArgs) : Except Exc GrantArgs) = _
  rw [hints, hstr]
  rfl

theorem applyFlag_params : applyFlag (sortKeys (.obj argv.params)) = argv.apply := by
  have happly : (sortKeys (.obj argv.params)).get? "apply".toList = some (.bool argv.apply) :=
    get?_params argv (v := .bool argv.apply) rfl
  rw [applyFlag, happly]
  rfl

/-- The outer shape of the request as the daemon finds it. -/
theorem checkRequest_request : checkRequest (sortKeys (.obj (argv.request reqId))) =
    .ok ⟨PyStr.lit "grant.install", sortKeys (.obj argv.params)⟩ := by
  have hmethod : (sortKeys (.obj (argv.request reqId))).get? "method".toList =
      some (.str "grant.install".toList) :=
    get?_request argv reqId (v := .str "grant.install".toList) rfl
  have hparams : (sortKeys (.obj (argv.request reqId))).get? "params".toList =
      some (sortKeys (.obj argv.params)) :=
    get?_request argv reqId rfl
  have htruthy : Python.truthy (sortKeys (.obj argv.params)) = true := by
    have hne : (sortMembers argv.params).insertionSort KeyLE ≠ [] := by
      rw [Ne, ← List.length_eq_zero_iff, List.length_insertionSort, sortMembers_eq_map,
        List.length_map]
      simp [GrantArgv.params]
    simpa [sortKeys, Python.truthy] using hne
  rw [checkRequest, paramsOf, hmethod, hparams]
  simp only [htruthy, if_true]
  rw [sortKeys]
  rfl

/-- **On the wire the call arrives as it was sent**: the daemon answers a `grant` of `egressctl` by
the call that its options ask for. -/
theorem handleClient_grant (w : World κ) :
    handleClient G env (dumps (sortKeys (.obj (argv.request reqId)))) w =
      match (G.installGrant env.install (argv.args argv.egressctlPorts) argv.apply).run w with
      | (.ok _, w') => (.okResponse (.str reqId) (status "installed"), w')
      | (.error e, w') => (.errResponse (.str reqId) (mapError e), w') := by
  have hid : (sortKeys (.obj (argv.request reqId))).get? "id".toList = some (.str reqId) :=
    get?_request argv reqId (v := .str reqId) rfl
  have hserve : (serveRequest G env (sortKeys (.obj (argv.request reqId)))).run w =
      match (G.installGrant env.install (argv.args argv.egressctlPorts) argv.apply).run w with
      | (.ok _, w') => (.ok (status "installed"), w')
      | (.error e, w') => (.error e, w') := by
    rw [serveRequest, checkRequest_request]
    have hdispatch := dispatch_install G env
      (r := ⟨PyStr.lit "grant.install", sortKeys (.obj argv.params)⟩) rfl
      (grantArgs_params argv G.py)
    rw [applyFlag_params] at hdispatch
    show (dispatch G env ⟨PyStr.lit "grant.install", sortKeys (.obj argv.params)⟩).run w = _
    rw [hdispatch]
    rcases hrun : (G.installGrant env.install (argv.args argv.egressctlPorts) argv.apply).run w with
      ⟨e | u, w'⟩
    · exact Effect.run_bind_of_error hrun
    · exact Effect.run_bind_of_ok hrun
  rw [handleClient, loads_request argv reqId G.py]
  rw [sortKeys] at hid hserve ⊢
  simp only [hid, Option.getD_some, hserve]
  rcases (G.installGrant env.install (argv.args argv.egressctlPorts) argv.apply).run w with
    ⟨e | u, w'⟩
  · rfl
  · rfl

/-- The line that carries a JSON object is read as the object's text. -/
theorem rawOf_object (ms : List (PyStr × Json PyChar)) :
    rawOf (utf8 (dumps (.obj ms)) ++ [newline]) = dumps (.obj ms) := by
  obtain ⟨t, ht⟩ := exists_dumps_obj ms
  have hend : decodeReplace [newline] = ['\n'] := by decide
  rw [rawOf, decodeReplace_utf8_append, hend, ht]
  exact strip_line (by decide) (by decide) t

/-- **A response is read back** in normal form, if its keys stay distinct in it. -/
theorem loads_responseLine (rf : Str → PyFloat) {res : Response} (h : Plain (normal res.toJson)) :
    loads rf (dumps (sortKeys res.toJson) ++ ['\n']) = some (normal (sortKeys res.toJson)) :=
  read_dumps_append (plain_normal_sortKeys h) (fits_unlimited rf 0 _)
    (List.forall_mem_singleton.2 rfl)

/-- The client finds out whether its request has succeeded. -/
theorem ok_of_toJson {res : Response} (h : Plain (normal res.toJson)) :
    (normal (sortKeys res.toJson)).get? "ok".toList = some (.bool res.ok) := by
  have hok : (sortKeys res.toJson).get? "ok".toList = some (.bool res.ok) := by
    have hplain := plain_of_normal h
    cases res with
    | okResponse id result =>
      rw [Response.toJson, get?_sortKeys hplain.1]
      rfl
    | errResponse id error =>
      rw [Response.toJson, get?_sortKeys hplain.1]
      rfl
  obtain ⟨ms, hms⟩ : ∃ ms, sortKeys res.toJson = .obj ms := by
    cases res <;> exact ⟨_, rfl⟩
  have hsorted := plain_normal_sortKeys h
  rw [hms] at hok hsorted ⊢
  exact get?_normal hsorted.1 (PyStr.normal_ofStr _) hok

theorem ok_of_responseLine (rf : Str → PyFloat) {res : Response} (h : Plain (normal res.toJson)) :
    ((loads rf (decodeReplace (responseLine res)) : Option (Json PyChar)).any fun r ↦
      (r.get? "ok".toList).any Python.truthy) = res.ok := by
  rw [responseLine, decodeReplace_utf8, loads_responseLine rf h, Option.any_some, ok_of_toJson h]
  cases res <;> rfl

/-- The keys of a response are texts. -/
theorem nodup_toJson (id result ok error : Json PyChar) :
    ((normalMembers [(PyStr.lit "id", id), (PyStr.lit "ok", ok), (PyStr.lit "result", result),
      (PyStr.lit "error", error)]).map Prod.fst).Nodup := by
  rw [map_fst_normalMembers]
  simp only [List.map_cons, List.map_nil]
  decide

/-- The responses to a `grant.install` are free of floating-point numbers. -/
theorem plain_installed (id : Str) :
    Plain (normal (Response.okResponse (.str id) (status "installed")).toJson) :=
  ⟨nodup_toJson .., trivial, trivial, ⟨List.nodup_singleton _, trivial, trivial⟩, trivial, trivial⟩

theorem plain_refused (id : Str) (error : RpcError) :
    Plain (normal (Response.errResponse (.str id) error).toJson) := by
  refine ⟨nodup_toJson .., trivial, trivial, trivial, ⟨?_, trivial, trivial, trivial⟩, trivial⟩
  show ([PyStr.lit "code", PyStr.lit "message"].map JsonChar.normal).Nodup
  decide

/-- **What `egressctl` comes to**: the call that its options ask for, if the request fits a line,
and otherwise nothing. -/
theorem egressctlGrant_eq (w : World κ) :
    egressctlGrant G env reqId argv w =
      if (utf8 (dumps (sortKeys (.obj (argv.request reqId))))).length ≤ lineLimit then
        match (G.installGrant env.install (argv.args argv.egressctlPorts) argv.apply).run w with
        | (.ok _, w') => (true, w')
        | (.error _, w') => (false, w')
      else (false, w) := by
  have hbody : newline ∉ utf8 (dumps (sortKeys (.obj (argv.request reqId)))) :=
    newline_notMem_utf8 (printable_dumps _)
  have hobject : rawOf (utf8 (dumps (sortKeys (.obj (argv.request reqId)))) ++ [newline]) =
      dumps (sortKeys (.obj (argv.request reqId))) := rawOf_object _
  have hraw : rawOf (utf8 (dumps (sortKeys (.obj (argv.request reqId)))) ++ [newline]) ≠ [] := by
    obtain ⟨t, ht⟩ := exists_dumps_obj ((sortMembers (argv.request reqId)).insertionSort KeyLE)
    rw [hobject, sortKeys, ht]
    exact List.cons_ne_nil _ _
  unfold egressctlGrant send
  split_ifs with hlen
  · obtain ⟨hwritten, hworld⟩ := answered_of_line (G := G) (w := w) hbody hlen hraw env
    dsimp only
    rw [hwritten, hworld, hobject, handleClient_grant, List.head?_cons, Option.bind_some]
    rcases (G.installGrant env.install (argv.args argv.egressctlPorts) argv.apply).run w with
      ⟨e | u, w'⟩
    · rw [ok_of_responseLine _ (plain_refused reqId _)]
      rfl
    · rw [ok_of_responseLine _ (plain_installed reqId)]
      rfl
  · obtain ⟨-, hwritten, hworld⟩ := unanswered_of_overlong (G := G) (w := w) hbody (not_le.1 hlen)
      env
    dsimp only
    rw [hwritten, hworld]
    rfl

end Wire

/-! ### Agreement -/

section Agreement

variable {κ : Type} (G : EgressGate κ)

/-- A grant that the store refuses leaves everything as it was. -/
theorem run_installGrant_of_not_accepts {env : GateInstallEnv} {a : GrantArgs} {w : World κ}
    (h : ¬ Accepts env.store a w.db) (apply : Bool) :
    ∃ e, (G.installGrant env a apply).run w = (.error e, w) := by
  obtain ⟨e, he⟩ := installGrant_of_not_accepts h
  refine ⟨e, Effect.run_bind_of_error ?_⟩
  rw [run_onStore, he]

/-- A grant that the store accepts is in the database afterwards, whatever else fails. -/
theorem db_installGrant_of_accepts {env : GateInstallEnv} {a : GrantArgs} {w : World κ}
    (h : Accepts env.store a w.db) (apply : Bool) :
    ((G.installGrant env a apply).run w).2.db = w.db.accept env.store a := by
  have hstore : (onStore (installGrant env.store a) : GateM κ Grant).run w =
      (.ok (a.grant env.store), { w with db := w.db.accept env.store a }) := by
    rw [run_onStore, installGrant_of_accepts h]
  have hframes : Effect.Frames World.db
      (G.recordAndApply env.audit (a.grant env.store).record apply env.apply) := by
    refine Effect.Frames.bind (frames_auditAppend (fun db _ ↦ db) env.audit _ _) fun _ ↦ ?_
    cases apply with
    | false => exact Effect.Frames.pure ()
    | true => exact frames_db_apply G env.apply
  unfold EgressGate.installGrant
  rw [Effect.run_bind_of_ok hstore]
  exact hframes _

/-- What the store looks at does not depend on the ports, as long as they have numerals. -/
theorem Accepts.args {env : InstallEnv} {argv : GrantArgv} {db : Db} {ports ports' : List ℤ}
    (h : Accepts env (argv.args ports) db) (hports : ∀ n ∈ ports', Python.HasNumeral n) :
    Accepts env (argv.args ports') db :=
  { h with numerals := hports }

theorem accepts_args_iff {env : InstallEnv} {argv : GrantArgv} {db : Db} :
    Accepts env (argv.args argv.egressPorts) db ↔
      Accepts env (argv.args argv.egressctlPorts) db :=
  ⟨fun h ↦ h.args (hasNumeral_of_mem_egressctlPorts argv),
    fun h ↦ h.args (hasNumeral_of_mem_egressPorts argv)⟩

/-- The rules for the ports differ where there are none and the protocol is `udp`. -/
theorem egressctlPorts_eq {argv : GrantArgv} (h : argv.port = [] → argv.proto ≠ some .udp) :
    argv.egressctlPorts = argv.egressPorts := by
  unfold GrantArgv.egressctlPorts GrantArgv.egressPorts
  split_ifs with hport hproto
  · rfl
  · refine absurd ?_ hproto
    rcases hp : argv.proto with _ | _ | _
    · rw [GrantArgv.protoText, hp]
      rfl
    · rw [GrantArgv.protoText, hp]
      rfl
    · exact absurd hp (h hport)
  · rfl

/-- **The two front ends agree, exactly when** the store refuses the grant either way, or neither of
their differences comes into play: the grant is not one of `udp` without ports, and the request fits
a line. To agree is to leave the same store and to succeed or fail alike. -/
theorem front_ends_agree_iff (env : RequestEnv) (reqId : Str) {argv : GrantArgv}
    (htarget : argv.target ≠ []) (w : World κ) :
    let cli := egressGrant G env.install argv w
    let ctl := egressctlGrant G env reqId argv w
    (cli.2.db = ctl.2.db ∧ cli.1 = ctl.1) ↔
      ¬ Accepts env.install.store (argv.args argv.egressPorts) w.db ∨
        (argv.port = [] → argv.proto ≠ some .udp) ∧
          (utf8 (dumps (sortKeys (.obj (argv.request reqId))))).length ≤ lineLimit := by
  intro cli ctl
  have hcli : cli =
      match (G.installGrant env.install (argv.args argv.egressPorts) argv.apply).run w with
      | (.ok _, w') => (true, w')
      | (.error _, w') => (false, w') := if_neg htarget
  have hctl : ctl = _ := egressctlGrant_eq G env argv reqId w
  have hdb : ∀ r : Except Exc Unit × World κ, (match r with
      | (.ok _, w') => (true, w')
      | (.error _, w') => (false, w')).2.db = r.2.db := by
    rintro ⟨_ | _, w'⟩ <;> rfl
  by_cases haccepts : Accepts env.install.store (argv.args argv.egressPorts) w.db
  · have haccepts' : Accepts env.install.store (argv.args argv.egressctlPorts) w.db :=
      accepts_args_iff.1 haccepts
    constructor
    · rintro ⟨hsame, -⟩
      rw [hcli, hctl, hdb, db_installGrant_of_accepts G haccepts] at hsame
      refine Or.inr ?_
      split_ifs at hsame with hlen
      · refine ⟨fun hport hproto ↦ ?_, hlen⟩
        -- the rows of the two grants differ in their ports
        rw [hdb, db_installGrant_of_accepts G haccepts'] at hsame
        have hrow := List.append_cancel_left (congrArg Db.grants hsame)
        have hports : dumps (.arr (argv.egressPorts.map .int) : Json PyChar) =
            dumps (.arr (argv.egressctlPorts.map .int) : Json PyChar) :=
          congrArg GrantRow.portsJson (List.cons.inj hrow).1
        have hno : ¬ (Proto.udp.name = PyStr.lit "tcp") := by decide
        rw [GrantArgv.egressPorts, GrantArgv.egressctlPorts, GrantArgv.protoText, hport, hproto,
          if_pos rfl, if_pos rfl, Option.getD_some, if_neg hno] at hports
        exact absurd hports (by decide)
      · -- the request never reached the store
        have hgrown := congrArg (List.length ∘ Db.grants) hsame
        simp [Db.accept] at hgrown
    · rintro (hno | ⟨hports, hlen⟩)
      · exact absurd haccepts hno
      · rw [hcli, hctl, if_pos hlen, egressctlPorts_eq hports]
        exact ⟨rfl, rfl⟩
  · have haccepts' : ¬ Accepts env.install.store (argv.args argv.egressctlPorts) w.db := fun h ↦
      haccepts (accepts_args_iff.2 h)
    obtain ⟨e, he⟩ := run_installGrant_of_not_accepts G haccepts argv.apply
    obtain ⟨e', he'⟩ := run_installGrant_of_not_accepts G haccepts' argv.apply
    refine iff_of_true ?_ (Or.inl haccepts)
    rw [hcli, hctl, he, he']
    split_ifs <;> exact ⟨rfl, rfl⟩

end Agreement

theorem hasNumeral_ninety : Python.HasNumeral 90 := by decide

/-- A `grant` of one host, with the protocol and the ports left out. -/
def defaultGrant : GrantArgv :=
  ⟨"tok".toList, "n1".toList, 90, none, ["1.2.3.4/32".toList], [], false, hasNumeral_ninety,
    List.forall_mem_nil _⟩

/-- The grant is stored alike. -/
theorem front_ends_agree_default :
    let cli := egressGrant EgressGate.idle (RequestEnv.noBaseline 1).install defaultGrant
      ⟨Db.empty, (), []⟩
    let ctl := egressctlGrant EgressGate.idle (.noBaseline 1) "7f".toList defaultGrant
      ⟨Db.empty, (), []⟩
    cli.2.db = ctl.2.db ∧ cli.1 = ctl.1 := by
  refine (front_ends_agree_iff EgressGate.idle (.noBaseline 1) "7f".toList (by decide) _).2
    (Or.inr ⟨by decide, ?_⟩)
  rw [length_utf8_of_printable (printable_dumps _)]
  decide +kernel

/-- **The front ends disagree** on a `udp` grant without ports: the one stores port 443, the other
port 53. -/
theorem front_ends_disagree :
    let argv := { defaultGrant with proto := some .udp }
    let cli := egressGrant EgressGate.idle (RequestEnv.noBaseline 1).install argv
      ⟨Db.empty, (), []⟩
    let ctl := egressctlGrant EgressGate.idle (.noBaseline 1) "7f".toList argv ⟨Db.empty, (), []⟩
    cli.1 = true ∧ ctl.1 = true ∧ cli.2.db.grants.map GrantRow.portsJson = ["[443]".toList] ∧
      ctl.2.db.grants.map GrantRow.portsJson = ["[53]".toList] ∧ cli.2.db ≠ ctl.2.db := by
  decide +kernel

end SourceOS.Gate
