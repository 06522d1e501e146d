import SourceOS.Gate.FrontEnds

/-!
# The client and the daemon

`tools/sourceos_gate_egressctl.py` with the daemon it talks to, byte by byte: any number of
`egressctl` processes, each with one call, and any other programs on the same socket. `sendall` and
`recv` move as many bytes as the socket takes or has, at most 4096 at a time, and everything is
interleaved with the turns of the daemon's handlers.

* **Linearizability** (`egressctl_linearisable`). What the daemon has done is a sequence of
  requests, handled one after the other. A call of `egressctl` is in it at most once; it is there
  before the call returns, and not before the call is sent; and what the call returns is the
  response it has there. How the bytes were cut up is not to be seen.
* **Termination** (`egressctl_returns`). As soon as the daemon gives it a turn, a call returns the
  response if the request fits a line, and raises if it does not.
-/

namespace SourceOS.Gate

open Text Json LineReader

/-! ### The command line -/

/-- The subcommands, with their options. -/
inductive CtlCommand
  | health
  | snapshot
  | apply
  | verify
  | prune (apply : Bool)
  | grant (argv : GrantArgv)

/-- A call of `egressctl`. -/
structure CtlCall where
  /-- `uuid.uuid4().hex`. -/
  reqId : Str
  /-- The subcommand. -/
  cmd : CtlCommand

/-- A request without parameters, or with few. -/
def plainRequest (reqId : Str) (method : String) (params : List (PyStr × Json PyChar)) :
    List (PyStr × Json PyChar) :=
  [("id".toList, .str reqId), ("method".toList, .str method.toList),
   ("params".toList, .obj params)]

namespace CtlCall

variable (call : CtlCall)

/-- `req`. -/
def request : List (PyStr × Json PyChar) :=
  match call.cmd with
  | .health => plainRequest call.reqId "health" []
  | .snapshot => plainRequest call.reqId "snapshot" []
  | .apply => plainRequest call.reqId "apply" []
  | .verify => plainRequest call.reqId "verify" []
  | .prune apply => plainRequest call.reqId "prune" [("apply".toList, .bool apply)]
  | .grant argv => argv.request call.reqId

/-- `json.dumps(msg, sort_keys=True)`. -/
def text : Str :=
  dumps (sortKeys (.obj call.request))

/-- `wire`. -/
def wire : List UInt8 :=
  utf8 call.text ++ [newline]

end CtlCall

/-! ### `send` -/

/-- The client hangs up. -/
def Conn.hangUp (c : Conn) : Conn :=
  { c with eof := true }

/-- Where an `egressctl` process stands. -/
inductive Ctl
  /-- It has not connected. -/
  | idle
  /-- In `sendall`, with this left to send. -/
  | sending (call : CtlCall) (rest : List UInt8)
  /-- In the loop of `recv`, with this in `buf`. -/
  | receiving (call : CtlCall) (buf : List UInt8)
  /-- `send` has returned. -/
  | returned (call : CtlCall) (resp : Json PyChar)
  /-- `send` has raised. -/
  | raised (call : CtlCall)

/-- The rest of `send`, after the loop. -/
def CtlCall.finish (call : CtlCall) (py : Runtime) (buf : List UInt8) : Ctl :=
  if buf = [] then .raised call
  else
    match (decodeStrict buf).bind (loads py.readFloat) with
    | some resp => .returned call resp
    | none => .raised call

/-- `main` exits with 0 if `resp.get("ok")` and with 2 if not. -/
def exitCode (resp : Json PyChar) : ℕ :=
  if (resp.get? "ok".toList).any Python.truthy then 0 else 2

/-- The process connects. -/
def Ctl.connect (call : CtlCall) : Ctl → Conn → Ctl × Conn
  | .idle, c => (.sending call call.wire, c)
  | ctl, c => (ctl, c)

/-- `sendall` gets rid of up to `n` bytes, or raises since the daemon has hung up. -/
def Ctl.sendall (n : ℕ) : Ctl → Conn → Ctl × Conn
  | .sending call rest, c =>
    if c.phase = .ended then (.raised call, c.hangUp)
    else (if rest.drop n = [] then .receiving call [] else .sending call (rest.drop n),
      c.feed (rest.take n))
  | ctl, c => (ctl, c)

/-- One pass through the loop of `recv`, when up to `n + 1` bytes are there to be taken. It waits
for bytes or for the end; the loop is left at the end, or when `buf` ends with a line feed, and then
the socket is closed. -/
def Ctl.recv (py : Runtime) (n : ℕ) : Ctl → Conn → Ctl × Conn
  | .receiving call buf, c =>
    match c.written.flatten.drop buf.length with
    | [] => if c.phase = .ended then (call.finish py buf, c.hangUp) else (.receiving call buf, c)
    | b :: bytes =>
      let buf' := buf ++ (b :: bytes).take (min (n + 1) 4096)
      if [newline] <:+ buf' then (call.finish py buf', c.hangUp) else (.receiving call buf', c)
  | ctl, c => (ctl, c)

/-- The processes `ι` that run `egressctl`, the other programs `ν` on the socket, and the daemon. -/
structure Ctls (ι ν κ : Type) where
  daemon : Server (ι ⊕ ν) κ
  ctl : ι → Ctl

/-- What happens next. -/
inductive CtlsStep (ι ν : Type)
  /-- An `egressctl` connects. -/
  | connect (p : ι) (call : CtlCall)
  /-- `sendall` gets rid of up to `n` bytes. -/
  | sendall (p : ι) (n : ℕ)
  /-- A `recv(4096)`, when up to `n + 1` bytes are there. -/
  | recv (p : ι) (n : ℕ)
  /-- A handler of the daemon takes a turn. -/
  | turn (c : ι ⊕ ν) (env : RequestEnv) (drain : Drain)
  /-- A handler of the daemon has drained. -/
  | drained (c : ι ⊕ ν)
  /-- Another program sends bytes. -/
  | feed (q : ν) (bytes : List UInt8)
  /-- Another program hangs up. -/
  | hangUp (q : ν)

/-- The request that the next turn of a handler takes. -/
def Conn.takes (c : Conn) : Option Str :=
  if c.phase = .reading then
    match readline newline lineLimit c.eof c.buffer with
    | .line l _ => if rawOf l = [] then none else some (rawOf l)
    | _ => none
  else none

/-- A request that the daemon has handled. -/
structure Handled (ι ν : Type) where
  client : ι ⊕ ν
  env : RequestEnv
  raw : Str

section Machines

variable {ι ν κ : Type} [DecidableEq ι] [DecidableEq ν] (G : EgressGate κ)

/-- One request after the other. -/
def handler : Machine (World κ) (Handled ι ν) Response where
  step w h :=
    let (res, w') := handleClient G h.env h.raw w
    (w', res)

/-- The daemon takes a step. -/
def Ctls.serve (s : Ctls ι ν κ) (e : ServerStep (ι ⊕ ν)) : Ctls ι ν κ :=
  { s with daemon := ((server G).step s.daemon e).1 }

/-- An `egressctl` takes a step. -/
def Ctls.change (s : Ctls ι ν κ) (p : ι) (f : Ctl → Conn → Ctl × Conn) : Ctls ι ν κ where
  daemon := s.daemon.update (.inl p) fun c ↦ (f (s.ctl p) c).2
  ctl := Function.update s.ctl p (f (s.ctl p) (s.daemon.conns (.inl p))).1

/-- The processes and the daemon as a machine. It answers with the request that the daemon has
handled, if it has. -/
def egressctls : Machine (Ctls ι ν κ) (CtlsStep ι ν) (Option (Handled ι ν)) where
  step s
    | .connect p call => (s.change p (Ctl.connect call), none)
    | .sendall p n => (s.change p (Ctl.sendall n), none)
    | .recv p n => (s.change p (Ctl.recv G.py n), none)
    | .turn c env drain =>
      (s.serve G (.turn c env drain), (s.daemon.conns c).takes.map fun raw ↦ ⟨c, env, raw⟩)
    | .drained c => (s.serve G (.drained c), none)
    | .feed q bytes => (s.serve G (.feed (.inr q) bytes), none)
    | .hangUp q => (s.serve G (.hangUp (.inr q)), none)

/-- The daemon has just started. -/
def Ctls.start (w : World κ) : Ctls ι ν κ :=
  ⟨Server.start w, fun _ ↦ .idle⟩

/-- The requests that the daemon handles in a run, in their order. -/
def handled (w : World κ) (run : List (CtlsStep ι ν)) : List (Handled ι ν) :=
  ((egressctls G).trace (Ctls.start w) run).filterMap Prod.snd

/-- The same, with the responses. -/
def answers (w : World κ) (run : List (CtlsStep ι ν)) : List (Handled ι ν × Response) :=
  (handler G).trace w (handled G w run)

end Machines

/-! ### The wire -/

theorem plain_plainRequest (reqId : Str) (method : String) {params : List (PyStr × Json PyChar)}
    (h : Plain (.obj params)) : Plain (.obj (plainRequest reqId method params)) := by
  refine ⟨?_, trivial, trivial, h, trivial⟩
  simp only [plainRequest, List.map_cons, List.map_nil]
  decide

theorem tidy_plainRequest (reqId : Str) (method : String) {params : List (PyStr × Json PyChar)}
    (h : Tidy (.obj params)) : Tidy (.obj (plainRequest reqId method params)) := by
  refine ⟨?_, PyStr.normal_ofStr _, PyStr.normal_ofStr _, PyStr.normal_ofStr _,
    PyStr.normal_ofStr _, PyStr.normal_ofStr _, h, trivial⟩
  simp only [plainRequest, List.map_cons, List.map_nil]
  decide

namespace CtlCall

variable (call : CtlCall)

theorem plain_request : Plain (.obj call.request) := by
  rw [request]
  rcases call.cmd with _ | _ | _ | _ | apply | argv
  case prune => exact plain_plainRequest _ _ ⟨List.nodup_singleton _, trivial, trivial⟩
  case grant => exact Gate.plain_request argv call.reqId
  all_goals exact plain_plainRequest _ _ ⟨List.nodup_nil, trivial⟩

theorem tidy_request : Tidy (.obj call.request) := by
  rw [request]
  rcases call.cmd with _ | _ | _ | _ | apply | argv
  case prune =>
    exact tidy_plainRequest _ _ ⟨List.nodup_singleton _, PyStr.normal_ofStr _, trivial, trivial⟩
  case grant => exact Gate.tidy_request argv call.reqId
  all_goals exact tidy_plainRequest _ _ ⟨List.nodup_nil, trivial⟩

theorem fits_request (py : Runtime) : Fits py.reader 0 (.obj call.request) := by
  have hfits : ∀ (method : String) {params : List (PyStr × Json PyChar)},
      Fits py.reader 1 (.obj params) →
        Fits py.reader 0 (.obj (plainRequest call.reqId method params)) :=
    fun method _ h ↦ ⟨py.takesDepth (by decide), trivial, trivial, h, trivial⟩
  rw [request]
  rcases call.cmd with _ | _ | _ | _ | apply | argv
  case prune => exact hfits _ ⟨py.takesDepth (by decide), trivial, trivial⟩
  case grant => exact Gate.fits_request argv call.reqId py
  all_goals exact hfits _ ⟨py.takesDepth (by decide), trivial⟩

theorem newline_notMem : newline ∉ utf8 call.text :=
  newline_notMem_utf8 (printable_dumps _)

/-- The daemon reads what was sent. -/
theorem rawOf_wire : rawOf call.wire = call.text :=
  rawOf_object _

theorem text_ne_nil : call.text ≠ [] := by
  obtain ⟨t, ht⟩ := exists_dumps_obj ((sortMembers call.request).insertionSort KeyLE)
  rw [text, sortKeys, ht]
  exact List.cons_ne_nil _ _

theorem get?_id : (sortKeys (.obj call.request)).get? "id".toList = some (.str call.reqId) := by
  have hid : (Json.obj call.request).get? "id".toList = some (.str call.reqId) := by
    rw [request]
    rcases call.cmd with _ | _ | _ | _ | _ | _ <;> rfl
  rw [get?_sortKeys call.plain_request.1, hid]
  rfl

end CtlCall

section Responses

variable {κ : Type} (G : EgressGate κ)

/-- An array of strings is plain in normal form. -/
theorem plain_normal_sortedJson (t : Finset PyStr) : Plain (normal (sortedJson t)) := by
  show PlainItems (normalItems _)
  induction sorted t with
  | nil => exact trivial
  | cons s ss ih => exact ⟨trivial, ih⟩

theorem plain_members (sets : ActiveSets) : Plain (normal (.obj sets.members)) := by
  refine ⟨?_, plain_normal_sortedJson _, plain_normal_sortedJson _, plain_normal_sortedJson _,
    trivial⟩
  rw [map_fst_normalMembers]
  simp only [ActiveSets.members, List.map_cons, List.map_nil]
  decide

theorem plain_status (s : String) : Plain (normal (status s)) :=
  ⟨List.nodup_singleton _, trivial, trivial⟩

/-- **No operation has a result with a floating-point number**, and the keys of the results are
texts. -/
theorem plain_dispatch {env : RequestEnv} {r : Request} {w : World κ} {j : Json PyChar}
    (h : ((dispatch G env r).run w).1 = .ok j) : Plain (normal j) := by
  unfold dispatch at h
  split_ifs at h
  · obtain rfl : _ = j := Except.ok.inj h
    refine ⟨?_, trivial, trivial, trivial⟩
    show ([PyStr.lit "ts", PyStr.lit "status"].map JsonChar.normal).Nodup
    decide
  · obtain ⟨sets, w₁, -, h⟩ := Effect.exists_of_bind_ok h
    obtain rfl : _ = j := Except.ok.inj h
    refine ⟨?_, trivial, plain_members sets, trivial⟩
    show ([PyStr.lit "ts", PyStr.lit "active"].map JsonChar.normal).Nodup
    decide
  · obtain ⟨a, w₁, -, h⟩ := Effect.exists_of_bind_ok h
    obtain ⟨_, w₂, -, h⟩ := Effect.exists_of_bind_ok h
    obtain rfl : _ = j := Except.ok.inj h
    exact plain_status _
  · obtain ⟨removed, w₁, -, h⟩ := Effect.exists_of_bind_ok h
    obtain rfl : _ = j := Except.ok.inj h
    exact ⟨List.nodup_singleton _, trivial, trivial⟩
  · obtain ⟨_, w₁, -, h⟩ := Effect.exists_of_bind_ok h
    obtain rfl : _ = j := Except.ok.inj h
    exact plain_status _
  · obtain ⟨_, w₁, -, h⟩ := Effect.exists_of_bind_ok h
    obtain rfl : _ = j := Except.ok.inj h
    exact plain_status _
  · exact nomatch h

/-- A response to a call carries its `id`, and no floating-point number. -/
structure CtlCall.AnsweredBy (call : CtlCall) (res : Response) : Prop where
  id_eq : res.id = .str call.reqId
  plain : Plain (normal res.toJson)

theorem CtlCall.answeredBy_handleClient (call : CtlCall) (env : RequestEnv) (w : World κ) :
    call.AnsweredBy (handleClient G env call.text w).1 := by
  have hload : G.py.loads call.text = some (sortKeys (.obj call.request)) :=
    read_dumps_of_tidy (tidy_sortKeys call.tidy_request) (plain_sortKeys call.plain_request)
      (fits_sortKeys (call.fits_request G.py))
  have hid := call.get?_id
  rw [sortKeys] at hload hid
  unfold handleClient
  rw [hload]
  dsimp only
  rw [hid, Option.getD_some]
  rcases hrun : (serveRequest G env _).run w with ⟨e | result, w'⟩
  · exact ⟨rfl, plain_refused call.reqId (mapError e)⟩
  · obtain ⟨r, w₁, -, hdispatch⟩ := Effect.exists_of_bind_ok (congrArg Prod.fst hrun)
    exact ⟨rfl, nodup_toJson .., trivial, trivial, plain_dispatch G hdispatch, trivial, trivial⟩

end Responses

/-! ### One connection -/

section Known

variable {ι ν κ : Type} {G : EgressGate κ}

/-- Where the first line feed of a text is its last character, a part that ends with it is all. -/
theorem not_newline_suffix {body buf : List UInt8} (hbody : newline ∉ body)
    (hbuf : buf <+: body ++ [newline]) (hne : buf ≠ body ++ [newline]) : newline ∉ buf := by
  rcases List.prefix_concat_iff.1 hbuf with rfl | h
  · exact absurd rfl hne
  · exact fun hmem ↦ hbody (h.subset hmem)

/-- The response is read back, and the exit code says whether it is one of success. -/
theorem finish_responseLine (py : Runtime) {call : CtlCall} {res : Response}
    (h : call.AnsweredBy res) :
    call.finish py (responseLine res) = .returned call (normal (sortKeys res.toJson)) := by
  have hne : responseLine res ≠ [] := by
    rw [responseLine_eq]
    exact List.append_ne_nil_of_right_ne_nil _ (List.cons_ne_nil _ _)
  rw [CtlCall.finish, if_neg hne, responseLine, decodeStrict_utf8, Option.bind_some,
    loads_responseLine py.readFloat h.plain]

theorem exitCode_toJson {res : Response} (h : Plain (normal res.toJson)) :
    exitCode (normal (sortKeys res.toJson)) = if res.ok then 0 else 2 := by
  rw [exitCode, ok_of_toJson h, Option.any_some]
  rfl

/-- The request does not fit a line. -/
def CtlCall.TooLong (call : CtlCall) : Prop :=
  lineLimit < (utf8 call.text).length

/-- What is known of an `egressctl`, of its connection, and of its requests among those that the
daemon has handled. -/
inductive Known (p : ι) : Ctl → Conn → List (Handled ι ν × Response) → Prop
  | idle : Known p .idle .accepted []
  | sending {call : CtlCall} {sent rest : List UInt8} (hwire : sent ++ rest = call.wire)
      (hrest : rest ≠ []) : Known p (.sending call rest) ⟨sent, false, .reading, []⟩ []
  | cutOff {call : CtlCall} {buffer rest : List UInt8} (hlong : call.TooLong) :
      Known p (.sending call rest) ⟨buffer, false, .ended, []⟩ []
  | sent {call : CtlCall} : Known p (.receiving call []) ⟨call.wire, false, .reading, []⟩ []
  | refused {call : CtlCall} {buffer : List UInt8} (hlong : call.TooLong) :
      Known p (.receiving call []) ⟨buffer, false, .ended, []⟩ []
  | answered {call : CtlCall} {env : RequestEnv} {res : Response} {buf : List UInt8} {phase : Phase}
      (hshort : ¬ call.TooLong) (hphase : phase ≠ .ended) (hres : call.AnsweredBy res)
      (hbuf : buf <+: responseLine res) (hne : buf ≠ responseLine res) :
      Known p (.receiving call buf) ⟨[], false, phase, [responseLine res]⟩
        [(⟨.inl p, env, call.text⟩, res)]
  | returned {call : CtlCall} {env : RequestEnv} {res : Response} {phase : Phase}
      {written : List (List UInt8)} (hres : call.AnsweredBy res) :
      Known p (.returned call (normal (sortKeys res.toJson))) ⟨[], true, phase, written⟩
        [(⟨.inl p, env, call.text⟩, res)]
  | raised {call : CtlCall} {c : Conn} (hlong : call.TooLong) (hended : c.phase = .ended) :
      Known p (.raised call) c []

variable {p : ι} {ctl : Ctl} {c : Conn} {mine : List (Handled ι ν × Response)}

theorem CtlCall.wire_ne_nil (call : CtlCall) : call.wire ≠ [] :=
  List.append_ne_nil_of_right_ne_nil _ (List.cons_ne_nil _ _)

/-- One `recv`, while a part of the response has not been read: the loop is left with all of it. -/
theorem Ctl.recv_response (py : Runtime) (n : ℕ) {call : CtlCall} {res : Response}
    {buf left : List UInt8} {phase : Phase} (hres : call.AnsweredBy res)
    (hleft : buf ++ left = responseLine res) (hne : left ≠ []) :
    (Ctl.receiving call buf).recv py n ⟨[], false, phase, [responseLine res]⟩ =
      if left.drop (min (n + 1) 4096) = [] then
        (.returned call (normal (sortKeys res.toJson)), ⟨[], true, phase, [responseLine res]⟩)
      else (.receiving call (buf ++ left.take (min (n + 1) 4096)),
        ⟨[], false, phase, [responseLine res]⟩) := by
  have hunread : [responseLine res].flatten.drop buf.length = left := by
    rw [List.flatten_singleton, ← hleft, List.drop_left]
  have hall : (buf ++ left.take (min (n + 1) 4096)) ++ left.drop (min (n + 1) 4096) =
      responseLine res := by rw [List.append_assoc, List.take_append_drop, hleft]
  obtain ⟨b, bytes, rfl⟩ := List.exists_cons_of_ne_nil hne
  rw [Ctl.recv, hunread]
  dsimp only
  by_cases hdone : (b :: bytes).drop (min (n + 1) 4096) = []
  · rw [hdone, List.append_nil] at hall
    have hend : [newline] <:+ responseLine res := by
      rw [responseLine_eq]
      exact List.suffix_append _ _
    rw [hall, if_pos hend, if_pos hdone, finish_responseLine py hres]
    rfl
  · have hpart : newline ∉ buf ++ (b :: bytes).take (min (n + 1) 4096) := by
      rw [responseLine_eq] at hall
      refine not_newline_suffix
        (newline_notMem_utf8 (printable_dumps _)) ⟨_, hall⟩ fun heq ↦ ?_
      rw [heq, List.append_right_eq_self] at hall
      exact hdone hall
    rw [if_neg fun hend ↦ hpart (hend.subset List.mem_cons_self), if_neg hdone]

theorem Known.connect (h : Known p ctl c mine) (call : CtlCall) :
    Known p (ctl.connect call c).1 (ctl.connect call c).2 mine := by
  cases h with
  | idle => exact @Known.sending _ _ p call [] _ rfl call.wire_ne_nil
  | sending hwire hrest => exact .sending hwire hrest
  | cutOff hlong => exact .cutOff hlong
  | sent => exact .sent
  | refused hlong => exact .refused hlong
  | answered hshort hphase hres hbuf hne => exact .answered hshort hphase hres hbuf hne
  | returned hres => exact .returned hres
  | raised hlong hended => exact .raised hlong hended

theorem Known.sendall (h : Known p ctl c mine) (n : ℕ) :
    Known p (ctl.sendall n c).1 (ctl.sendall n c).2 mine := by
  cases h with
  | idle => exact .idle
  | @sending call sent rest hwire hrest =>
    rw [Ctl.sendall, if_neg (by simp)]
    show Known p (if rest.drop n = [] then _ else _) ⟨sent ++ rest.take n, false, .reading, []⟩ []
    have hall : (sent ++ rest.take n) ++ rest.drop n = call.wire := by
      rw [List.append_assoc, List.take_append_drop, hwire]
    split
    case isTrue hdone =>
      rw [hdone, List.append_nil] at hall
      rw [hall]
      exact .sent
    case isFalse hmore => exact .sending hall hmore
  | cutOff hlong => exact .raised hlong rfl
  | sent => exact .sent
  | refused hlong => exact .refused hlong
  | answered hshort hphase hres hbuf hne => exact .answered hshort hphase hres hbuf hne
  | returned hres => exact .returned hres
  | raised hlong hended => exact .raised hlong hended

theorem Known.recv (h : Known p ctl c mine) (py : Runtime) (n : ℕ) :
    Known p (ctl.recv py n c).1 (ctl.recv py n c).2 mine := by
  cases h with
  | idle => exact .idle
  | sending hwire hrest => exact .sending hwire hrest
  | cutOff hlong => exact .cutOff hlong
  | sent => exact .sent
  | refused hlong => exact .raised hlong rfl
  | @answered call env res buf phase hshort hphase hres hbuf hne =>
    obtain ⟨left, hleft⟩ := hbuf
    have hmore : left ≠ [] := fun hnil ↦ hne (by rw [← hleft, hnil, List.append_nil])
    rw [Ctl.recv_response py n hres hleft hmore]
    split
    case isTrue => exact .returned hres
    case isFalse hdone =>
      have hall : (buf ++ left.take (min (n + 1) 4096)) ++ left.drop (min (n + 1) 4096) =
          responseLine res := by rw [List.append_assoc, List.take_append_drop, hleft]
      refine .answered hshort hphase hres ⟨_, hall⟩ fun heq ↦ hdone ?_
      rwa [heq, List.append_right_eq_self] at hall
  | returned hres => exact .returned hres
  | raised hlong hended => exact .raised hlong hended

theorem Known.drained (h : Known p ctl c mine) : Known p ctl c.drained mine := by
  cases h with
  | idle => exact .idle
  | sending hwire hrest => exact .sending hwire hrest
  | cutOff hlong => exact .cutOff hlong
  | sent => exact .sent
  | refused hlong => exact .refused hlong
  | @answered call env res buf phase hshort hphase hres hbuf hne =>
    unfold Conn.drained
    split
    · exact .answered hshort (by simp) hres hbuf hne
    · exact .answered hshort hphase hres hbuf hne
  | returned hres =>
    unfold Conn.drained
    split
    · exact .returned hres
    · exact .returned hres
  | raised hlong hended =>
    unfold Conn.drained
    rw [if_neg (by rw [hended]; decide)]
    exact .raised hlong hended

/-- The world after a turn is that after the request it takes. -/
theorem Conn.turn_snd (c : Conn) (q : ι ⊕ ν) (env : RequestEnv) (drain : Drain) (w : World κ) :
    (c.turn G env drain w).2 =
      (handler G).after w (c.takes.toList.map fun raw ↦ (⟨q, env, raw⟩ : Handled ι ν)) := by
  unfold Conn.turn Conn.takes
  split
  case isFalse => rfl
  case isTrue =>
    rcases readline newline lineLimit c.eof c.buffer with _ | ⟨l, rest⟩ | rest
    · rfl
    · dsimp only
      split
      case isTrue hnil =>
        subst hnil
        rfl
      case isFalse =>
        unfold Conn.answer
        split <;> rfl
    · rfl

/-- A turn of a handler that does not read. -/
theorem Conn.turn_of_phase {c : Conn} (h : c.phase ≠ .reading) (env : RequestEnv) (drain : Drain)
    (w : World κ) : c.turn G env drain w = (c, w) ∧ c.takes = none :=
  ⟨if_neg h, if_neg h⟩

/-- A turn of a handler whose buffer is empty, while the client is there. -/
theorem Conn.turn_of_empty {c : Conn} (hbuffer : c.buffer = []) (heof : c.eof = false)
    (env : RequestEnv) (drain : Drain) (w : World κ) :
    c.turn G env drain w = (c, w) ∧ c.takes = none := by
  have hread : readline newline lineLimit c.eof c.buffer = .pending := by
    rw [hbuffer, heof]
    rfl
  constructor
  · rw [Conn.turn, hread]
    split <;> rfl
  · rw [Conn.takes, hread]
    split <;> rfl

/-- A turn of a handler that has a part of the request: it waits, or ends if the part alone is too
long. -/
theorem Conn.turn_of_part {call : CtlCall} {sent rest : List UInt8}
    (hwire : sent ++ rest = call.wire) (hrest : rest ≠ []) (env : RequestEnv) (drain : Drain)
    (w : World κ) :
    let c : Conn := ⟨sent, false, .reading, []⟩
    (c.turn G env drain w = (c, w) ∧ c.takes = none) ∨
      call.TooLong ∧ ∃ b, c.turn G env drain w = (⟨b, false, .ended, []⟩, w) ∧ c.takes = none := by
  intro c
  have hpre : sent <+: utf8 call.text := by
    have hsent : sent <+: utf8 call.text ++ [newline] := ⟨rest, hwire⟩
    rcases List.prefix_concat_iff.1 hsent with hall | hpre
    · refine absurd ?_ hrest
      rw [hall, CtlCall.wire, List.append_right_eq_self] at hwire
      exact hwire
    · exact hpre
  have hno : newline ∉ sent := fun hmem ↦ call.newline_notMem (hpre.subset hmem)
  rw [Conn.turn, Conn.takes, if_pos rfl, if_pos rfl]
  by_cases hlen : sent.length ≤ lineLimit
  · have hread : readline newline lineLimit false sent = .pending :=
      readline_of_notMem hno hlen false
    rw [hread]
    exact Or.inl ⟨rfl, rfl⟩
  · have hread : readline newline lineLimit false sent = .overrun _ :=
      readline_overrun (by rw [(takeWhile_of_notMem hno).1]; omega) false
    rw [hread]
    exact Or.inr ⟨Nat.lt_of_lt_of_le (Nat.lt_of_not_le hlen) hpre.length_le, _, rfl, rfl⟩

/-- A turn of a handler that has the whole request: it handles it, or ends if it is too long. -/
theorem Conn.turn_wire (call : CtlCall) (env : RequestEnv) (drain : Drain) (w : World κ) :
    let c : Conn := ⟨call.wire, false, .reading, []⟩
    (¬ call.TooLong → c.takes = some call.text ∧ c.turn G env drain w =
        (⟨[], false, drain.phase false, [responseLine (handleClient G env call.text w).1]⟩,
          (handleClient G env call.text w).2)) ∧
      (call.TooLong → c.takes = none ∧
        c.turn G env drain w = (⟨[], false, .ended, []⟩, w)) := by
  intro c
  have hraw : rawOf call.wire ≠ [] := by
    rw [call.rawOf_wire]
    exact call.text_ne_nil
  constructor
  · intro hshort
    have hread : readline newline lineLimit false call.wire = .line call.wire [] :=
      readline_line call.newline_notMem (Nat.le_of_not_lt hshort) false []
    rw [Conn.takes, Conn.turn, if_pos rfl, if_pos rfl, hread]
    dsimp only
    rw [if_neg hraw, if_neg call.wire_ne_nil, Conn.answer, if_neg hraw, call.rawOf_wire]
    exact ⟨rfl, rfl⟩
  · intro hlong
    have htake := takeWhile_body call.newline_notMem []
    have hread : readline newline lineLimit false call.wire = .overrun [] := by
      rw [readline_overrun (by rwa [CtlCall.wire, htake.1]), CtlCall.wire, htake.2]
      rfl
    rw [Conn.takes, Conn.turn, if_pos rfl, if_pos rfl, hread]
    exact ⟨rfl, rfl⟩

/-- What the turn of a handler adds to the requests of its client. -/
def takenBy (G : EgressGate κ) (c : ι ⊕ ν) (env : RequestEnv) (w : World κ) (raw : Option Str) :
    List (Handled ι ν × Response) :=
  raw.toList.map fun raw ↦ (⟨c, env, raw⟩, (handleClient G env raw w).1)

/-- **A turn keeps what is known**: it waits, or handles the request, or ends at a request that is
too long. -/
theorem Known.turn (h : Known p ctl c mine) (env : RequestEnv) (drain : Drain) (w : World κ) :
    Known p ctl (c.turn G env drain w).1 (mine ++ takenBy G (.inl p) env w c.takes) := by
  -- the handlers that do nothing
  have hquiet : c.turn G env drain w = (c, w) ∧ c.takes = none →
      Known p ctl (c.turn G env drain w).1 (mine ++ takenBy G (.inl p) env w c.takes) := by
    intro hnone
    rw [hnone.1, hnone.2]
    show Known p ctl c (mine ++ [])
    rwa [List.append_nil]
  cases h with
  | idle => exact hquiet (Conn.turn_of_empty rfl rfl env drain w)
  | @sending call sent rest hwire hrest =>
    rcases Conn.turn_of_part (G := G) hwire hrest env drain w with hnone | ⟨hlong, b, hturn, htakes⟩
    · exact hquiet hnone
    · rw [hturn, htakes]
      exact .cutOff hlong
  | cutOff hlong => exact hquiet (Conn.turn_of_phase (by simp) env drain w)
  | @sent call =>
    by_cases hlong : call.TooLong
    · obtain ⟨htakes, hturn⟩ := (Conn.turn_wire (G := G) call env drain w).2 hlong
      rw [htakes, hturn]
      exact .refused hlong
    · obtain ⟨htakes, hturn⟩ := (Conn.turn_wire (G := G) call env drain w).1 hlong
      rw [htakes, hturn]
      refine .answered hlong ?_ (call.answeredBy_handleClient G env w) List.nil_prefix ?_
      · cases drain <;> decide
      · rw [responseLine_eq]
        exact (List.append_ne_nil_of_right_ne_nil _ (List.cons_ne_nil _ _)).symm
  | refused hlong => exact hquiet (Conn.turn_of_phase (by simp) env drain w)
  | answered hshort hphase hres hbuf hne => exact hquiet (Conn.turn_of_empty rfl rfl env drain w)
  | @returned call env' res phase written hres =>
    by_cases hphase : phase = .reading
    · subst hphase
      have hread : readline newline lineLimit true [] = .line [] [] := rfl
      have hblank : rawOf [] = [] := rfl
      rw [Conn.turn, if_pos rfl, Conn.takes, if_pos rfl, hread]
      dsimp only
      rw [if_pos rfl, if_pos hblank]
      exact .returned hres
    · exact hquiet (Conn.turn_of_phase hphase env drain w)
  | raised hlong hended =>
    exact hquiet (Conn.turn_of_phase (by rw [hended]; decide) env drain w)

end Known

/-! ### Every run -/

section Runs

variable {ι ν κ : Type} [DecidableEq ι] [DecidableEq ν] (G : EgressGate κ)

/-- The entries of a client. -/
def entriesOf (c : ι ⊕ ν) (log : List (Handled ι ν × Response)) : List (Handled ι ν × Response) :=
  log.filter fun a ↦ a.1.client = c

theorem entriesOf_takenBy (c q : ι ⊕ ν) (env : RequestEnv) (w : World κ) (raw : Option Str) :
    entriesOf c (takenBy G q env w raw) = if q = c then takenBy G q env w raw else [] := by
  rcases raw with _ | raw
  · exact (ite_self _).symm
  · rw [takenBy, Option.toList_some, List.map_singleton, entriesOf]
    by_cases hq : q = c
    · rw [if_pos hq, List.filter_cons_of_pos (by simpa using hq), List.filter_nil]
    · rw [if_neg hq, List.filter_cons_of_neg (by simpa using hq), List.filter_nil]

/-- **The invariant**: the world is what the requests handled so far have made of it, and each
`egressctl` is known. -/
structure Ctls.Inv (w : World κ) (s : Ctls ι ν κ) (log : List (Handled ι ν)) : Prop where
  world : s.daemon.world = (handler G).after w log
  known : ∀ p, Known p (s.ctl p) (s.daemon.conns (.inl p))
    (entriesOf (.inl p) ((handler G).trace w log))

variable {G} {w : World κ} {s : Ctls ι ν κ} {log : List (Handled ι ν)}

theorem Ctls.inv_start (w : World κ) : (Ctls.start w : Ctls ι ν κ).Inv G w [] :=
  ⟨rfl, fun _ ↦ .idle⟩

/-- A step of an `egressctl` that keeps what is known of it. -/
theorem Ctls.Inv.change (h : s.Inv G w log) (p : ι) {f : Ctl → Conn → Ctl × Conn}
    (hf : ∀ {ctl c} {mine : List (Handled ι ν × Response)}, Known p ctl c mine →
      Known p (f ctl c).1 (f ctl c).2 mine) : (s.change p f).Inv G w log := by
  refine ⟨h.world, fun q ↦ ?_⟩
  show Known q (Function.update s.ctl p _ q) (Function.update s.daemon.conns (.inl p) _ (.inl q)) _
  by_cases hq : q = p
  · subst hq
    rw [Function.update_self, Function.update_self]
    exact hf (h.known q)
  · rw [Function.update_of_ne hq, Function.update_of_ne fun heq ↦ hq (Sum.inl.inj heq)]
    exact h.known q

/-- A step of the daemon that leaves the world, and keeps what is known of each `egressctl`. -/
theorem Ctls.Inv.serve (h : s.Inv G w log) (c : ι ⊕ ν) {f : Conn → Conn}
    (hf : ∀ {p ctl} {mine : List (Handled ι ν × Response)}, c = .inl p →
      Known p ctl (s.daemon.conns c) mine → Known p ctl (f (s.daemon.conns c)) mine) :
    ({ s with daemon := s.daemon.update c f } : Ctls ι ν κ).Inv G w log := by
  refine ⟨h.world, fun q ↦ ?_⟩
  show Known q (s.ctl q) (Function.update s.daemon.conns c _ (.inl q)) _
  by_cases hq : c = .inl q
  · subst hq
    rw [Function.update_self]
    exact hf rfl (h.known q)
  · rw [Function.update_of_ne (Ne.symm hq)]
    exact h.known q

/-- A turn of a handler. -/
theorem Ctls.Inv.turn (h : s.Inv G w log) (c : ι ⊕ ν) (env : RequestEnv) (drain : Drain) :
    (s.serve G (.turn c env drain)).Inv G w
      (log ++ (s.daemon.conns c).takes.toList.map fun raw ↦ ⟨c, env, raw⟩) := by
  refine ⟨?_, fun p ↦ ?_⟩
  · rw [Machine.after_append, ← h.world]
    exact (s.daemon.conns c).turn_snd c env drain s.daemon.world
  · have htrace : (handler G).trace s.daemon.world
        ((s.daemon.conns c).takes.toList.map fun raw ↦ (⟨c, env, raw⟩ : Handled ι ν)) =
          takenBy G c env s.daemon.world (s.daemon.conns c).takes := by
      rcases (s.daemon.conns c).takes with _ | raw <;> rfl
    rw [Machine.trace_append, ← h.world, htrace, entriesOf, List.filter_append]
    show Known p (s.ctl p) (Function.update s.daemon.conns c _ (.inl p)) (entriesOf (.inl p) _ ++
      entriesOf (.inl p) (takenBy G c env s.daemon.world (s.daemon.conns c).takes))
    rw [entriesOf_takenBy]
    by_cases hp : c = .inl p
    · subst hp
      rw [Function.update_self, if_pos rfl]
      exact (h.known p).turn env drain s.daemon.world
    · rw [Function.update_of_ne (Ne.symm hp), if_neg hp, List.append_nil]
      exact h.known p

/-- **Every step keeps the invariant.** -/
theorem Ctls.Inv.step (h : s.Inv G w log) (e : CtlsStep ι ν) :
    ((egressctls G).step s e).1.Inv G w (log ++ ((egressctls G).step s e).2.toList) := by
  have hquiet : log ++ [] = log := List.append_nil _
  cases e with
  | connect p call =>
    show (s.change p _).Inv G w (log ++ [])
    rw [hquiet]
    exact h.change p fun hknown ↦ hknown.connect call
  | sendall p n =>
    show (s.change p _).Inv G w (log ++ [])
    rw [hquiet]
    exact h.change p fun hknown ↦ hknown.sendall n
  | recv p n =>
    show (s.change p _).Inv G w (log ++ [])
    rw [hquiet]
    exact h.change p fun hknown ↦ hknown.recv G.py n
  | turn c env drain =>
    have hturn := h.turn c env drain
    rw [← Option.toList_map] at hturn
    exact hturn
  | drained c =>
    show (s.serve G (.drained c)).Inv G w (log ++ [])
    rw [hquiet]
    exact h.serve c fun _ hknown ↦ hknown.drained
  | feed q bytes =>
    show (s.serve G (.feed (.inr q) bytes)).Inv G w (log ++ [])
    rw [hquiet]
    exact h.serve (.inr q) fun heq ↦ nomatch heq
  | hangUp q =>
    show (s.serve G (.hangUp (.inr q))).Inv G w (log ++ [])
    rw [hquiet]
    exact h.serve (.inr q) (f := Conn.hangUp) fun heq ↦ nomatch heq

/-- **The invariant holds after every run.** -/
theorem Ctls.inv_after (w : World κ) (run : List (CtlsStep ι ν)) :
    ((egressctls G).after (Ctls.start w) run).Inv G w (handled G w run) := by
  refine Machine.inv_trace_of_mem (I := fun (s : Ctls ι ν κ) tr ↦ s.Inv G w (tr.filterMap Prod.snd))
    (Ctls.inv_start w) fun s tr e _ h ↦ ?_
  have hsplit : (tr ++ [(e, ((egressctls G).step s e).2)]).filterMap Prod.snd =
      tr.filterMap Prod.snd ++ ((egressctls G).step s e).2.toList := by
    rw [List.filterMap_append]
    rcases ((egressctls G).step s e).2 with _ | a <;> rfl
  rw [hsplit]
  exact h.step e

variable (G)

/-- **The daemon is linearizable for its clients.** Take any number of `egressctl` processes and of
other programs, and any interleaving of the bytes they send and receive with the turns of the
daemon. What the daemon has done is what the requests it has handled do one after the other, and
this sequence only grows. A call of `egressctl` is in it as it was meant, at most once; not before
it is sent, and always when it has returned; and what it returns is the response it has there, with
its own `id`, and an exit code that tells whether it succeeded. A call raises only if its request
does not fit a line, and then it is not in the sequence. -/
theorem egressctl_linearisable (w : World κ) (run : List (CtlsStep ι ν)) :
    let s := (egressctls G).after (Ctls.start w) run
    s.daemon.world = (handler G).after w (handled G w run) ∧
      (∀ more, handled G w run <+: handled G w (run ++ more)) ∧
      ∀ p, let mine := entriesOf (.inl p) (answers G w run)
        match s.ctl p with
        | .idle | .sending _ _ => mine = []
        | .receiving call _ =>
          mine = [] ∨ ∃ env res, mine = [(⟨.inl p, env, call.text⟩, res)]
        | .returned call resp => ∃ env res, mine = [(⟨.inl p, env, call.text⟩, res)] ∧
          res.id = .str call.reqId ∧ resp = normal (sortKeys res.toJson) ∧
          exitCode resp = if res.ok then 0 else 2
        | .raised call => mine = [] ∧ lineLimit < (utf8 call.text).length := by
  intro s
  have hinv : s.Inv G w (handled G w run) := Ctls.inv_after w run
  refine ⟨hinv.world, fun more ↦ ?_, fun p ↦ ?_⟩
  · rw [handled, handled, Machine.trace_append, List.filterMap_append]
    exact List.prefix_append _ _
  · intro mine
    have hknown : Known p (s.ctl p) (s.daemon.conns (.inl p)) mine := hinv.known p
    clear_value mine
    generalize s.ctl p = ctl at hknown
    generalize s.daemon.conns (.inl p) = c at hknown
    cases hknown with
    | idle | sending | cutOff => rfl
    | sent | refused => exact Or.inl rfl
    | answered => exact Or.inr ⟨_, _, rfl⟩
    | returned hres => exact ⟨_, _, rfl, hres.id_eq, rfl, exitCode_toJson hres.plain⟩
    | raised hlong => exact ⟨rfl, hlong⟩

/-! ### Getting through -/

variable {G}

/-- A step of an `egressctl`, as far as it is concerned. -/
theorem Ctls.change_self (s : Ctls ι ν κ) (p : ι) (f : Ctl → Conn → Ctl × Conn) :
    ((s.change p f).ctl p, (s.change p f).daemon.conns (.inl p)) =
      f (s.ctl p) (s.daemon.conns (.inl p)) :=
  Prod.ext (Function.update_self _ _ _) (Function.update_self _ _ _)

/-- A step of its handler, as far as it is concerned. -/
theorem Ctls.serve_self (s : Ctls ι ν κ) (p : ι) (env : RequestEnv) :
    (s.serve G (.drained (.inl p))).daemon.conns (.inl p) = (s.daemon.conns (.inl p)).drained ∧
      (s.serve G (.turn (.inl p) env .done)).daemon.conns (.inl p) =
        ((s.daemon.conns (.inl p)).turn G env .done s.daemon.world).1 :=
  ⟨Function.update_self _ _ _, Function.update_self _ _ _⟩

/-- A handler that has ended stays as it is. -/
theorem Ctls.conns_of_ended (s : Ctls ι ν κ) (p : ι) (env : RequestEnv)
    (hended : (s.daemon.conns (.inl p)).phase = .ended) :
    ((s.serve G (.drained (.inl p))).serve G (.turn (.inl p) env .done)).daemon.conns (.inl p) =
      s.daemon.conns (.inl p) := by
  have hdrained : (s.daemon.conns (.inl p)).drained = s.daemon.conns (.inl p) :=
    if_neg (by rw [hended]; decide)
  rw [(Ctls.serve_self (G := G) _ p env).2, (s.serve_self (G := G) p env).1, hdrained,
    (Conn.turn_of_phase (by rw [hended]; decide) env .done _).1]

/-- A handler that has nothing to read waits on. -/
theorem Ctls.conns_of_empty (s : Ctls ι ν κ) (p : ι) (env : RequestEnv)
    (hbuffer : (s.daemon.conns (.inl p)).buffer = [])
    (heof : (s.daemon.conns (.inl p)).eof = false) :
    ((s.serve G (.drained (.inl p))).serve G (.turn (.inl p) env .done)).daemon.conns (.inl p) =
      (s.daemon.conns (.inl p)).drained := by
  have hdrained : (s.daemon.conns (.inl p)).drained.buffer = [] ∧
      (s.daemon.conns (.inl p)).drained.eof = false := by
    unfold Conn.drained
    split <;> exact ⟨hbuffer, heof⟩
  rw [(Ctls.serve_self (G := G) _ p env).2, (s.serve_self (G := G) p env).1,
    (Conn.turn_of_empty hdrained.1 hdrained.2 env .done _).1]

/-- **A response is read to its end**, however few bytes each `recv` gets. -/
theorem returns_of_answered (p : ι) (n : ℕ) {call : CtlCall} {res : Response} {phase : Phase}
    (hres : call.AnsweredBy res) {left buf : List UInt8} (hleft : buf ++ left = responseLine res)
    (hne : left ≠ []) (s : Ctls ι ν κ) (hctl : s.ctl p = .receiving call buf)
    (hconn : s.daemon.conns (.inl p) = ⟨[], false, phase, [responseLine res]⟩) :
    ∃ k, ((egressctls G).after s (List.replicate k (.recv p n))).ctl p =
      .returned call (normal (sortKeys res.toJson)) := by
  induction hlen : left.length using Nat.strong_induction_on generalizing left buf s with
  | _ len ih =>
    have hrecv := @Ctl.recv_response G.py n _ _ _ _ phase hres hleft hne
    have hself := s.change_self p (Ctl.recv G.py n)
    rw [hctl, hconn, hrecv] at hself
    by_cases hdone : left.drop (min (n + 1) 4096) = []
    · rw [if_pos hdone] at hself
      exact ⟨1, (Prod.mk.inj hself).1⟩
    · rw [if_neg hdone] at hself
      obtain ⟨hctl', hconn'⟩ := Prod.mk.inj hself
      have hshorter : (left.drop (min (n + 1) 4096)).length < len := by
        have := List.length_pos_of_ne_nil hne
        rw [List.length_drop]
        omega
      obtain ⟨k, hk⟩ := ih _ hshorter (by rw [List.append_assoc, List.take_append_drop, hleft])
        hdone _ hctl' hconn' rfl
      exact ⟨k + 1, hk⟩

/-- Where the handler has ended without a response, the next `recv` raises. -/
theorem raises_of_ended (p : ι) (n : ℕ) {call : CtlCall} {buffer : List UInt8} (s : Ctls ι ν κ)
    (hctl : s.ctl p = .receiving call [])
    (hconn : s.daemon.conns (.inl p) = ⟨buffer, false, .ended, []⟩) :
    ((egressctls G).after s (List.replicate 1 (.recv p n))).ctl p = .raised call := by
  have hself := s.change_self p (Ctl.recv G.py n)
  rw [hctl, hconn] at hself
  exact (Prod.mk.inj hself).1

/-- What is left to do for an `egressctl` that has sent its request, once its handler has had a
turn. -/
theorem ends_of_turn (p : ι) (n : ℕ) {call : CtlCall} (env : RequestEnv) (s : Ctls ι ν κ)
    (hctl : s.ctl p = .receiving call [])
    (hconn : s.daemon.conns (.inl p) = ⟨call.wire, false, .reading, []⟩) :
    ∃ k, let t := (egressctls G).after (s.serve G (.turn (.inl p) env .done))
          (List.replicate k (.recv p n))
      if (utf8 call.text).length ≤ lineLimit then ∃ resp, t.ctl p = .returned call resp
      else t.ctl p = .raised call := by
  have hturned := (s.serve_self (G := G) p env).2
  rw [hconn] at hturned
  split
  case isTrue hshort =>
    rw [((Conn.turn_wire (G := G) call env .done s.daemon.world).1 (Nat.not_lt.2 hshort)).2]
      at hturned
    obtain ⟨k, hk⟩ := returns_of_answered (G := G) p n
      (call.answeredBy_handleClient G env s.daemon.world) (List.nil_append _)
      (by
        rw [responseLine_eq]
        exact List.append_ne_nil_of_right_ne_nil _ (List.cons_ne_nil _ _))
      (s.serve G (.turn (.inl p) env .done)) hctl hturned
    exact ⟨k, _, hk⟩
  case isFalse hlong =>
    rw [((Conn.turn_wire (G := G) call env .done s.daemon.world).2 (Nat.lt_of_not_le hlong)).2]
      at hturned
    exact ⟨1, raises_of_ended p n _ hctl hturned⟩

variable (G)

/-- **A call comes to its end** as soon as the daemon gives it a turn, wherever it stands, whatever
has happened before, and however few bytes each `recv` gets: it returns if its request fits a line,
and raises if it does not. -/
theorem egressctl_returns (w : World κ) (run : List (CtlsStep ι ν)) (p : ι) (env : RequestEnv)
    (n : ℕ) :
    let s := (egressctls G).after (Ctls.start w) run
    match s.ctl p with
    | .sending call _ | .receiving call _ =>
      ∃ k, let t := (egressctls G).after s (.sendall p call.wire.length :: .drained (.inl p) ::
            .turn (.inl p) env .done :: List.replicate k (.recv p n))
        if (utf8 call.text).length ≤ lineLimit then ∃ resp, t.ctl p = .returned call resp
        else t.ctl p = .raised call
    | .idle | .returned _ _ | .raised _ => True := by
  intro s
  have hknown : Known p (s.ctl p) (s.daemon.conns (.inl p)) _ :=
    (Ctls.inv_after (G := G) w run).known p
  generalize entriesOf (.inl p) ((handler G).trace w (handled G w run)) = mine at hknown
  generalize hctl : s.ctl p = ctl at hknown
  generalize hconn : s.daemon.conns (.inl p) = c at hknown
  cases hknown with
  | idle | returned | raised => exact trivial
  | @sending call sent rest hwire hrest =>
    have hself := s.change_self p (Ctl.sendall call.wire.length)
    have hle : rest.length ≤ call.wire.length := by
      rw [← hwire, List.length_append]
      omega
    rw [hctl, hconn, Ctl.sendall, if_neg (by simp), if_pos (List.drop_eq_nil_of_le hle),
      List.take_of_length_le hle] at hself
    obtain ⟨hctl', hconn'⟩ := Prod.mk.inj hself
    refine ends_of_turn p n env _ hctl' ((Ctls.serve_self (G := G) _ p env).1.trans
      ((congrArg Conn.drained hconn').trans ?_))
    rw [← hwire]
    rfl
  | @cutOff call buffer rest hlong =>
    have hself := s.change_self p (Ctl.sendall call.wire.length)
    rw [hctl, hconn, Ctl.sendall, if_pos rfl] at hself
    refine ⟨0, ?_⟩
    rw [if_neg (Nat.not_le.2 hlong)]
    exact (Prod.mk.inj hself).1
  | @sent call =>
    have hself := s.change_self p (Ctl.sendall call.wire.length)
    rw [hctl, hconn] at hself
    obtain ⟨hctl', hconn'⟩ := Prod.mk.inj hself
    exact ends_of_turn p n env _ hctl' ((Ctls.serve_self (G := G) _ p env).1.trans
      (congrArg Conn.drained hconn'))
  | @refused call buffer hlong =>
    have hself := s.change_self p (Ctl.sendall call.wire.length)
    rw [hctl, hconn] at hself
    obtain ⟨hctl', hconn'⟩ := Prod.mk.inj hself
    refine ⟨1, ?_⟩
    rw [if_neg (Nat.not_le.2 hlong)]
    have hended := congrArg Conn.phase hconn'
    exact raises_of_ended p n _ hctl' ((Ctls.conns_of_ended _ p env hended).trans hconn')
  | @answered call env' res buf phase hshort hphase hres hbuf hne =>
    have hself := s.change_self p (Ctl.sendall call.wire.length)
    rw [hctl, hconn] at hself
    obtain ⟨hctl', hconn'⟩ := Prod.mk.inj hself
    obtain ⟨left, hleft⟩ := hbuf
    have hmore : left ≠ [] := fun hnil ↦ hne (by rw [← hleft, hnil, List.append_nil])
    have hwaits : ∃ phase', Conn.drained ⟨[], false, phase, [responseLine res]⟩ =
        ⟨[], false, phase', [responseLine res]⟩ := by
      unfold Conn.drained
      split <;> exact ⟨_, rfl⟩
    obtain ⟨phase', hwaits⟩ := hwaits
    have hserved := Ctls.conns_of_empty (G := G) (s.change p (Ctl.sendall call.wire.length)) p env
      (by rw [hconn']) (by rw [hconn'])
    rw [hconn', hwaits] at hserved
    obtain ⟨k, hk⟩ := returns_of_answered p n hres hleft hmore (Ctls.serve G (Ctls.serve G
      (s.change p (Ctl.sendall call.wire.length)) (.drained (.inl p))) (.turn (.inl p) env .done))
      hctl' hserved
    refine ⟨k, ?_⟩
    rw [if_pos (Nat.le_of_not_lt hshort)]
    exact ⟨_, hk⟩

end Runs

end SourceOS.Gate
