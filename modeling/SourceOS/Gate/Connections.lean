import SourceOS.Foundation.LineReader
import SourceOS.Foundation.SortedKeys
import SourceOS.Gate.Daemon

/-!
# The daemon's connections

`serve` and the loop of `handle_client` in `daemon.py`: any number of clients, each with a reader
that collects its bytes and a handler that takes them line by line. The handlers run in one event
loop, so a turn — from the line that `readline` returns to the answer that is written — is not
interrupted, and everything between two turns is interleaving.

* A line that is longer than the limit makes `readline` raise. That is outside the inner `try`: the
  handler ends and the client is hung up on, without an answer.
* Any other line is decoded, stripped, and answered unless it is blank; what the request does and
  whether it fails is `handleClient`'s business. Writing an answer may take until the client reads,
  and fails once the client has hung up.

`json.dumps` writes whatever `json.loads` returns, so writing an answer does not raise.

`Conn.Serves` is the invariant of a connection: what has arrived splits into the lines taken and the
rest, and the answers written are those of the lines taken. `one_answer_per_line` is the result for
every run, and `overlong_line_unanswered` shows what a line beyond the limit costs.
-/

namespace SourceOS.Gate

open Text Json LineReader

/-! ### Answers -/

/-- The response as the dictionary that `ok_response` and `err_response` make. -/
def Response.toJson : Response → Json PyChar
  | .okResponse id result => .obj [("id".toList, id), ("ok".toList, .bool true),
      ("result".toList, result), ("error".toList, .null)]
  | .errResponse id error => .obj [("id".toList, id), ("ok".toList, .bool false),
      ("result".toList, .null), ("error".toList, .obj [("code".toList, .str error.code),
        ("message".toList, .str error.message)])]

/-- The bytes of a response. -/
def responseLine (r : Response) : List UInt8 :=
  utf8 (dumps (sortKeys r.toJson) ++ ['\n'])

/-- The `id` of a response. -/
def Response.id : Response → Json PyChar
  | .okResponse id _ => id
  | .errResponse id _ => id

/-- The `id` that a request line asks the answer to carry: its own, if it is a JSON object. -/
def idOf (py : Runtime) (raw : Str) : Json PyChar :=
  match py.loads raw with
  | some (.obj ms) => ((Json.obj ms).get? "id".toList).getD .null
  | _ => .null

/-- **Every answer carries the `id` of its request**, whatever the request does. -/
theorem id_handleClient {κ : Type} (G : EgressGate κ) (env : RequestEnv) (raw : Str) (w : World κ) :
    (handleClient G env raw w).1.id = idOf G.py raw := by
  unfold handleClient idOf
  rcases G.py.loads raw with - | (_ | _ | _ | _ | _ | _ | ms)
  case some.obj =>
    dsimp only
    rcases (serveRequest G env (.obj ms)).run w with ⟨e | result, w'⟩
    · rfl
    · rfl
  all_goals rfl

/-! ### Connections -/

/-- What ends a line. -/
def newline : UInt8 := 10

/-- The limit of `start_unix_server`, 64 KiB. -/
def lineLimit : ℕ := 2 ^ 16

/-- `line.decode("utf-8", errors="replace").strip()`. -/
def rawOf (l : List UInt8) : Str :=
  strip (decodeReplace l)

/-- Where the handler of a connection stands: it reads, it waits in `drain`, or it has ended. -/
inductive Phase
  | reading
  | draining
  | ended
deriving DecidableEq

/-- A connection. -/
structure Conn where
  /-- What has arrived and has not been read. -/
  buffer : List UInt8
  /-- The client has hung up. -/
  eof : Bool
  /-- Where the handler stands. -/
  phase : Phase
  /-- What `write` was called with. -/
  written : List (List UInt8)

/-- A connection that has just been made. -/
def Conn.accepted : Conn := ⟨[], false, .reading, []⟩

/-- How `drain` ends: at once, later, or with the error of a lost connection. -/
inductive Drain
  | done
  | waits
  | fails

/-- Where `drain` leaves the handler. A connection is lost only when the client has hung up. -/
def Drain.phase (eof : Bool) : Drain → Phase
  | .done => .reading
  | .waits => .draining
  | .fails => if eof then .ended else .reading

section Turn

variable {κ : Type} (G : EgressGate κ)

/-- A line is answered, unless it is blank. -/
def Conn.answer (env : RequestEnv) (drain : Drain) (l rest : List UInt8) (c : Conn) (w : World κ) :
    Conn × World κ :=
  if rawOf l = [] then ({ c with buffer := rest }, w)
  else
    let (res, w') := handleClient G env (rawOf l) w
    ({ c with
        buffer := rest
        phase := drain.phase c.eof
        written := c.written ++ [responseLine res] }, w')

/-- One turn of the loop of `handle_client`. -/
def Conn.turn (env : RequestEnv) (drain : Drain) (c : Conn) (w : World κ) : Conn × World κ :=
  if c.phase = .reading then
    match readline newline lineLimit c.eof c.buffer with
    | .pending => (c, w)
    | .overrun rest => ({ c with buffer := rest, phase := .ended }, w)
    | .line l rest =>
      if l = [] then ({ c with phase := .ended }, w) else c.answer G env drain l rest w
  else (c, w)

end Turn

/-- Bytes arrive. -/
def Conn.feed (bytes : List UInt8) (c : Conn) : Conn :=
  if c.eof then c else { c with buffer := c.buffer ++ bytes }

/-- The client has read enough for `drain` to return. -/
def Conn.drained (c : Conn) : Conn :=
  if c.phase = .draining then { c with phase := .reading } else c

/-- The daemon: the world its gate acts on, and its connections. -/
structure Server (ι κ : Type) where
  world : World κ
  conns : ι → Conn

/-- What happens next: bytes of a client arrive, it hangs up, its handler takes a turn, or has
drained. -/
inductive ServerStep (ι : Type)
  | feed (p : ι) (bytes : List UInt8)
  | hangUp (p : ι)
  | turn (p : ι) (env : RequestEnv) (drain : Drain)
  | drained (p : ι)

variable {ι κ : Type} [DecidableEq ι]

/-- One connection is changed. -/
def Server.update (s : Server ι κ) (p : ι) (f : Conn → Conn) : Server ι κ :=
  { s with conns := Function.update s.conns p (f (s.conns p)) }

/-- The daemon as a machine. -/
def server (G : EgressGate κ) : Machine (Server ι κ) (ServerStep ι) Unit where
  step s
    | .feed p bytes => (s.update p (Conn.feed bytes), ())
    | .hangUp p => (s.update p fun c ↦ { c with eof := true }, ())
    | .turn p env drain =>
      let (c, w) := (s.conns p).turn G env drain s.world
      (⟨w, Function.update s.conns p c⟩, ())
    | .drained p => (s.update p Conn.drained, ())

/-- The daemon when it starts to serve. -/
def Server.start (w : World κ) : Server ι κ :=
  ⟨w, fun _ ↦ .accepted⟩

/-- The bytes of a client, in the order in which they arrive. -/
def fedTo (p : ι) (run : List (ServerStep ι)) : List UInt8 :=
  run.flatMap fun
    | .feed q bytes => if q = p then bytes else []
    | _ => []

/-- The requests among some lines: those that are not blank. -/
def requests (ls : List (List UInt8)) : List Str :=
  (ls.map rawOf).filter (· ≠ [])

/-- **What was written answers the request**: it is one line, which ends in its only newline, and
the line is the text of a JSON object that carries the `id` asked for. As everywhere in the object,
the members of an `id` stand in the order of their keys. -/
def Answers (py : Runtime) (raw : Str) (bytes : List UInt8) : Prop :=
  ∃ (text : Str) (ms : List (PyStr × Json PyChar)),
    bytes = utf8 text ++ [newline] ∧ newline ∉ utf8 text ∧ text = dumps (.obj ms) ∧
      (Json.obj ms).get? "id".toList = some (sortKeys (idOf py raw))

/-- Nothing more happens on a connection until bytes arrive or the client hangs up. -/
def Conn.AtRest (c : Conn) : Prop :=
  c.phase = .ended ∨
    c.phase = .reading ∧ readline newline lineLimit c.eof c.buffer = .pending

/-! ### What a connection keeps -/

theorem responseLine_eq (res : Response) :
    responseLine res = utf8 (dumps (sortKeys res.toJson)) ++ [newline] := by
  rw [responseLine, utf8, List.flatMap_append]
  rfl

/-- **A response line is an answer.** -/
theorem answers_responseLine {py : Runtime} {raw : Str} {res : Response}
    (h : res.id = idOf py raw) : Answers py raw (responseLine res) := by
  have hnames : (["id", "ok", "result", "error"].map PyStr.lit).Nodup := by decide
  obtain ⟨ms, hms, hkeys, hid⟩ : ∃ ms, res.toJson = .obj ms ∧ (ms.map Prod.fst).Nodup ∧
      (Json.obj ms).get? "id".toList = some res.id := by
    cases res with
    | okResponse id result => exact ⟨_, rfl, hnames, rfl⟩
    | errResponse id error => exact ⟨_, rfl, hnames, rfl⟩
  refine ⟨_, (sortMembers ms).insertionSort KeyLE, ?_,
    newline_notMem_utf8 (printable_dumps _), rfl, ?_⟩
  · rw [responseLine_eq, hms, sortKeys]
  · have hget := get?_sortKeys hkeys (PyStr.ofStr "id".toList)
    rwa [hid, Option.map_some, h] at hget

theorem fedTo_append (p : ι) (run more : List (ServerStep ι)) :
    fedTo p (run ++ more) = fedTo p run ++ fedTo p more :=
  List.flatMap_append

theorem requests_append (ls ms : List (List UInt8)) :
    requests (ls ++ ms) = requests ls ++ requests ms := by
  rw [requests, List.map_append, List.filter_append]
  rfl

theorem requests_of_blank {l : List UInt8} (h : rawOf l = []) : requests [l] = [] := by
  simp [requests, h]

theorem requests_of_ne_nil {l : List UInt8} (h : rawOf l ≠ []) : requests [l] = [rawOf l] := by
  simp [requests, h]

section Serves

variable {G : EgressGate κ} {received rest : List UInt8} {taken : List (List UInt8)} {c : Conn}

/-- The invariant of a connection whose client has not hung up: the lines taken have been answered,
none of them is too long, and the handler has ended only at a line that is. -/
structure Conn.Serves (py : Runtime) (received : List UInt8) (taken : List (List UInt8))
    (rest : List UInt8) (c : Conn) : Prop where
  /-- What has arrived is the lines taken and the rest. -/
  split : received = taken.flatten ++ rest
  /-- The lines taken are lines. -/
  isLine : ∀ l ∈ taken, IsLine newline l
  /-- None is too long. -/
  short : ∀ l ∈ taken, l.length ≤ lineLimit + 1
  /-- The answers written are those of the lines taken. -/
  answered : List.Forall₂ (Answers py) (requests taken) c.written
  /-- The client is there. -/
  alive : c.eof = false
  /-- The rest is what the reader holds. -/
  held : c.phase ≠ .ended → c.buffer = rest
  /-- The handler has ended because the rest begins with a line that is too long. -/
  overrun : c.phase = .ended → lineLimit < (rest.takeWhile (· ≠ newline)).length

theorem Conn.serves_accepted (py : Runtime) : Conn.accepted.Serves py [] [] [] :=
  ⟨rfl, by simp, by simp, .nil, rfl, fun _ ↦ rfl, fun h ↦ absurd h (by simp [Conn.accepted])⟩

/-- Bytes that arrive join the rest. -/
theorem Conn.Serves.feed (h : c.Serves G.py received taken rest) (bytes : List UInt8) :
    (c.feed bytes).Serves G.py (received ++ bytes) taken (rest ++ bytes) := by
  have hfeed : c.feed bytes = { c with buffer := c.buffer ++ bytes } := by
    rw [Conn.feed, h.alive]
    rfl
  rw [hfeed]
  refine ⟨by rw [h.split, List.append_assoc], h.isLine, h.short, h.answered, h.alive,
    fun hphase ↦ congrArg (· ++ bytes) (h.held hphase), fun hphase ↦ ?_⟩
  -- what stands before the first terminator of the rest only grows
  have hlong := h.overrun hphase
  rw [List.takeWhile_append]
  split
  · rw [List.length_append]
    have := (List.takeWhile_prefix (· ≠ newline) (l := rest)).length_le
    omega
  · exact hlong

theorem Conn.Serves.drained (h : c.Serves G.py received taken rest) :
    c.drained.Serves G.py received taken rest := by
  unfold Conn.drained
  split
  case isTrue hphase =>
    exact ⟨h.split, h.isLine, h.short, h.answered, h.alive,
      fun _ ↦ h.held (by rw [hphase]; simp), fun h ↦ absurd h (by simp)⟩
  case isFalse => exact h

/-- A line that is taken is answered, or blank. -/
theorem Conn.Serves.answer {body after : List UInt8}
    (h : c.Serves G.py received taken (body ++ newline :: after)) (hreading : c.phase = .reading)
    (hbody : newline ∉ body) (hlen : body.length ≤ lineLimit) (env : RequestEnv) (drain : Drain)
    (w : World κ) :
    (c.answer G env drain (body ++ [newline]) after w).1.Serves G.py received
      (taken ++ [body ++ [newline]]) after := by
  have hsplit : received = (taken ++ [body ++ [newline]]).flatten ++ after := by
    rw [h.split]
    simp
  have hline : ∀ l ∈ taken ++ [body ++ [newline]], IsLine newline l := by
    rw [List.forall_mem_append, List.forall_mem_singleton]
    exact ⟨h.isLine, body, hbody, rfl⟩
  have hshort : ∀ l ∈ taken ++ [body ++ [newline]], l.length ≤ lineLimit + 1 := by
    rw [List.forall_mem_append, List.forall_mem_singleton]
    exact ⟨h.short, by simpa using hlen⟩
  unfold Conn.answer
  split
  case isTrue hblank =>
    refine ⟨hsplit, hline, hshort, ?_, h.alive, fun _ ↦ rfl, fun hphase ↦ ?_⟩
    · rw [requests_append, requests_of_blank hblank, List.append_nil]
      exact h.answered
    · exact absurd (hreading.symm.trans hphase) (by decide)
  case isFalse hraw =>
    refine ⟨hsplit, hline, hshort, ?_, h.alive, fun _ ↦ rfl, fun hphase ↦ ?_⟩
    · rw [requests_append, requests_of_ne_nil hraw]
      exact List.rel_append h.answered 
        (.cons (answers_responseLine (id_handleClient G env _ w)) .nil)
    · have hdrain : ∀ d : Drain, d.phase c.eof ≠ .ended := by
        intro d
        rw [h.alive]
        cases d <;> decide
      exact absurd hphase (hdrain drain)

/-- **One turn keeps the invariant**: it takes a line, or waits, or ends at a line that is too
long. -/
theorem Conn.Serves.turn (h : c.Serves G.py received taken rest) (env : RequestEnv) (drain : Drain)
    (w : World κ) :
    ∃ taken' rest', (c.turn G env drain w).1.Serves G.py received taken' rest' := by
  unfold Conn.turn
  split
  case isFalse => exact ⟨taken, rest, h⟩
  case isTrue hreading =>
    have hbuffer : c.buffer = rest := h.held (by rw [hreading]; simp)
    have hreads : readline newline lineLimit c.eof c.buffer =
        readline newline lineLimit false rest := by rw [h.alive, hbuffer]
    rcases @readline_cases _ _ newline lineLimit rest with
      ⟨body, after, hbody, hlen, rfl, hread⟩ | ⟨-, -, hread⟩ | ⟨hlong, after, hread⟩
    · rw [hreads, hread]
      refine ⟨taken ++ [body ++ [newline]], after, ?_⟩
      dsimp only
      rw [if_neg (by simp)]
      exact h.answer hreading hbody hlen env drain w
    · rw [hreads, hread]
      exact ⟨taken, rest, h⟩
    · rw [hreads, hread]
      exact ⟨taken, rest, h.split, h.isLine, h.short, h.answered, h.alive,
        fun hphase ↦ absurd rfl hphase, fun _ ↦ hlong⟩

end Serves

/-! ### Coming to rest -/

section Rest

variable (G : EgressGate κ) {c : Conn}

/-- A turn at rest changes nothing. -/
theorem Conn.AtRest.turn (h : c.AtRest) (env : RequestEnv) (drain : Drain) (w : World κ) :
    (c.turn G env drain w).1 = c := by
  unfold Conn.turn
  rcases h with hended | ⟨hreading, hpending⟩
  · rw [if_neg (by rw [hended]; decide)]
  · rw [if_pos hreading, hpending]

/-- A turn of a handler that does not wait for its client brings it to rest, or takes a line. -/
theorem Conn.turn_progress (halive : c.eof = false) (hphase : c.phase ≠ .draining)
    (env : RequestEnv) (w : World κ) :
    (c.turn G env .done w).1.eof = false ∧ (c.turn G env .done w).1.phase ≠ .draining ∧
      ((c.turn G env .done w).1.AtRest ∨
        (c.turn G env .done w).1.buffer.length < c.buffer.length) := by
  rcases hp : c.phase with - | - | -
  case draining => exact absurd hp hphase
  case ended =>
    have hrest : c.AtRest := Or.inl hp
    rw [hrest.turn G]
    exact ⟨halive, hphase, Or.inl hrest⟩
  case reading =>
    rcases @readline_cases _ _ newline lineLimit c.buffer with
      ⟨body, after, hbody, hlen, hsplit, hread⟩ | ⟨-, -, hread⟩ | ⟨-, after, hread⟩
    · have hshorter : after.length < c.buffer.length := by
        rw [hsplit, List.length_append, List.length_cons]
        omega
      rw [Conn.turn, if_pos hp, halive, hread]
      dsimp only
      rw [if_neg (by simp), Conn.answer]
      split
      · exact ⟨halive, hphase, Or.inr hshorter⟩
      · exact ⟨halive, by simp [Drain.phase], Or.inr hshorter⟩
    · have hrest : c.AtRest := Or.inr ⟨hp, by rw [halive]; exact hread⟩
      rw [hrest.turn G]
      exact ⟨halive, hphase, Or.inl hrest⟩
    · rw [Conn.turn, if_pos hp, halive, hread]
      exact ⟨rfl, by simp, Or.inl (Or.inl rfl)⟩

/-- **Enough turns bring a connection to rest**, whatever the requests do: as many as there are
bytes to read are enough. -/
theorem atRest_of_turns (p : ι) (envs : List RequestEnv) {s : Server ι κ}
    (halive : (s.conns p).eof = false) (hphase : (s.conns p).phase ≠ .draining)
    (hlen : (s.conns p).AtRest ∨ (s.conns p).buffer.length ≤ envs.length) :
    (((server G).after s (envs.map fun env ↦ .turn p env .done)).conns p).AtRest := by
  induction envs generalizing s with
  | nil =>
    rcases hlen with hrest | hlen
    · exact hrest
    · have hnil : (s.conns p).buffer = [] := List.length_eq_zero_iff.1 (Nat.le_zero.1 hlen)
      show (s.conns p).AtRest
      rcases hp : (s.conns p).phase with - | - | -
      · refine Or.inr ⟨hp, ?_⟩
        rw [halive, hnil]
        rfl
      · exact absurd hp hphase
      · exact Or.inl hp
  | cons env envs ih =>
    obtain ⟨halive', hphase', hprogress⟩ := (s.conns p).turn_progress G halive hphase env s.world
    have hstep : ((server G).step s (.turn p env .done)).1.conns p =
        ((s.conns p).turn G env .done s.world).1 := Function.update_self _ _ _
    refine ih (by rw [hstep]; exact halive') (by rw [hstep]; exact hphase') ?_
    rw [hstep]
    rcases hlen with hrest | hlen
    · rw [hrest.turn G]
      exact Or.inl hrest
    · refine hprogress.imp_right fun hshorter ↦ ?_
      rw [List.length_cons] at hlen
      omega

end Rest

/-! ### Every run -/

section Runs

variable {G : EgressGate κ} {p : ι} {run : List (ServerStep ι)} {w : World κ}

/-- A step keeps the invariant of a connection, unless its client hangs up. -/
theorem Server.step_serves {s : Server ι κ} {received rest : List UInt8} {taken : List (List UInt8)}
    (h : (s.conns p).Serves G.py received taken rest) {e : ServerStep ι} (he : e ≠ .hangUp p) :
    ∃ taken' rest', (((server G).step s e).1.conns p).Serves G.py (received ++ fedTo p [e])
      taken' rest' := by
  have hother : ∀ {q : ι} (c : Conn), q ≠ p → Function.update s.conns q c p = s.conns p :=
    fun c hq ↦ Function.update_of_ne hq.symm c s.conns
  have hquiet : received ++ [] = received := List.append_nil _
  cases e with
  | feed q bytes =>
    show ∃ taken' rest', (Function.update s.conns q ((s.conns q).feed bytes) p).Serves G.py
      (received ++ ((if q = p then bytes else []) ++ [])) taken' rest'
    rw [List.append_nil]
    by_cases hq : q = p
    · subst hq
      rw [Function.update_self, if_pos rfl]
      exact ⟨taken, rest ++ bytes, h.feed bytes⟩
    · rw [hother _ hq, if_neg hq, hquiet]
      exact ⟨taken, rest, h⟩
  | hangUp q =>
    have hq : q ≠ p := fun hq ↦ he (hq ▸ rfl)
    refine ⟨taken, rest, ?_⟩
    show (Function.update s.conns q _ p).Serves G.py (received ++ []) taken rest
    rw [hother _ hq, hquiet]
    exact h
  | turn q env drain =>
    show ∃ taken' rest', (Function.update s.conns q ((s.conns q).turn G env drain s.world).1
      p).Serves G.py (received ++ []) taken' rest'
    rw [hquiet]
    by_cases hq : q = p
    · subst hq
      rw [Function.update_self]
      exact h.turn env drain s.world
    · rw [hother _ hq]
      exact ⟨taken, rest, h⟩
  | drained q =>
    refine ⟨taken, rest, ?_⟩
    show (Function.update s.conns q (s.conns q).drained p).Serves G.py (received ++ []) taken rest
    rw [hquiet]
    by_cases hq : q = p
    · subst hq
      rw [Function.update_self]
      exact h.drained
    · rw [hother _ hq]
      exact h

/-- **A whole run keeps the invariant** of each connection whose client has not hung up. -/
theorem serves_after (hopen : .hangUp p ∉ run) : ∃ taken rest,
    (((server G).after (Server.start w) run).conns p).Serves G.py (fedTo p run) taken rest := by
  refine Machine.inv_trace_of_prefix (I := fun earlier (s : Server ι κ) _ ↦
    ∃ taken rest, (s.conns p).Serves G.py (fedTo p earlier) taken rest)
    ⟨[], [], Conn.serves_accepted G.py⟩ ?_
  rintro earlier e hearlier ⟨taken, rest, h⟩
  rw [fedTo_append]
  exact Server.step_serves h fun he ↦ hopen (he ▸ hearlier.subset (by simp))

/-- From a line on that is too long, only blank lines come. -/
def NoneLost (ls : List (List UInt8)) : Prop :=
  ∀ earlier l later, ls = earlier ++ l :: later → lineLimit + 1 < l.length →
    requests (l :: later) = []

section

variable {py : Runtime} {received rest : List UInt8} {taken : List (List UInt8)} {c : Conn}

theorem Conn.Serves.lines_eq (h : c.Serves py received taken rest) :
    lines newline received = taken ++ lines newline rest :=
  h.split ▸ lines_flatten_append h.isLine rest

/-- Where nothing but blank lines is left of what arrived, no request is lost. -/
theorem Conn.Serves.noneLost (h : c.Serves py received taken rest)
    (hrest : requests (lines newline rest) = []) : NoneLost (lines newline received) := by
  intro earlier l later hsplit hlong
  rw [h.lines_eq] at hsplit
  rcases List.append_eq_append_iff.1 hsplit with ⟨mid, -, htail⟩ | ⟨mid, htaken, htail⟩
  · rw [htail, requests_append] at hrest
    exact (List.append_eq_nil_iff.1 hrest).2
  · rcases mid with _ | ⟨l', mid⟩
    · rw [List.nil_append] at htail
      rw [htail]
      exact hrest
    · -- a line that was taken is not too long
      obtain rfl : l = l' := (List.cons.inj htail).1
      have hshort := h.short l (htaken ▸ by simp)
      omega

/-- At rest, a request that is lost is left over. -/
theorem Conn.Serves.requests_rest (h : c.Serves py received taken rest) (hatRest : c.AtRest)
    (hnone : NoneLost (lines newline received)) : requests (lines newline rest) = [] := by
  rcases @notMem_or_exists_line _ _ newline rest with hno | ⟨body, after, hbody, hsplit⟩
  · rw [lines_eq_nil_iff.2 hno]
    rfl
  · rcases hatRest with hended | ⟨hreading, hpending⟩
    · have hlong := h.overrun hended
      rw [hsplit, (takeWhile_body hbody after).1] at hlong
      rw [hsplit, lines_append_cons hbody]
      refine hnone taken _ _ ?_ (by simpa using hlong)
      rw [h.lines_eq, hsplit, lines_append_cons hbody]
    · -- a reader that waits holds no complete line
      rw [h.alive, h.held (by rw [hreading]; simp)] at hpending
      rcases @readline_cases _ _ newline lineLimit rest with
        ⟨_, _, -, -, -, hread⟩ | ⟨hno, -, -⟩ | ⟨-, _, hread⟩
      · rw [hread] at hpending
        exact absurd hpending (by simp)
      · exact absurd (hsplit ▸ by simp) hno
      · rw [hread] at hpending
        exact absurd hpending (by simp)

end

/-- **One answer per request line, unless a line is too long.** Take any number of clients, any
interleaving of their bytes and of the handlers' turns, whatever the requests do, and a client that
has not hung up. In every state its lines that are not blank have been answered in their order, each
with its own `id`, up to one of them. Once the connection is at rest, all of them have been answered
exactly if only blank lines come from the first line on that is too long. And it comes to rest, as
soon as its handler gets enough turns. -/
theorem one_answer_per_line (G : EgressGate κ) (w : World κ) (hopen : .hangUp p ∉ run) :
    let c := ((server G).after (Server.start w) run).conns p
    let sent := lines newline (fedTo p run)
    (∃ answered later, requests sent = answered ++ later ∧
        List.Forall₂ (Answers G.py) answered c.written) ∧
      (c.AtRest → (List.Forall₂ (Answers G.py) (requests sent) c.written ↔ NoneLost sent)) ∧
      ∀ envs : List RequestEnv, (fedTo p run).length ≤ envs.length →
        (((server G).after (Server.start w)
          (run ++ .drained p :: envs.map fun env ↦ .turn p env .done)).conns p).AtRest := by
  intro c sent
  obtain ⟨taken, rest, h⟩ : ∃ taken rest, c.Serves G.py (fedTo p run) taken rest :=
    serves_after hopen
  have hrequests : requests sent = requests taken ++ requests (lines newline rest) := by
    rw [show sent = taken ++ lines newline rest from h.lines_eq, requests_append]
  refine ⟨⟨_, _, hrequests, h.answered⟩, fun hatRest ↦ ⟨fun hall ↦ ?_, fun hnone ↦ ?_⟩,
    fun envs hlen ↦ ?_⟩
  · refine h.noneLost (List.length_eq_zero_iff.1 ?_)
    have hlength := hall.length_eq
    rw [hrequests, List.length_append, h.answered.length_eq] at hlength
    omega
  · rw [hrequests, h.requests_rest hatRest hnone, List.append_nil]
    exact h.answered
  · rw [Machine.after_append, Machine.after_cons]
    have hstep : ((server G).step ((server G).after (Server.start w) run) (.drained p)).1.conns p =
        c.drained := Function.update_self _ _ _
    have hdrained : c.drained.phase ≠ .draining := by
      unfold Conn.drained
      split
      · simp
      · assumption
    refine atRest_of_turns G p envs (by rw [hstep]; exact h.drained.alive)
      (by rw [hstep]; exact hdrained) ?_
    rw [hstep]
    by_cases hended : c.drained.phase = .ended
    · exact Or.inl (Or.inl hended)
    · refine Or.inr ?_
      rw [h.drained.held hended]
      rw [h.split, List.length_append] at hlen
      omega

end Runs

/-- Two clients: one sends a request in two pieces, a blank line and something that is no JSON, the
other half a line. -/
def twoClients : List (ServerStep Bool) :=
  [.feed true (utf8 "\x7b\"id\": 7, ".toList), .feed false (utf8 "x".toList),
    .turn true (.noBaseline 1) .done, .turn false (.noBaseline 1) .done,
    .feed true (utf8 "\"method\": \"health\"\x7d\n \nno\n".toList),
    .turn true (.noBaseline 2) .waits]

/-- Two clients, and turns enough for the first one to get its two answers. -/
def twoClientsServed : List (ServerStep Bool) :=
  twoClients ++ .drained true ::
    (List.replicate 40 (RequestEnv.noBaseline 3)).map fun env ↦ .turn true env .done

/-- The first client has its two answers. -/
theorem one_answer_per_line_twoClients :
    (requests (lines newline (fedTo true twoClientsServed))).length = 2 ∧
      List.Forall₂ (Answers .ascii) (requests (lines newline (fedTo true twoClientsServed)))
        (((server EgressGate.idle).after (Server.start ⟨Db.empty, (), []⟩) twoClientsServed).conns
          true).written := by
  have hopen : .hangUp true ∉ twoClients := by
    simp [twoClients]
  have hopenServed : .hangUp true ∉ twoClientsServed := by
    simp [twoClientsServed, twoClients]
  have henough : (fedTo true twoClients).length ≤
      (List.replicate 40 (RequestEnv.noBaseline 3)).length := by
    rw [List.length_replicate]
    decide +kernel
  have hrest := (one_answer_per_line EgressGate.idle ⟨Db.empty, (), []⟩ hopen).2.2 _ henough
  rw [← twoClientsServed] at hrest
  refine ⟨by decide +kernel,
    ((one_answer_per_line EgressGate.idle ⟨Db.empty, (), []⟩ hopenServed).2.1 hrest).2 ?_⟩
  intro earlier l later hsplit hlong
  have hshort : ∀ l ∈ lines newline (fedTo true twoClientsServed), l.length ≤ 40 := by
    decide +kernel
  have := hshort l (hsplit ▸ by simp)
  rw [lineLimit] at hlong
  omega

/-- **A line beyond the limit ends the connection**: if it is the first line of a client and not
blank, the client is hung up on without an answer, and nothing has been done. -/
theorem unanswered_of_overlong {G : EgressGate κ} {w : World κ} {body : List UInt8}
    (hbody : newline ∉ body) (hlong : lineLimit < body.length) (env : RequestEnv) :
    let s := (server G).after (Server.start w : Server Unit κ)
      [.feed () (body ++ [newline]), .turn () env .done]
    (s.conns ()).AtRest ∧ (s.conns ()).written = [] ∧ s.world = w := by
  intro s
  have hread : readline newline lineLimit false (body ++ [newline]) = .overrun [] := by
    rw [readline_overrun (by rwa [(takeWhile_body hbody []).1]), (takeWhile_body hbody []).2]
    rfl
  have hturn : (⟨body ++ [newline], false, .reading, []⟩ : Conn).turn G env .done w =
      (⟨[], false, .ended, []⟩, w) := by
    rw [Conn.turn, if_pos rfl, hread]
  refine ⟨Or.inl ?_, ?_, ?_⟩
  · show (Conn.turn G env .done ⟨body ++ [newline], false, .reading, []⟩ w).1.phase = _
    rw [hturn]
  · show (Conn.turn G env .done ⟨body ++ [newline], false, .reading, []⟩ w).1.written = _
    rw [hturn]
  · show (Conn.turn G env .done ⟨body ++ [newline], false, .reading, []⟩ w).2 = _
    rw [hturn]

/-- **A line within the limit is answered**, unless it is blank. -/
theorem answered_of_line {G : EgressGate κ} {w : World κ} {body : List UInt8}
    (hbody : newline ∉ body) (hlen : body.length ≤ lineLimit)
    (hraw : rawOf (body ++ [newline]) ≠ []) (env : RequestEnv) :
    let s := (server G).after (Server.start w : Server Unit κ)
      [.feed () (body ++ [newline]), .turn () env .done]
    (s.conns ()).written = [responseLine (handleClient G env (rawOf (body ++ [newline])) w).1] ∧
      s.world = (handleClient G env (rawOf (body ++ [newline])) w).2 := by
  intro s
  have hread :
      readline newline lineLimit false (body ++ [newline]) = .line (body ++ [newline]) [] :=
    readline_line hbody hlen false []
  have hturn : (⟨body ++ [newline], false, .reading, []⟩ : Conn).turn G env .done w =
      (⟨[], false, .reading, [responseLine (handleClient G env (rawOf (body ++ [newline])) w).1]⟩,
        (handleClient G env (rawOf (body ++ [newline])) w).2) := by
    rw [Conn.turn, if_pos rfl, hread]
    dsimp only
    rw [if_neg (by simp), Conn.answer, if_neg hraw]
    rfl
  constructor
  · show (Conn.turn G env .done ⟨body ++ [newline], false, .reading, []⟩ w).1.written = _
    rw [hturn]
  · show (Conn.turn G env .done ⟨body ++ [newline], false, .reading, []⟩ w).2 = _
    rw [hturn]

/-- A line of letters, without its end. -/
def letters (n : ℕ) : List UInt8 :=
  List.replicate n 0x61

theorem newline_notMem_letters (n : ℕ) : newline ∉ letters n := fun h ↦
  absurd (List.eq_of_mem_replicate h) (by decide)

theorem rawOf_letters {n : ℕ} (hn : n ≠ 0) : rawOf (letters n ++ [newline]) ≠ [] := by
  have hletters : letters n = utf8 (List.replicate n 'a') := by
    rw [utf8_of_printable (fun d hd ↦ List.eq_of_mem_replicate hd ▸ by decide), List.map_replicate]
    rfl
  have hvisible : isSpace 'a' = false := by decide
  rw [rawOf, hletters, decodeReplace_utf8_append, Ne, strip_eq_nil_iff, isBlank, List.all_append,
    List.all_replicate, if_neg hn, hvisible]
  simp

/-- A line with too many letters gets no answer. -/
theorem unanswered_of_letters {n : ℕ} (hn : lineLimit < n) :
    let run : List (ServerStep Unit) :=
      [.feed () (letters n ++ [newline]), .turn () (.noBaseline 1) .done]
    let c := ((server EgressGate.idle).after (Server.start ⟨Db.empty, (), []⟩) run).conns ()
    .hangUp () ∉ run ∧ c.AtRest ∧
      ¬ List.Forall₂ (Answers .ascii) (requests (lines newline (fedTo () run))) c.written := by
  intro run c
  have hlong : lineLimit < (letters n).length := by rwa [letters, List.length_replicate]
  obtain ⟨hrest, hwritten, -⟩ := unanswered_of_overlong (G := EgressGate.idle)
    (w := ⟨Db.empty, (), []⟩) (newline_notMem_letters n) hlong (.noBaseline 1)
  have hrequests : requests (lines newline (fedTo () run)) = [rawOf (letters n ++ [newline])] := by
    have hfed : fedTo () run = letters n ++ [newline] := by
      simp [run, fedTo]
    rw [hfed, lines_append_cons (newline_notMem_letters n)]
    exact requests_of_ne_nil (rawOf_letters (Nat.ne_zero_of_lt hn))
  refine ⟨by simp [run], hrest, fun h ↦ ?_⟩
  rw [hrequests, show c.written = [] from hwritten] at h
  cases h

/-- **One letter too many.** A line of 65537 letters is not blank and gets no answer. -/
theorem overlong_line_unanswered :
    let run : List (ServerStep Unit) :=
      [.feed () (letters 65537 ++ [newline]), .turn () (.noBaseline 1) .done]
    let c := ((server EgressGate.idle).after (Server.start ⟨Db.empty, (), []⟩) run).conns ()
    .hangUp () ∉ run ∧ c.AtRest ∧
      ¬ List.Forall₂ (Answers .ascii) (requests (lines newline (fedTo () run))) c.written :=
  unanswered_of_letters (by decide)

end SourceOS.Gate
