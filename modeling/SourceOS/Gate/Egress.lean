import SourceOS.Foundation.Effect
import SourceOS.Gate.Listing

/-!
# The egress gate

`egress.py`: the operations that tie the store, the firewall and the audit log together. Each is a
sequence of effects on one `World`, and any of them may raise after the ones before it have taken
effect; there is no transaction around them. That is what `Effect` models.

An operation gets everything the outside decides as its environment — clock readings, the answers of
`nft`, where something fails — so an operation on a world is a function, and a history of operations
is a list. An operation that checks the baseline twice gets two sets of answers.
-/

namespace SourceOS.Gate

open Text

/-! ### The world -/

/-- Everything the gate acts on: the database, the kernel's allowlist sets, and the audit log, whose
records are kept with the stream they belong to. -/
structure World (κ : Type) where
  db : Db
  kernel : κ
  audit : List (Str × Json PyChar)

/-- A computation of the gate. -/
abbrev GateM (κ : Type) := Effect Exc (World κ)

section

variable {κ α : Type}

/-- A call on the store. -/
def onStore (x : Db → Except Exc α × Db) : GateM κ α :=
  Effect.zoom World.db (fun w db ↦ { w with db := db }) x

/-- A call on the store that only reads. -/
def readStore (x : Db → Except Exc α) : GateM κ α :=
  onStore fun db ↦ (x db, db)

/-- A call that acts on the kernel. -/
def onKernel (x : κ → Except Exc α × κ) : GateM κ α :=
  Effect.zoom World.kernel (fun w k ↦ { w with kernel := k }) x

/-- One call of `AuditLog.append` as the outside world sees it. -/
structure AuditEnv where
  /-- `now_iso_utc()`. -/
  ts : Str
  /-- The directory cannot be made, or the file not be written. -/
  fault : Fault := none

/-- `AuditLog.append`. None of the records has a `ts` of its own. -/
def auditAppend (env : AuditEnv) (stream : String) (record : List (PyStr × Json PyChar)) :
    GateM κ Unit :=
  fun w ↦
    match env.fault.check with
    | .error e => (.error e, w)
    | .ok () => (.ok (), { w with
        audit := w.audit ++ [(stream.toList, .obj (record ++ [(PyStr.lit "ts", .str env.ts)]))] })

end

/-! ### The operations -/

/-- `EgressGate`: its configuration, and what an accepted script does to the kernel. -/
structure EgressGate (κ : Type) where
  /-- The interpreter it runs on. -/
  py : Runtime
  /-- `nft_cfg`. -/
  cfg : NftConfig := .default
  /-- The effect of a script that `nft -f -` takes. -/
  act : PyStr → κ → κ

/-- One call of `apply`. -/
structure GateApplyEnv where
  /-- The baseline check of `apply` itself. -/
  probe : Probe
  /-- `compute_active_sets`. -/
  read : ReadEnv
  /-- `apply_sets`, with a baseline check of its own. -/
  sets : ApplyEnv
  /-- The audit record. -/
  audit : AuditEnv

/-- One call of `install_grant`. -/
structure GateInstallEnv where
  /-- The store's part. -/
  store : InstallEnv
  /-- The audit record. -/
  audit : AuditEnv
  /-- The `apply` that may follow. -/
  apply : GateApplyEnv

/-- One call of `prune`. -/
structure GatePruneEnv where
  /-- The store's part. -/
  store : ReadEnv
  /-- The audit record. -/
  audit : AuditEnv
  /-- The `apply` that may follow. -/
  apply : GateApplyEnv

/-- One call of `verify`. -/
structure GateVerifyEnv where
  /-- The baseline check of `verify` itself. -/
  probe : Probe
  /-- `compute_active_sets`. -/
  read : ReadEnv
  /-- The baseline check of `verify_sets`. -/
  setsProbe : Probe
  /-- The listings. -/
  list : ListEnv
  /-- The audit record. -/
  audit : AuditEnv

/-- `sorted(s)`, as JSON. -/
def sortedJson (s : Finset PyStr) : Json PyChar :=
  .arr ((sorted s).map .str)

/-- The three sets, as members of a record. -/
def ActiveSets.members (s : ActiveSets) : List (PyStr × Json PyChar) :=
  [("allow_v4".toList, sortedJson s.addrs), ("tcp_ports".toList, sortedJson s.tcpPorts),
    ("udp_ports".toList, sortedJson s.udpPorts)]

/-- The record of an accepted grant. -/
def Grant.record (g : Grant) : List (PyStr × Json PyChar) :=
  [("action".toList, .str "grant.install".toList), ("token_id".toList, .str g.tokenId),
    ("nonce".toList, .str g.nonce), ("exp".toList, .int g.exp), ("proto".toList, .str g.proto),
    ("targets".toList, .arr (g.targets.map fun t ↦ .str t.val)),
    ("ports".toList, .arr (g.ports.map .int))]

namespace EgressGate

variable {κ : Type} (G : EgressGate κ)

/-- `apply`. -/
def apply (env : GateApplyEnv) : GateM κ Unit := do
  .ofExcept (requireBaseline G.cfg env.probe)
  let sets ← readStore (computeActiveSets G.py env.read)
  onKernel (applySets G.py G.cfg G.act env.sets sets)
  auditAppend env.audit "gate.egress" (("action".toList, .str "apply".toList) :: sets.members)

/-- How `install_grant` and `prune` end: the audit record, then `if apply: self.apply()`. -/
def recordAndApply (audit : AuditEnv) (record : List (PyStr × Json PyChar)) (apply : Bool)
    (env : GateApplyEnv) : GateM κ Unit := do
  auditAppend audit "gate.egress" record
  if apply then G.apply env else pure ()

/-- `install_grant`. -/
def installGrant (env : GateInstallEnv) (a : GrantArgs) (apply : Bool) : GateM κ Unit := do
  let g ← onStore (Gate.installGrant env.store a)
  G.recordAndApply env.audit g.record apply env.apply

/-- `prune`. -/
def prune (env : GatePruneEnv) (apply : Bool) : GateM κ ℕ := do
  let removed ← onStore (pruneExpired env.store)
  G.recordAndApply env.audit [("action".toList, .str "grant.prune".toList),
    ("removed".toList, .int removed)] apply env.apply
  return removed

/-- `verify`. -/
def verify (env : GateVerifyEnv) : GateM κ Unit := do
  .ofExcept (requireBaseline G.cfg env.probe)
  let sets ← readStore (computeActiveSets G.py env.read)
  .ofExcept (verifySets G.py G.cfg env.setsProbe env.list sets)
  auditAppend env.audit "gate.egress" (("action".toList, .str "verify".toList) ::
    ("status".toList, .str "ok".toList) :: sets.members)

/-- `snapshot`. -/
def snapshot (env : ReadEnv) (ts : Str) : GateM κ (Json PyChar) := do
  let sets ← readStore (computeActiveSets G.py env)
  return .obj [("ts".toList, .str ts), ("active".toList, .obj sets.members)]

end EgressGate

/-! ### Frames -/

section Frames

variable {κ α : Type}

@[simp] theorem run_readStore (x : Db → Except Exc α) (w : World κ) :
    (readStore x : GateM κ α).run w = (x w.db, w) := rfl

@[simp] theorem run_onStore (x : Db → Except Exc α × Db) (w : World κ) :
    (onStore x : GateM κ α).run w = ((x w.db).1, { w with db := (x w.db).2 }) := rfl

@[simp] theorem run_onKernel (x : κ → Except Exc α × κ) (w : World κ) :
    (onKernel x : GateM κ α).run w = ((x w.kernel).1, { w with kernel := (x w.kernel).2 }) := rfl

theorem run_auditAppend_fst (env : AuditEnv) (stream : String) (record : List (PyStr × Json PyChar))
    (w : World κ) : ((auditAppend env stream record).run w).1 = env.fault.check := by
  unfold Effect.run auditAppend
  cases env.fault.check <;> rfl

theorem frames_readStore {γ : Type} {get : World κ → γ} (x : Db → Except Exc α) :
    Effect.Frames get (readStore x : GateM κ α) :=
  fun _ ↦ rfl

theorem frames_db_onKernel (x : κ → Except Exc α × κ) :
    Effect.Frames World.db (onKernel x : GateM κ α) :=
  fun _ ↦ rfl

/-- The audit log is a part of its own. -/
theorem frames_auditAppend {γ : Type} (get : Db → κ → γ) (env : AuditEnv) (stream : String)
    (record : List (PyStr × Json PyChar)) :
    Effect.Frames (fun w : World κ ↦ get w.db w.kernel) (auditAppend env stream record) := by
  intro w
  unfold Effect.run auditAppend
  split
  · rfl
  · rfl

end Frames

end SourceOS.Gate
