import SourceOS.Foundation.Lists
import SourceOS.Gate.Daemon
import SourceOS.Gate.ScriptSets

/-!
# What the audit log accounts for

Each operation of the gate writes its audit record **after** what the record is about: a grant is
committed and then recorded, a script is taken and then recorded. The record may fail, and then what
it was about has happened without it. And the record of an `apply` names the sets as they were
computed, whereas the script holds them after `apply_sets` has gone over them once more, and loads
what `nft` reads in it: of a target with a comma, two elements.

* `gate` runs the four operations on one world, with everything the outside decides, failures
  included, as part of the call. The kernel of `EgressGate.recording` keeps the scripts it has
  taken; what any kernel holds is a function of these.
* `Audited` says that neither of the two gaps opens in a call. `Accounts` is the invariant: the
  `grant.install` records are those of the accepted grants, the `apply` records those of the scripts
  taken, one by one and in order.
* `audit_accounts` is the result for every run, and `audit_misses` shows each of the gaps.
-/

namespace SourceOS.Gate

open Text

/-! ### The gate as a machine -/

/-- A call of an operation of the gate, with everything the outside decides. -/
inductive GateOp
  /-- `install_grant`. -/
  | install (env : GateInstallEnv) (a : GrantArgs) (apply : Bool)
  /-- `prune`. -/
  | prune (env : GatePruneEnv) (apply : Bool)
  /-- `apply`. -/
  | apply (env : GateApplyEnv)
  /-- `verify`. -/
  | verify (env : GateVerifyEnv)

/-- The calls on the store that an operation makes, if they may write. -/
def GateOp.storeCalls : GateOp → List StoreCall
  | .install env a _ => [.install env.store a]
  | .prune env _ => [.prune env.store]
  | .apply _ | .verify _ => []

section Machine

variable {κ : Type} (G : EgressGate κ)

/-- The operation a call stands for. -/
def GateOp.perform : GateOp → GateM κ Unit
  | .install env a doApply => G.installGrant env a doApply
  | .prune env doApply => do
    let _ ← G.prune env doApply
  | .apply env => G.apply env
  | .verify env => G.verify env

/-- The operations, one after the other. -/
def gate : Machine (World κ) GateOp (Except Exc Unit) where
  step w op := (((op.perform G).run w).2, ((op.perform G).run w).1)

end Machine

/-- A gate whose kernel keeps the scripts that `nft` has taken, in order. -/
def EgressGate.recording (py : Runtime) (cfg : NftConfig) : EgressGate (List PyStr) where
  py := py
  cfg := cfg
  act script taken := taken ++ [script]

/-- A fresh store root, before the first script. -/
def World.fresh : World (List PyStr) := ⟨Db.empty, [], []⟩

/-! ### Records -/

/-- The `action` of an audit record. -/
def actionOf (e : Str × Json PyChar) : Option PyStr :=
  match e.2.get? "action".toList with
  | some (.str action) => some action
  | _ => none

/-- The records of an action, in order. -/
def recordsOf (action : String) (audit : List (Str × Json PyChar)) : List (Str × Json PyChar) :=
  audit.filter fun e ↦ actionOf e = some (PyStr.lit action)

/-- A record as `append` writes it, with the time of day. -/
def auditEntry (record : List (PyStr × Json PyChar)) (ts : Str) : Str × Json PyChar :=
  ("gate.egress".toList, .obj (record ++ [(PyStr.lit "ts", .str ts)]))

/-- The record names the grant: its token id, nonce, expiry, protocol, targets and ports. -/
def Grant.RecordedBy (g : Grant) (e : Str × Json PyChar) : Prop :=
  ∃ ts, e = auditEntry g.record ts

/-- The record of an `apply`. -/
def ActiveSets.applyRecord (s : ActiveSets) : List (PyStr × Json PyChar) :=
  ("action".toList, .str "apply".toList) :: s.members

/-- The record names exactly the three sets that the script loads, whatever they held before. -/
def ScriptRecordedBy (cfg : NftConfig) (script : PyStr) (e : Str × Json PyChar) : Prop :=
  ∃ (sets : ActiveSets) (ts : Str),
    (∀ s, scriptSets cfg script s = some sets) ∧ e = auditEntry sets.applyRecord ts

theorem actionOf_grantRecord (g : Grant) (ts : Str) :
    actionOf (auditEntry g.record ts) = some (PyStr.lit "grant.install") := rfl

theorem actionOf_applyRecord (s : ActiveSets) (ts : Str) :
    actionOf (auditEntry s.applyRecord ts) = some (PyStr.lit "apply") := rfl

theorem recordsOf_concat (action : String) (audit : List (Str × Json PyChar))
    (e : Str × Json PyChar) :
    recordsOf action (audit ++ [e]) =
      recordsOf action audit ++ if actionOf e = some (PyStr.lit action) then [e] else [] := by
  rw [recordsOf, List.filter_append, ← recordsOf]
  congr 1
  by_cases h : actionOf e = some (PyStr.lit action)
  · simp [h]
  · simp [h]

/-- The token id and the nonce can be read off a record. -/
theorem key_eq_of_recordedBy {g g' : Grant} {e : Str × Json PyChar} (h : g.RecordedBy e)
    (h' : g'.RecordedBy e) : g.key = g'.key := by
  obtain ⟨ts, rfl⟩ := h
  obtain ⟨ts', heq⟩ := h'
  have hmembers := List.append_inj' (Json.obj.inj (Prod.mk.inj heq).2) rfl
  simp only [Grant.record, List.cons.injEq, Prod.mk.injEq, true_and, Json.str.injEq] at hmembers
  exact Prod.ext hmembers.1.1 hmembers.1.2.1

/-! ### The condition -/

/-- An `apply` that loses no record: if its script is taken, then its audit record can be written,
and the computed addresses are what the script holds, each of them an element of its own. -/
def GateApplyEnv.Audited (py : Runtime) (cfg : NftConfig) (env : GateApplyEnv) (db : Db) : Prop :=
  ∀ sets, requireBaseline cfg env.probe = .ok () → computeActiveSets py env.read db = .ok sets →
    env.sets.Taken cfg →
      env.audit.fault = none ∧ elementAddrs sets.addrs = sets.addrs ∧ sets.Readable

/-- A call that loses no record: a grant that it accepts can be recorded, and the `apply` it gets to
loses none. -/
def GateOp.Audited (py : Runtime) (cfg : NftConfig) (db : Db) : GateOp → Prop
  | .install env a doApply => ∀ g, (Gate.installGrant env.store a db).1 = .ok g →
    env.audit.fault = none ∧
      (doApply = true → env.apply.Audited py cfg (Gate.installGrant env.store a db).2)
  | .prune env doApply => ∀ n, (pruneExpired env.store db).1 = .ok n → env.audit.fault = none →
    doApply = true → env.apply.Audited py cfg (pruneExpired env.store db).2
  | .apply env => env.Audited py cfg db
  | .verify _ => True

/-! ### One operation -/

section Step

variable {κ : Type} {py : Runtime} {cfg : NftConfig}

/-- **What `append` does**: it adds the record, or it raises and adds nothing. -/
theorem run_auditAppend_cases (env : AuditEnv) (record : List (PyStr × Json PyChar)) (w : World κ) :
    (env.fault = none ∧ (auditAppend env "gate.egress" record).run w =
      (.ok (), { w with audit := w.audit ++ [auditEntry record env.ts] })) ∨
    (env.fault ≠ none ∧
      ∃ e, (auditAppend env "gate.egress" record).run w = (.error e, w)) := by
  rcases hfault : env.fault with _ | e
  · refine Or.inl ⟨rfl, ?_⟩
    show auditAppend env "gate.egress" record w = _
    rw [auditAppend, hfault]
    rfl
  · refine Or.inr ⟨by simp, .builtin e, ?_⟩
    show auditAppend env "gate.egress" record w = _
    rw [auditAppend, hfault]
    rfl

/-- **The invariant.** The tables come from the calls on the store; the `grant.install` records are
those of the accepted grants, and the `apply` records those of the scripts taken. -/
structure Accounts (py : Runtime) (cfg : NftConfig) (calls : List StoreCall)
    (w : World (List PyStr)) : Prop where
  db : w.db = (store py).after Db.empty calls
  installs : List.Forall₂ Grant.RecordedBy (accepted ((store py).trace Db.empty calls))
    (recordsOf "grant.install" w.audit)
  scripts : List.Forall₂ (ScriptRecordedBy cfg) w.kernel (recordsOf "apply" w.audit)

variable {calls : List StoreCall} {w : World (List PyStr)}

/-- A record of another action changes nothing. -/
theorem Accounts.other (h : Accounts py cfg calls w) {e : Str × Json PyChar}
    (hinstall : actionOf e ≠ some (PyStr.lit "grant.install"))
    (happly : actionOf e ≠ some (PyStr.lit "apply")) :
    Accounts py cfg calls { w with audit := w.audit ++ [e] } := by
  refine ⟨h.db, ?_, ?_⟩
  · rw [recordsOf_concat, if_neg hinstall, List.append_nil]
    exact h.installs
  · rw [recordsOf_concat, if_neg happly, List.append_nil]
    exact h.scripts

/-- A script and its record. -/
theorem Accounts.script (h : Accounts py cfg calls w) (hcfg : cfg.Proper) {sets : ActiveSets}
    (hsets : sets.Readable) (ts : Str) :
    Accounts py cfg calls { w with
      kernel := w.kernel ++ [sets.loadScript cfg]
      audit := w.audit ++ [auditEntry sets.applyRecord ts] } := by
  refine ⟨h.db, ?_, ?_⟩
  · rw [recordsOf_concat, if_neg (by rw [actionOf_applyRecord]; decide), List.append_nil]
    exact h.installs
  · rw [recordsOf_concat, if_pos (actionOf_applyRecord sets ts)]
    exact List.rel_append h.scripts (.cons ⟨sets, ts, scriptSets_loadScript hcfg hsets, rfl⟩ .nil)

/-- **An `apply` that loses no record keeps the account.** -/
theorem Accounts.apply (h : Accounts py cfg calls w) (hcfg : cfg.Proper) {env : GateApplyEnv}
    (henv : env.Audited py cfg w.db) :
    Accounts py cfg calls (((EgressGate.recording py cfg).apply env).run w).2 := by
  unfold EgressGate.apply
  rcases Effect.read_bind_cases (Effect.run_ofExcept (requireBaseline cfg env.probe) w) _ with
    ⟨_, -, hrun⟩ | ⟨_, hbase, hrun⟩
  · rw [show (EgressGate.recording py cfg).cfg = cfg from rfl, hrun]
    exact h
  rw [show (EgressGate.recording py cfg).cfg = cfg from rfl, hrun]
  rcases Effect.read_bind_cases (run_readStore (computeActiveSets py env.read) w) _ with
    ⟨_, -, hrun⟩ | ⟨sets, hsets, hrun⟩
  · rw [show (EgressGate.recording py cfg).py = py from rfl, hrun]
    exact h
  rw [show (EgressGate.recording py cfg).py = py from rfl, hrun]
  have hscript : applyScript py cfg sets =
      .ok ({ sets with addrs := elementAddrs sets.addrs }.loadScript cfg) :=
    applyScript_of_computed cfg (h.db ▸ hsets)
  rcases applySets_cases (EgressGate.recording py cfg).act env.sets hscript w.kernel with
    ⟨htaken, hkernel⟩ | ⟨-, e, hkernel⟩
  · obtain ⟨hfault, haddrs, hread⟩ := henv sets hbase hsets htaken
    rw [haddrs] at hkernel
    have hload : (onKernel (applySets py cfg (EgressGate.recording py cfg).act env.sets sets) :
        GateM (List PyStr) Unit).run w =
          (.ok (), { w with kernel := w.kernel ++ [sets.loadScript cfg] }) := by
      rw [run_onKernel, hkernel]
      rfl
    rw [Effect.run_bind_of_ok hload]
    rcases run_auditAppend_cases env.audit sets.applyRecord
      { w with kernel := w.kernel ++ [sets.loadScript cfg] } with ⟨-, hrun⟩ | ⟨hno, -⟩
    · have happend : (auditAppend env.audit "gate.egress"
          (("action".toList, .str "apply".toList) :: sets.members)).run
            { w with kernel := w.kernel ++ [sets.loadScript cfg] } = _ := hrun
      rw [happend]
      exact h.script hcfg hread env.audit.ts
    · exact absurd hfault hno
  · have hload : (onKernel (applySets py cfg (EgressGate.recording py cfg).act env.sets sets) :
        GateM (List PyStr) Unit).run w = (.error e, w) := by
      rw [run_onKernel, hkernel]
    rw [Effect.run_bind_of_error hload]
    exact h

/-- `if apply: self.apply()`. -/
theorem Accounts.applyIf (h : Accounts py cfg calls w) (hcfg : cfg.Proper) {env : GateApplyEnv}
    {doApply : Bool} (henv : doApply = true → env.Audited py cfg w.db) :
    Accounts py cfg calls
      ((if doApply then (EgressGate.recording py cfg).apply env else pure () :
        GateM (List PyStr) Unit).run w).2 := by
  cases doApply with
  | false => exact h
  | true => exact h.apply hcfg (henv rfl)

/-- **An `install_grant` that loses no record keeps the account.** -/
theorem Accounts.installGrant (h : Accounts py cfg calls w) (hcfg : cfg.Proper)
    {env : GateInstallEnv} {a : GrantArgs} {doApply : Bool}
    (henv : (GateOp.install env a doApply).Audited py cfg w.db) :
    Accounts py cfg (calls ++ [.install env.store a])
      (((EgressGate.recording py cfg).installGrant env a doApply).run w).2 := by
  have hdb : (store py).after Db.empty (calls ++ [.install env.store a]) =
      (Gate.installGrant env.store a w.db).2 := by
    rw [Machine.after_append, ← h.db]
    rfl
  have htrace : accepted ((store py).trace Db.empty (calls ++ [.install env.store a])) =
      accepted ((store py).trace Db.empty calls) ++
        (acceptedBy (.install env.store a,
          .installed (Gate.installGrant env.store a w.db).1)).toList := by
    rw [Machine.trace_append, Machine.trace_cons, Machine.trace_nil, accepted_concat, ← h.db]
    rfl
  unfold EgressGate.installGrant
  rcases hstore : (onStore (Gate.installGrant env.store a) : GateM (List PyStr) Grant).run w with
    ⟨e | g, w'⟩
  · -- refused: the tables and the log are as they were
    rw [Effect.run_bind_of_error hstore]
    rw [run_onStore, Prod.mk.injEq] at hstore
    obtain ⟨herr, rfl⟩ := hstore
    refine ⟨hdb.symm, ?_, h.scripts⟩
    rw [htrace, herr]
    simpa [acceptedBy] using h.installs
  · rw [Effect.run_bind_of_ok hstore]
    rw [run_onStore, Prod.mk.injEq] at hstore
    obtain ⟨hok, rfl⟩ := hstore
    obtain ⟨hfault, happly⟩ := henv g hok
    unfold EgressGate.recordAndApply
    rcases run_auditAppend_cases env.audit g.record
      { w with db := (Gate.installGrant env.store a w.db).2 } with ⟨-, hrun⟩ | ⟨hno, -⟩
    · rw [Effect.run_bind_of_ok hrun]
      refine Accounts.applyIf ⟨hdb.symm, ?_, ?_⟩ hcfg happly
      · rw [htrace, hok, recordsOf_concat, if_pos (actionOf_grantRecord g env.audit.ts)]
        exact List.rel_append h.installs (.cons ⟨env.audit.ts, rfl⟩ .nil)
      · rw [recordsOf_concat, if_neg (by rw [actionOf_grantRecord]; decide), List.append_nil]
        exact h.scripts
    · exact absurd hfault hno

/-- **So does a `prune`**, whose own record is of another kind. -/
theorem Accounts.prune (h : Accounts py cfg calls w) (hcfg : cfg.Proper) {env : GatePruneEnv}
    {doApply : Bool} (henv : (GateOp.prune env doApply).Audited py cfg w.db) :
    Accounts py cfg (calls ++ [.prune env.store])
      (((EgressGate.recording py cfg).prune env doApply).run w).2 := by
  have hdb : (store py).after Db.empty (calls ++ [.prune env.store]) =
      (pruneExpired env.store w.db).2 := by
    rw [Machine.after_append, ← h.db]
    rfl
  have htrace : accepted ((store py).trace Db.empty (calls ++ [.prune env.store])) =
      accepted ((store py).trace Db.empty calls) := by
    rw [Machine.trace_append, Machine.trace_cons, Machine.trace_nil, accepted_concat]
    exact List.append_nil _
  have hpruned : Accounts py cfg (calls ++ [.prune env.store])
      { w with db := (pruneExpired env.store w.db).2 } :=
    ⟨hdb.symm, htrace ▸ h.installs, h.scripts⟩
  unfold EgressGate.prune
  rcases hstore : (onStore (pruneExpired env.store) : GateM (List PyStr) ℕ).run w with ⟨e | n, w'⟩
  · rw [Effect.run_bind_of_error hstore]
    rw [run_onStore, Prod.mk.injEq] at hstore
    obtain ⟨-, rfl⟩ := hstore
    exact hpruned
  · rw [Effect.run_bind_of_ok hstore]
    rw [run_onStore, Prod.mk.injEq] at hstore
    obtain ⟨hok, rfl⟩ := hstore
    rw [Effect.run_bind_pure_snd]
    unfold EgressGate.recordAndApply
    rcases run_auditAppend_cases env.audit [("action".toList, .str "grant.prune".toList),
        ("removed".toList, .int n)] { w with db := (pruneExpired env.store w.db).2 } with
      ⟨hfault, hrun⟩ | ⟨-, e, hrun⟩
    · rw [Effect.run_bind_of_ok hrun]
      refine Accounts.applyIf (hpruned.other ?_ ?_) hcfg (henv n hok hfault)
      · exact (by decide : some (PyStr.lit "grant.prune") ≠ some (PyStr.lit "grant.install"))
      · exact (by decide : some (PyStr.lit "grant.prune") ≠ some (PyStr.lit "apply"))
    · rw [Effect.run_bind_of_error hrun]
      exact hpruned

/-- **And a `verify`.** -/
theorem Accounts.verify (h : Accounts py cfg calls w) (env : GateVerifyEnv) :
    Accounts py cfg calls (((EgressGate.recording py cfg).verify env).run w).2 := by
  unfold EgressGate.verify
  rcases Effect.read_bind_cases (Effect.run_ofExcept (requireBaseline _ env.probe) w) _ with
    ⟨_, -, hrun⟩ | ⟨_, -, hrun⟩
  · rw [hrun]
    exact h
  rw [hrun]
  rcases Effect.read_bind_cases (run_readStore (computeActiveSets _ env.read) w) _ with
    ⟨_, -, hrun⟩ | ⟨sets, -, hrun⟩
  · rw [hrun]
    exact h
  rw [hrun]
  rcases Effect.read_bind_cases
    (Effect.run_ofExcept (verifySets _ _ env.setsProbe env.list sets) w) _ with
    ⟨_, -, hrun⟩ | ⟨_, -, hrun⟩
  · rw [hrun]
    exact h
  rw [hrun]
  rcases run_auditAppend_cases env.audit (("action".toList, .str "verify".toList) ::
    ("status".toList, .str "ok".toList) :: sets.members) w with ⟨-, hrun⟩ | ⟨-, e, hrun⟩
  · rw [hrun]
    refine h.other ?_ ?_
    · exact (by decide : some (PyStr.lit "verify") ≠ some (PyStr.lit "grant.install"))
    · exact (by decide : some (PyStr.lit "verify") ≠ some (PyStr.lit "apply"))
  · rw [hrun]
    exact h

/-- **One operation that loses no record keeps the account.** -/
theorem Accounts.step (h : Accounts py cfg calls w) (hcfg : cfg.Proper) {op : GateOp}
    (hop : op.Audited py cfg w.db) :
    Accounts py cfg (calls ++ op.storeCalls)
      ((gate (EgressGate.recording py cfg)).step w op).1 := by
  cases op with
  | install env a doApply => exact h.installGrant hcfg hop
  | prune env doApply =>
    show Accounts py cfg _ (((GateOp.prune env doApply).perform _).run w).2
    rw [GateOp.perform, Effect.run_bind_pure_snd]
    exact h.prune hcfg hop
  | apply env => exact (List.append_nil calls).symm ▸ h.apply hcfg hop
  | verify env => exact (List.append_nil calls).symm ▸ h.verify env

end Step

/-! ### Runs -/

section Runs

variable {py : Runtime} {cfg : NftConfig} {ops : List GateOp}

/-- No record is lost in a run. -/
def AuditedRun (py : Runtime) (cfg : NftConfig) (ops : List GateOp) : Prop :=
  ∀ earlier op, earlier ++ [op] <+: ops →
    op.Audited py cfg ((gate (EgressGate.recording py cfg)).after World.fresh earlier).db

/-- **A whole run in which no record is lost keeps the account.** -/
theorem accounts_after (hcfg : cfg.Proper) (h : AuditedRun py cfg ops) :
    Accounts py cfg (ops.flatMap GateOp.storeCalls)
      ((gate (EgressGate.recording py cfg)).after World.fresh ops) := by
  refine Machine.inv_trace_of_prefix
    (I := fun earlier w _ ↦ Accounts py cfg (earlier.flatMap GateOp.storeCalls) w)
    ⟨rfl, .nil, .nil⟩ ?_
  intro earlier op hop hI
  rw [List.flatMap_append, List.flatMap_singleton]
  exact hI.step hcfg (h earlier op hop)

/-- **The audit log accounts for every run in which no record is lost**: in every state between
calls, each grant ever accepted has exactly one record that names it, and the `apply` records name
exactly the sets that the scripts taken have loaded, one record for each script and in their
order. -/
theorem audit_accounts (hcfg : cfg.Proper) (h : AuditedRun py cfg ops) :
    let w := (gate (EgressGate.recording py cfg)).after World.fresh ops
    w.db = (store py).after Db.empty (ops.flatMap GateOp.storeCalls) ∧
      (∀ g ∈ accepted ((store py).trace Db.empty (ops.flatMap GateOp.storeCalls)),
        ExactlyOne g.RecordedBy w.audit) ∧
      List.Forall₂ (ScriptRecordedBy cfg) w.kernel (recordsOf "apply" w.audit) := by
  intro w
  have hw : Accounts py cfg (ops.flatMap GateOp.storeCalls) w := accounts_after hcfg h
  refine ⟨hw.db, fun g hg ↦ ?_, hw.scripts⟩
  refine (exactlyOne_of_forall₂ hw.installs (nodup_accepted py _) key_eq_of_recordedBy hg).of_filter
    ?_
  rintro e ⟨ts, rfl⟩
  exact decide_eq_true (actionOf_grantRecord g ts)

end Runs

/-- An `apply` at time `t` whose script is taken. -/
def GateApplyEnv.taken (t : ℤ) : GateApplyEnv where
  probe _ _ := .ok true
  read := .quiet t
  sets := ⟨true, fun _ _ ↦ .ok true, .applied⟩
  audit := { ts := [] }

/-- An `install_grant` at time 3 of a grant for a target and port 443, and the `apply` after it. -/
def installTarget (target : JsonStr) (audit : AuditEnv) : GateOp :=
  .install ⟨.quiet 3, audit, .taken 4⟩
    ⟨"tok".toList, "n1".toList, 90, [target], [443], "tcp".toList⟩ true

/-- A grant for a host is recorded, and so is the script that lets it through. -/
theorem audit_accounts_host :
    let ops := [installTarget "1.2.3.4/32".toList { ts := [] }]
    let w := (gate (EgressGate.recording .ascii .default)).after World.fresh ops
    w.db = (store .ascii).after Db.empty (ops.flatMap GateOp.storeCalls) ∧
      (∀ g ∈ accepted ((store .ascii).trace Db.empty (ops.flatMap GateOp.storeCalls)),
        ExactlyOne g.RecordedBy w.audit) ∧
      List.Forall₂ (ScriptRecordedBy .default) w.kernel (recordsOf "apply" w.audit) := by
  refine audit_accounts NftConfig.proper_default ?_
  rintro earlier op ⟨later, hops⟩
  obtain ⟨rfl, rfl⟩ : earlier = [] ∧ op = installTarget "1.2.3.4/32".toList { ts := [] } := by
    rcases earlier with _ | ⟨op', _ | ⟨op'', earlier⟩⟩ <;> simp_all
  refine fun g hg ↦ ⟨rfl, fun _ sets _ hsets _ ↦ ⟨rfl, ?_⟩⟩
  have hread : computeActiveSets .ascii (.quiet 4)
      (Gate.installGrant (.quiet 3) ⟨"tok".toList, "n1".toList, 90, ["1.2.3.4/32".toList], [443],
        "tcp".toList⟩ Db.empty).2 = .ok ⟨{PyStr.lit "1.2.3.4"}, {PyStr.lit "443"}, ∅⟩ := by
    decide +kernel
  obtain rfl := Except.ok.inj (hread.symm.trans hsets)
  refine ⟨by decide +kernel, by decide +kernel, fun proto ↦ ?_⟩
  cases proto with
  | tcp => decide +kernel
  | udp => exact fun e he ↦ absurd he (Finset.notMem_empty e)

/-- The strings of a list. -/
def stringsOf : Json PyChar → Option (List PyStr)
  | .arr xs => xs.mapM fun
    | .str s => some s
    | _ => none
  | _ => none

/-- The three sets that a record names. -/
def namedSets (e : Str × Json PyChar) : Option ActiveSets := do
  let a ← stringsOf (← e.2.get? "allow_v4".toList)
  let t ← stringsOf (← e.2.get? "tcp_ports".toList)
  let u ← stringsOf (← e.2.get? "udp_ports".toList)
  return ⟨a.toFinset, t.toFinset, u.toFinset⟩

theorem stringsOf_sortedJson (s : Finset PyStr) : stringsOf (sortedJson s) = some (sorted s) := by
  rw [sortedJson, stringsOf]
  exact @mapM_map_eq_some _ _ _ Json.str (fun _ ↦ rfl) (sorted s)

/-- A record of a script names the sets that the script loads. -/
theorem namedSets_of_recordedBy {cfg : NftConfig} {script : PyStr} {e : Str × Json PyChar}
    (h : ScriptRecordedBy cfg script e) (s : ActiveSets) :
    namedSets e = scriptSets cfg script s := by
  obtain ⟨sets, ts, hsets, rfl⟩ := h
  rw [hsets s]
  show (do
    let a ← stringsOf (sortedJson sets.addrs)
    let t ← stringsOf (sortedJson sets.tcpPorts)
    let u ← stringsOf (sortedJson sets.udpPorts)
    return ⟨a.toFinset, t.toFinset, u.toFinset⟩ : Option ActiveSets) = _
  rw [stringsOf_sortedJson, stringsOf_sortedJson, stringsOf_sortedJson]
  simp [sorted]

/-- A script that is taken for a target at time 3, and the records of the run. -/
def takenFor (target : JsonStr) : World (List PyStr) :=
  (gate (EgressGate.recording .ascii .default)).after World.fresh
    [installTarget target { ts := [] }]

/-- **The audit log misses state changes.** A record that cannot be written leaves a grant in the
store that no record names. A blank target is in the record of the `apply` but not in the script
that was taken, and a target with a comma is one string of the record and two elements of the
script; either way no record names the sets that the script loaded. -/
theorem audit_misses :
    (let ops := [installTarget "1.2.3.4/32".toList ⟨[], some ⟨"OSError".toList, []⟩⟩]
    ∃ g ∈ accepted ((store .ascii).trace Db.empty (ops.flatMap GateOp.storeCalls)),
      ¬ ExactlyOne g.RecordedBy
        ((gate (EgressGate.recording .ascii .default)).after World.fresh ops).audit) ∧
    ∀ target ∈ [JsonStr.ofStr " ".toList, JsonStr.ofStr "1.1.1.1, 2.2.2.2".toList],
      ∃ script, (takenFor target).kernel = [script] ∧
        ∀ e ∈ (takenFor target).audit, ¬ ScriptRecordedBy .default script e := by
  constructor
  · refine ⟨⟨"tok".toList, "n1".toList, 90, ["1.2.3.4/32".toList], [443], "tcp".toList, 3⟩,
      by decide +kernel, ?_⟩
    rintro ⟨pre, x, post, haudit, -⟩
    have hlen : ((gate (EgressGate.recording .ascii .default)).after World.fresh
        [installTarget "1.2.3.4/32".toList ⟨[], some ⟨"OSError".toList, []⟩⟩]).audit.length = 0 :=
      rfl
    rw [haudit, List.length_append, List.length_cons] at hlen
    omega
  -- what the script loads is not what any of the records names
  have hmiss : ∀ (target : JsonStr) (script : PyStr), (takenFor target).kernel = [script] →
      (∀ n ∈ (takenFor target).audit.map namedSets,
        n ≠ scriptSets .default script ⟨∅, ∅, ∅⟩) →
      ∃ script, (takenFor target).kernel = [script] ∧
        ∀ e ∈ (takenFor target).audit, ¬ ScriptRecordedBy .default script e := by
    intro target script hscript hnamed
    refine ⟨script, hscript, fun e he h ↦ ?_⟩
    exact hnamed _ (List.mem_map_of_mem he) (namedSets_of_recordedBy h _)
  intro target htarget
  rcases List.mem_cons.1 htarget with rfl | htarget
  · exact hmiss _ (scriptText (scriptLines .default [] ["443".toList] [])) (by decide +kernel)
      (by decide +kernel)
  · obtain rfl := List.mem_singleton.1 htarget
    exact hmiss _ (scriptText (scriptLines .default ["1.1.1.1, 2.2.2.2".toList] ["443".toList] []))
      (by decide +kernel) (by decide +kernel)

end SourceOS.Gate
