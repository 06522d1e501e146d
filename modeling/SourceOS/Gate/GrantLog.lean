import Mathlib.Data.Finset.Lattice.Lemmas
import SourceOS.Foundation.Ledger
import SourceOS.Foundation.Lists
import SourceOS.Gate.StoreRun

/-!
# The store refines the log of accepted grants

What the store is for, said without tables: a history of accepted grants (`GrantLog`), read off the
trace of calls and answers, and three unions over the grants of that history that have not expired
(`ActiveSets.union`). The history never looks at the database.

The simulation (`stands_after`) is: the rows of `grants`, in order, stand for the live entries of
the log. `Stands` is where the JSON columns are read back — the row's text decodes to the targets
and ports of the grant that was returned — so the round trip is used once, in `stands_row`.

Two comparisons of the source meet here, `exp <= cutoff` when pruning and `exp > cutoff` when
listing. A prune at a time not later than `t` retires only entries that a question about `exp > t`
excludes, which is the side condition of `Ledger.filter_live`; so pruning cannot be seen.

That pruning does not change **which grants are accepted** either is a separate fact
(`accepted_filter_not_prune`): acceptance reads the replay table, and the primary key of `grants`
never decides it, because every stored grant is backed by a replay record.
-/

namespace SourceOS.Gate

open Text

variable (py : Runtime)

/-! ### The abstract log -/

/-- The history of accepted grants, each marked once a prune has deleted it. -/
abbrev GrantLog := Ledger Grant

/-- What one answered call adds to the history. -/
def GrantLog.note (log : GrantLog) : StoreCall × StoreAnswer → GrantLog
  | (_, .installed (.ok g)) => log.record g
  | (.prune env, .pruned (.ok _)) => log.retire fun g ↦ g.exp ≤ env.cutoff
  | _ => log

/-- The history of a trace. -/
def GrantLog.ofTrace (tr : List (StoreCall × StoreAnswer)) : GrantLog :=
  tr.foldl GrantLog.note Ledger.empty

/-- The grant an answered call was accepted with, if it was. -/
def acceptedBy : StoreCall × StoreAnswer → Option Grant
  | (_, .installed (.ok g)) => some g
  | _ => none

/-- The grants accepted in a trace: those that a call of `install_grant` returned. -/
def accepted (tr : List (StoreCall × StoreAnswer)) : List Grant :=
  tr.filterMap acceptedBy

theorem accepted_concat (tr : List (StoreCall × StoreAnswer)) (e : StoreCall × StoreAnswer) :
    accepted (tr ++ [e]) = accepted tr ++ (acceptedBy e).toList := by
  rw [accepted, List.filterMap_append, ← accepted]
  cases h : acceptedBy e <;> simp [h]

/-- **What the active sets of a collection of grants are meant to be**: the targets without the host
mask, the ports of the grants that are not `udp`, and the ports of those that are. -/
def ActiveSets.union (gs : List Grant) : ActiveSets where
  addrs := (gs.flatMap fun g ↦ g.targets.map fun t ↦ dropHostMask t.val).toFinset
  tcpPorts := ((gs.filter fun g ↦ g.proto ≠ PyStr.lit "udp").flatMap fun g ↦
    g.ports.map PyStr.ofInt).toFinset
  udpPorts := ((gs.filter fun g ↦ g.proto = PyStr.lit "udp").flatMap fun g ↦
    g.ports.map PyStr.ofInt).toFinset

/-- The grants that have not expired at `t`. -/
def unexpired (t : ℤ) (gs : List Grant) : List Grant :=
  gs.filter fun g ↦ t < g.exp

theorem GrantLog.ofTrace_concat (tr : List (StoreCall × StoreAnswer))
    (e : StoreCall × StoreAnswer) :
    GrantLog.ofTrace (tr ++ [e]) = (GrantLog.ofTrace tr).note e := by
  rw [ofTrace, List.foldl_concat, ← ofTrace]

/-- A call that wrote nothing leaves no trace in the history. -/
theorem GrantLog.note_of_wrote_eq_false {log : GrantLog} {c : StoreCall} {r : StoreAnswer}
    (h : r.wrote = false) : log.note (c, r) = log := by
  rcases r with r | r | r
  · rcases r with e | g
    · rfl
    · exact absurd h (by simp [StoreAnswer.wrote])
  · rcases r with e | n
    · cases c <;> rfl
    · exact absurd h (by simp [StoreAnswer.wrote])
  · rfl

/-- The history records exactly the accepted grants. -/
theorem GrantLog.all_ofTrace (tr : List (StoreCall × StoreAnswer)) :
    (GrantLog.ofTrace tr).all = accepted tr := by
  induction tr using List.reverseRecOn with
  | nil => rfl
  | append_singleton tr e ih =>
    rw [ofTrace_concat, accepted, List.filterMap_append, ← accepted, ← ih]
    rcases e with ⟨c, r | r | r⟩
    · rcases r with e | g
      · simp [note, acceptedBy]
      · simp [note, acceptedBy]
    · rcases r with e | n
      · simp [note, acceptedBy]
      · cases c <;> simp [note, acceptedBy]
    · simp [note, acceptedBy]

/-- A call that accepted a grant wrote it. -/
theorem wrote_of_acceptedBy {c : StoreCall} {r : StoreAnswer} {g : Grant}
    (h : acceptedBy (c, r) = some g) : r.wrote = true := by
  rcases r with r | r | r
  · rcases r with e | g'
    · exact absurd h (by simp [acceptedBy])
    · rfl
  · exact absurd h (by simp [acceptedBy])
  · exact absurd h (by simp [acceptedBy])

/-- **Where an accepted grant comes from**: a call of the run. It had not expired then, and its
ports have texts. -/
theorem mem_accepted {db : Db} {calls : List StoreCall} {g : Grant}
    (h : g ∈ accepted ((store py).trace db calls)) :
    ∃ env a, .install env a ∈ calls ∧ g = a.grant env ∧ env.now < a.exp ∧ a.Numerals := by
  induction calls generalizing db with
  | nil => exact absurd h List.not_mem_nil
  | cons c cs ih =>
    obtain ⟨⟨c', r⟩, hmem, hacc⟩ := List.mem_filterMap.1 h
    rcases List.mem_cons.1 hmem with heq | hmem
    · obtain ⟨rfl, rfl⟩ := Prod.mk.inj heq
      rcases store_step_cases py db c' with ⟨env, a, rfl, hstep, hexp, -, -, hports⟩ |
        ⟨env, rfl, hstep⟩ | ⟨-, hwrote⟩
      · rw [hstep] at hacc
        exact ⟨env, a, List.mem_cons_self, (Option.some.inj hacc).symm, hexp, hports⟩
      · rw [hstep] at hacc
        exact absurd hacc (by simp [acceptedBy])
      · rw [wrote_of_acceptedBy hacc] at hwrote
        exact absurd hwrote (by decide)
    · obtain ⟨env, a, ha, hg⟩ := ih (List.mem_filterMap.2 ⟨_, hmem, hacc⟩)
      exact ⟨env, a, List.mem_cons_of_mem _ ha, hg⟩

/-- The ports of an accepted grant have texts. -/
theorem numerals_accepted {db : Db} {calls : List StoreCall} {g : Grant}
    (h : g ∈ accepted ((store py).trace db calls)) : ∀ n ∈ g.ports, Python.HasNumeral n := by
  obtain ⟨env, a, -, rfl, -, hports⟩ := mem_accepted py h
  exact hports

/-- **No two accepted grants have one key.** -/
theorem nodup_accepted (calls : List StoreCall) :
    ((accepted ((store py).trace Db.empty calls)).map Grant.key).Nodup := by
  -- Every accepted key is on record, and a new one is accepted only if it is not.
  refine (Machine.inv_trace_of_mem (M := store py) (I := fun (db : Db) tr ↦
    ((accepted tr).map Grant.key).Nodup ∧
      (accepted tr).map Grant.key ⊆ db.replay.map ReplayRow.key)
    ⟨List.nodup_nil, List.nil_subset _⟩ ?_).1
  rintro db tr c - ⟨hnodup, hsub⟩
  rw [accepted_concat, List.map_append]
  rcases store_step_cases py db c with ⟨env, a, -, hstep, -, hfresh, -⟩ | ⟨env, -, hstep⟩ |
    ⟨hdb, hwrote⟩
  · rw [hstep]
    refine ⟨hnodup.append (List.nodup_singleton _) fun k hk hk' ↦ ?_, ?_⟩
    · obtain rfl : k = a.key := List.mem_singleton.1 hk'
      exact hfresh (hsub hk)
    · rw [show (db.accept env a).replay.map ReplayRow.key = db.replay.map ReplayRow.key ++ [a.key]
        from List.map_append]
      exact List.append_subset.2 ⟨fun k hk ↦ List.mem_append_left _ (hsub hk),
        List.subset_append_right _ _⟩
  · have hnone : acceptedBy (c, ((store py).step db c).2) = none := by
      rw [hstep]
      rfl
    rw [hnone, Option.toList_none, List.map_nil, List.append_nil, hstep]
    exact ⟨hnodup, hsub⟩
  · have hnone : acceptedBy (c, ((store py).step db c).2) = none := by
      by_contra hsome
      obtain ⟨g, hg⟩ := Option.ne_none_iff_exists'.1 hsome
      rw [wrote_of_acceptedBy hg] at hwrote
      exact absurd hwrote (by decide)
    rw [hdb, hnone, Option.toList_none, List.map_nil, List.append_nil]
    exact ⟨hnodup, hsub⟩

/-! ### The unions -/

section Union

/-- The part of a grant the active sets are made of. -/
def Grant.scope (g : Grant) : List JsonStr × List ℤ × PyStr := (g.targets, g.ports, g.proto)

/-- The unions see the scopes only, and neither their order nor their number. -/
theorem ActiveSets.union_congr {gs gs' : List Grant}
    (h : ∀ s, s ∈ gs.map Grant.scope ↔ s ∈ gs'.map Grant.scope) :
    ActiveSets.union gs = ActiveSets.union gs' := by
  have key : ∀ p : List JsonStr × List ℤ × PyStr → Prop,
      (∃ g ∈ gs, p g.scope) ↔ ∃ g ∈ gs', p g.scope := by
    intro p
    have hex : ∀ l : List Grant, (∃ g ∈ l, p g.scope) ↔ ∃ s ∈ l.map Grant.scope, p s := by
      simp
    rw [hex, hex]
    simp only [h]
  have haddrs := fun x ↦ key fun s ↦ ∃ t ∈ s.1, dropHostMask t.val = x
  have htcp := fun x ↦ key fun s ↦ s.2.2 ≠ PyStr.lit "udp" ∧ ∃ n ∈ s.2.1, PyStr.ofInt n = x
  have hudp := fun x ↦ key fun s ↦ s.2.2 = PyStr.lit "udp" ∧ ∃ n ∈ s.2.1, PyStr.ofInt n = x
  unfold ActiveSets.union
  congr 1
  · ext x
    simpa [Grant.scope] using haddrs x
  · ext x
    simpa [Grant.scope, and_assoc] using htcp x
  · ext x
    simpa [Grant.scope, and_assoc] using hudp x

theorem ActiveSets.union_perm {gs gs' : List Grant} (h : gs.Perm gs') :
    ActiveSets.union gs = ActiveSets.union gs' :=
  ActiveSets.union_congr fun _ ↦ (h.map Grant.scope).mem_iff

/-- One turn of the loop is one more member of the union. -/
theorem ActiveSets.add_union (gs : List Grant) (g : Grant) :
    (ActiveSets.union gs).add g = ActiveSets.union (gs ++ [g]) := by
  unfold ActiveSets.add ActiveSets.union
  rcases Decidable.em (g.proto = PyStr.lit "udp") with h | h
  · rw [if_pos h]
    simp [h, List.filter_append, List.toFinset_append]
  · rw [if_neg h]
    have htcp : [g].filter (fun g ↦ g.proto ≠ PyStr.lit "udp") = [g] :=
      List.filter_cons_of_pos (decide_eq_true h)
    have hudp : [g].filter (fun g ↦ g.proto = PyStr.lit "udp") = [] :=
      List.filter_cons_of_neg (by simpa using h)
    simp only [List.filter_append, htcp, hudp, List.flatMap_append, List.toFinset_append,
      List.flatMap_singleton, List.append_nil]

/-- **The loop of `compute_active_sets` computes the unions.** -/
theorem ActiveSets.ofGrants_eq_union (gs : List Grant) :
    ActiveSets.ofGrants gs = ActiveSets.union gs := by
  induction gs using List.reverseRecOn with
  | nil => rfl
  | append_singleton gs g ih =>
    rw [ActiveSets.ofGrants, List.foldl_concat, ← ActiveSets.ofGrants, ih, ActiveSets.add_union]

end Union

/-! ### The rows stand for the live entries -/

/-- The row decodes to the grant, up to the clock reading: the one stored and the one returned are
two readings. -/
def Stands (r : GrantRow) (g : Grant) : Prop :=
  r.decode py = some { g with installedAt := r.installedAt }

theorem loadStrings_dumps (ss : List JsonStr) :
    loadStrings py (Json.dumps (.arr (ss.map fun t ↦ .str t.val))) = some ss := by
  have hvals : (ss.map fun t ↦ Json.str t.val) = (ss.map JsonStr.val).map .str :=
    List.map_map.symm
  have hread : Json.read py.reader (Json.dumps (.arr (ss.map fun t ↦ .str t.val))) =
      some (.arr (ss.map fun t ↦ .str t.val)) := by
    rw [hvals]
    exact Json.read_dumps_of_tidy (Json.tidy_strings (List.forall_mem_map.2 fun t _ ↦ t.normal))
      (Json.plain_strings _) (Json.fits_strings (py.takesDepth (by decide)) _)
  rw [loadStrings, Runtime.loads, hread]
  exact @mapM_map_eq_some _ _ _ (fun t : JsonStr ↦ Json.str t.val)
    (fun t ↦ congrArg some (JsonStr.ofPy_val t)) ss

theorem loadInts_dumps {ns : List ℤ} (h : ∀ n ∈ ns, Python.HasNumeral n) :
    loadInts py (Json.dumps (.arr (ns.map .int) : Json PyChar)) = some ns := by
  have hfits : Json.Fits py.reader 0 (.arr (ns.map .int) : Json PyChar) :=
    Json.fits_ints (py.takesDepth (by decide)) fun n hn ↦ (Python.takesDigits_iff py).2 (h n hn)
  rw [loadInts, Runtime.loads,
    Json.read_dumps_of_tidy (Json.tidy_ints ns) (Json.plain_ints ns) hfits]
  exact @mapM_map_eq_some _ _ _ Json.int (fun _ ↦ rfl) ns

/-- **The JSON columns come back as they were written.** -/
theorem stands_row (env : InstallEnv) {a : GrantArgs} (h : a.Numerals) :
    Stands py (a.row env) (a.grant env) := by
  have htargets : loadStrings py (a.row env).targetsJson = some a.targets :=
    loadStrings_dumps py a.targets
  have hports : loadInts py (a.row env).portsJson = some a.ports := loadInts_dumps py h
  rw [Stands, GrantRow.decode, htargets, hports]
  rfl

variable {py}

theorem Stands.exp_eq {r : GrantRow} {g : Grant} (h : Stands py r g) : r.exp = g.exp := by
  unfold Stands GrantRow.decode at h
  split at h
  · exact (Grant.mk.inj (Option.some.inj h)).2.2.1
  · exact absurd h (by simp)

/-- Two filters that read the expiry only keep rows and grants in step. -/
theorem Stands.filter {rs : List GrantRow} {gs : List Grant} (h : List.Forall₂ (Stands py) rs gs)
    (p : ℤ → Bool) :
    List.Forall₂ (Stands py) (rs.filter fun r ↦ p r.exp) (gs.filter fun g ↦ p g.exp) :=
  List.rel_filter (fun _ _ hrg ↦ by simp only [Stands.exp_eq hrg]) h

/-- Rows that stand for grants all decode, to grants of the same scopes. -/
theorem Stands.mapM {rs : List GrantRow} {gs : List Grant} (h : List.Forall₂ (Stands py) rs gs) :
    ∃ out, rs.mapM (GrantRow.decode py) = some out ∧ out.map Grant.scope = gs.map Grant.scope := by
  induction h with
  | nil => exact ⟨[], rfl, rfl⟩
  | @cons r g rs gs hrg _ ih =>
    obtain ⟨out, hout, hscope⟩ := ih
    refine ⟨{ g with installedAt := r.installedAt } :: out, ?_, ?_⟩
    · have hdec : r.decode py = some { g with installedAt := r.installedAt } := hrg
      rw [List.mapM_cons, hdec, hout]
      rfl
    · rw [List.map_cons, hscope]
      rfl

variable (py)

/-- One step of the store is one step of the log. -/
theorem stands_step {db : Db} {tr : List (StoreCall × StoreAnswer)} (c : StoreCall)
    (h : List.Forall₂ (Stands py) db.grants (GrantLog.ofTrace tr).live) :
    List.Forall₂ (Stands py) ((store py).step db c).1.grants
      (GrantLog.ofTrace (tr ++ [(c, ((store py).step db c).2)])).live := by
  rw [GrantLog.ofTrace_concat]
  rcases store_step_cases py db c with ⟨env, a, rfl, hstep, -, -, -, hports⟩ |
    ⟨env, rfl, hstep⟩ | ⟨hdb, hwrote⟩
  · rw [hstep]
    simp only [GrantLog.note, Ledger.live_record]
    exact List.rel_append h (.cons (stands_row py env hports) .nil)
  · rw [hstep]
    simp only [GrantLog.note, Ledger.live_retire]
    exact Stands.filter h fun exp ↦ !decide (exp ≤ env.cutoff)
  · rw [hdb, GrantLog.note_of_wrote_eq_false hwrote]
    exact h

/-- **The simulation.** After every run the rows of `grants` stand for the live entries of the
history, in order. -/
theorem stands_after (calls : List StoreCall) :
    List.Forall₂ (Stands py) ((store py).after Db.empty calls).grants
      (GrantLog.ofTrace ((store py).trace Db.empty calls)).live :=
  Machine.inv_trace_of_mem
    (I := fun (db : Db) tr ↦ List.Forall₂ (Stands py) db.grants (GrantLog.ofTrace tr).live)
    .nil fun _ _ c _ h ↦ stands_step py c h

/-! ### Reading the sets -/

/-- A call without faults that reads the clock at `t`. -/
def ReadEnv.quiet (t : ℤ) : ReadEnv := { cutoff := t }

@[inherit_doc ReadEnv.quiet]
def InstallEnv.quiet (t : ℤ) : InstallEnv :=
  { now := t, seenAt := t, installedAt := t, returnedAt := t }

/-- Rows that stand for grants are all read, and the loop over them computes the unions over the
grants that have not expired. -/
theorem Stands.activeRows {db : Db} {gs : List Grant} (h : List.Forall₂ (Stands py) db.grants gs)
    (t : ℤ) :
    ∃ out, (db.activeRows t).mapM (GrantRow.decode py) = some out ∧
      ActiveSets.ofGrants out = ActiveSets.union (unexpired t gs) := by
  -- the rows are listed in another order, and the unions do not see the order
  have hsorted : (db.activeRows t).Perm (db.grants.filter fun r ↦ t < r.exp) :=
    List.perm_insertionSort _ _
  obtain ⟨gs', hgs', hperm⟩ := List.perm_comp_forall₂ hsorted (Stands.filter h fun exp ↦ t < exp)
  obtain ⟨out, hout, hscope⟩ := Stands.mapM hgs'
  refine ⟨out, hout, ?_⟩
  rw [ActiveSets.ofGrants_eq_union]
  refine (ActiveSets.union_congr fun x ↦ ?_).trans (ActiveSets.union_perm hperm)
  rw [hscope]

/-- The computation on a database whose rows stand for grants. -/
theorem computeActiveSets_of_stands {db : Db} {gs : List Grant}
    (h : List.Forall₂ (Stands py) db.grants gs) (t : ℤ) :
    computeActiveSets py (.quiet t) db = .ok (ActiveSets.union (unexpired t gs)) := by
  obtain ⟨out, hout, hsets⟩ := Stands.activeRows py h t
  have hlist : listActive py (.quiet t) db = (.ok out, db) := by
    simp [listActive, withConnection, ReadEnv.quiet, hout, bind, Except.bind]
  rw [computeActiveSets, hlist, Except.map, hsets]

/-- A call that returned, whatever might have failed, returned the same. -/
theorem computeActiveSets_ok_of_stands {db : Db} {gs : List Grant} {env : ReadEnv}
    {sets : ActiveSets} (h : List.Forall₂ (Stands py) db.grants gs)
    (hsets : computeActiveSets py env db = .ok sets) :
    sets = ActiveSets.union (unexpired env.cutoff gs) := by
  obtain ⟨out, hout, hunion⟩ := Stands.activeRows py h env.cutoff
  rcases hlist : (listActive py env db).1 with e | out'
  · rw [computeActiveSets, hlist] at hsets
    exact absurd hsets (by simp [Except.map])
  · have hmap : (db.activeRows env.cutoff).mapM (GrantRow.decode py) = some out' :=
      listActive_ok py hlist
    rw [computeActiveSets, hlist] at hsets
    rw [← hunion, Option.some.inj (hout.symm.trans hmap)]
    exact (Except.ok.inj hsets).symm

/-- A grant that is stored and has not expired was accepted. -/
theorem mem_accepted_of_mem_unexpired {calls : List StoreCall} {t : ℤ} {g : Grant}
    (h : g ∈ unexpired t (GrantLog.ofTrace ((store py).trace Db.empty calls)).live) :
    g ∈ accepted ((store py).trace Db.empty calls) := by
  rw [← GrantLog.all_ofTrace]
  exact Ledger.live_subset_all _ (List.mem_filter.1 h).1

/-! ### Pruning does not decide acceptance -/

/-- Every key of the stored grants is recorded. -/
theorem Backed.mem_replay {db : Db} (h : Backed db) {k : PyStr × PyStr}
    (hk : k ∈ db.grants.map GrantRow.key) : k ∈ db.replay.map ReplayRow.key := by
  obtain ⟨g, hg, rfl⟩ := List.mem_map.1 hk
  obtain ⟨r, hr, hkey, -⟩ := h g hg
  exact List.mem_map.2 ⟨r, hr, hkey⟩

/-- On a backed database the outcome of the transaction, as far as the answer and the replay table
are concerned, is a function of the replay table. -/
theorem installBody_replay {env : InstallEnv} {a : GrantArgs} {db db' : Db} (h : Backed db)
    (h' : Backed db') (hreplay : db.replay = db'.replay) :
    (installBody env a db).map (fun p ↦ p.2.replay) =
      (installBody env a db').map fun p ↦ p.2.replay := by
  unfold installBody recordReplay
  rw [hreplay]
  cases env.insertReplay.check with
  | error e => rfl
  | ok u =>
    cases hkey : a.bindKey with
    | error e => rfl
    | ok v =>
      cases !(fitsInteger a.exp && fitsInteger env.seenAt) with
      | true => rfl
      | false =>
        rcases Decidable.em (a.key ∈ db'.replay.map ReplayRow.key) with hmem | hfresh
        · simp only [if_pos hmem]
        · -- the key is fresh in `replay`, so it is fresh in both tables of grants
          have hdb : a.key ∉ db.grants.map GrantRow.key := fun hk ↦
            hfresh (hreplay ▸ h.mem_replay hk)
          have hdb' : a.key ∉ db'.grants.map GrantRow.key := fun hk ↦ hfresh (h'.mem_replay hk)
          simp only [if_neg hfresh, Bool.false_eq_true, if_false, bind, Except.bind, insertGrant,
            hkey, if_neg hdb, if_neg hdb']
          cases env.insertGrant.check with
          | error e => rfl
          | ok u =>
            cases a.dumpPorts with
            | error e => rfl
            | ok u => cases !(fitsInteger a.exp && fitsInteger env.installedAt) <;> rfl

/-- **Acceptance reads the replay table only.** -/
theorem installGrant_replay {env : InstallEnv} {a : GrantArgs} {db db' : Db} (h : Backed db)
    (h' : Backed db') (hreplay : db.replay = db'.replay) :
    (installGrant env a db).1 = (installGrant env a db').1 ∧
      (installGrant env a db).2.replay = (installGrant env a db').2.replay := by
  have hbody := @installBody_replay env a _ _ h h' hreplay
  unfold installGrant
  split
  · exact ⟨rfl, hreplay⟩
  · cases env.convert.check with
    | error e => exact ⟨rfl, hreplay⟩
    | ok u =>
      cases env.init.check with
      | error e => exact ⟨rfl, hreplay⟩
      | ok u =>
        unfold withConnection
        cases env.connect.check with
        | error e => exact ⟨rfl, hreplay⟩
        | ok u =>
          rcases hb : installBody env a db with e | ⟨u, d⟩ <;>
            rcases hb' : installBody env a db' with e' | ⟨u', d'⟩ <;>
              simp only [hb, hb', Except.map, reduceCtorEq, Except.ok.injEq,
                Except.error.injEq] at hbody
          · subst hbody
            exact ⟨rfl, hreplay⟩
          · cases env.commit.check with
            | error e => exact ⟨rfl, hreplay⟩
            | ok u => exact ⟨rfl, hbody⟩

/-- The call is a prune. -/
def StoreCall.isPrune : StoreCall → Bool
  | .prune _ => true
  | _ => false

/-- A prune keeps the replay table. -/
theorem prune_replay (env : ReadEnv) (db : Db) :
    ((store py).step db (.prune env)).1.replay = db.replay := by
  rcases pruneExpired_cases env db with ⟨e, h⟩ | h
  · simp [store, h]
  · simp [store, h]

/-- **Pruning, at any moments and any number of times, does not change which grants are
accepted.** -/
theorem accepted_filter_not_prune {db db' : Db} (h : Backed db) (h' : Backed db')
    (hreplay : db.replay = db'.replay) (calls : List StoreCall) :
    accepted ((store py).trace db calls) =
      accepted ((store py).trace db' (calls.filter fun c ↦ !c.isPrune)) := by
  induction calls generalizing db db' with
  | nil => rfl
  | cons c cs ih =>
    have hb := backed_step py h c
    cases c with
    | prune env =>
      have hstep := ih hb h' ((prune_replay py env db).trans hreplay)
      rw [Machine.trace_cons, accepted, List.filterMap_cons_none rfl, ← accepted, hstep]
      rfl
    | list env =>
      have hdb : ((store py).step db (.list env)).1 = db := listActive_snd py env db
      have hdb' : ((store py).step db' (.list env)).1 = db' := listActive_snd py env db'
      have hstep := ih h h' hreplay
      rw [List.filter_cons_of_pos rfl, Machine.trace_cons, Machine.trace_cons, accepted, accepted,
        List.filterMap_cons_none rfl, List.filterMap_cons_none rfl, ← accepted, ← accepted, hdb,
        hdb', hstep]
    | install env a =>
      obtain ⟨hanswer, hreplay'⟩ := @installGrant_replay env a _ _ h h' hreplay
      have hstep := ih hb (backed_step py h' (.install env a)) hreplay'
      rw [List.filter_cons_of_pos rfl, Machine.trace_cons, Machine.trace_cons, accepted, accepted,
        List.filterMap_cons, List.filterMap_cons, ← accepted, ← accepted, hstep]
      have hans : ((store py).step db (.install env a)).2 =
          ((store py).step db' (.install env a)).2 := congrArg StoreAnswer.installed hanswer
      rw [hans]

/-! ### The refinement -/

/-- The readings of the clock a call makes, in order. -/
def StoreCall.readings : StoreCall → List ℤ
  | .install env _ => [env.now, env.seenAt, env.installedAt, env.returnedAt]
  | .prune env | .list env => [env.cutoff]

/-- The readings of the clock never decrease during the run, and `t` is not before the last. -/
def ClockUpTo (t : ℤ) (calls : List StoreCall) : Prop :=
  (calls.flatMap StoreCall.readings ++ [t]).Pairwise (· ≤ ·)

instance (t : ℤ) (calls : List StoreCall) : Decidable (ClockUpTo t calls) :=
  inferInstanceAs (Decidable (List.Pairwise _ _))

/-- No prune of the run used a cutoff later than `t`. -/
def PrunedUpTo (t : ℤ) (calls : List StoreCall) : Prop :=
  ∀ env, .prune env ∈ calls → env.cutoff ≤ t

theorem ClockUpTo.prunedUpTo {t : ℤ} {calls : List StoreCall} (h : ClockUpTo t calls) :
    PrunedUpTo t calls := by
  intro env henv
  have hmem : env.cutoff ∈ calls.flatMap StoreCall.readings :=
    List.mem_flatMap.2 ⟨.prune env, henv, List.mem_singleton_self _⟩
  exact (List.pairwise_append.1 h).2.2 _ hmem _ (List.mem_singleton_self _)

/-- What a run has retired by time `t` had expired by then. -/
theorem spares_after {t : ℤ} {calls : List StoreCall} (h : PrunedUpTo t calls) :
    Ledger.Spares (fun g : Grant ↦ t < g.exp)
      (GrantLog.ofTrace ((store py).trace Db.empty calls)) := by
  refine Machine.inv_trace_of_mem
    (I := fun _ tr ↦ Ledger.Spares (fun g : Grant ↦ t < g.exp) (GrantLog.ofTrace tr))
    (Ledger.spares_empty _) ?_
  intro db tr c hc hI
  rw [GrantLog.ofTrace_concat]
  rcases store_step_cases py db c with ⟨env, a, rfl, hstep, -⟩ | ⟨env, rfl, hstep⟩ | ⟨-, hwrote⟩
  · rw [hstep]
    exact hI.record _
  · rw [hstep]
    refine hI.retire fun g hg ↦ ?_
    have hcut : env.cutoff ≤ t := h env hc
    have hexp : g.exp ≤ env.cutoff := of_decide_eq_true hg
    exact decide_eq_false (by omega)
  · rw [GrantLog.note_of_wrote_eq_false hwrote]
    exact hI

/-- **The active sets of a run** are the unions over its accepted and unexpired grants. -/
theorem computeActiveSets_after {t : ℤ} {calls : List StoreCall} (h : PrunedUpTo t calls) :
    computeActiveSets py (.quiet t) ((store py).after Db.empty calls) =
      .ok (ActiveSets.union (unexpired t (accepted ((store py).trace Db.empty calls)))) := by
  rw [computeActiveSets_of_stands py (stands_after py calls), unexpired,
    Ledger.filter_live (spares_after py h), GrantLog.all_ofTrace, unexpired]

/-- The request a grant was accepted with: everything but the clock reading. -/
def Grant.args (g : Grant) : GrantArgs :=
  ⟨g.tokenId, g.nonce, g.exp, g.targets, g.ports, g.proto⟩

/-- The unions over the unexpired grants see the requests only, and not their order. -/
theorem union_unexpired_perm {t : ℤ} {gs gs' : List Grant}
    (h : (gs.map Grant.args).Perm (gs'.map Grant.args)) :
    ActiveSets.union (unexpired t gs) = ActiveSets.union (unexpired t gs') := by
  have hscopes : ∀ l : List Grant, (unexpired t l).map Grant.scope =
      ((l.map Grant.args).filter fun a ↦ t < a.exp).map fun a ↦ (a.targets, a.ports, a.proto) := by
    intro l
    rw [List.filter_map, List.map_map]
    rfl
  refine ActiveSets.union_congr fun s ↦ ?_
  rw [hscopes, hscopes]
  exact ((h.filter _).map _).mem_iff

/-- **The store refines the plain log of accepted grants.** Take any run of calls on a fresh store
under a clock that never goes back, and a time `t` after it. The active sets at `t` are the unions
over the accepted grants that expire after `t`. So they are the same for every run that differs only
in its prunes, and for every run that accepts the same requests in another order. And a prune, at
any cutoff, returns the number of accepted and not yet pruned grants that have expired by then. -/
theorem compute_active_sets_refines_log {t : ℤ} {calls : List StoreCall}
    (hclock : ClockUpTo t calls) :
    computeActiveSets py (.quiet t) ((store py).after Db.empty calls) =
        .ok (ActiveSets.union (unexpired t (accepted ((store py).trace Db.empty calls)))) ∧
      (∀ calls', ClockUpTo t calls' →
        calls'.filter (fun c ↦ !c.isPrune) = calls.filter (fun c ↦ !c.isPrune) →
          computeActiveSets py (.quiet t) ((store py).after Db.empty calls') =
            computeActiveSets py (.quiet t) ((store py).after Db.empty calls)) ∧
      (∀ calls', ClockUpTo t calls' →
        ((accepted ((store py).trace Db.empty calls')).map Grant.args).Perm
            ((accepted ((store py).trace Db.empty calls)).map Grant.args) →
          computeActiveSets py (.quiet t) ((store py).after Db.empty calls') =
            computeActiveSets py (.quiet t) ((store py).after Db.empty calls)) ∧
      (∀ cutoff, ((store py).step ((store py).after Db.empty calls) (.prune (.quiet cutoff))).2 =
        .pruned (.ok ((GrantLog.ofTrace ((store py).trace Db.empty calls)).live.countP
          fun g ↦ g.exp ≤ cutoff))) ∧
      ∀ env n, ((store py).step ((store py).after Db.empty calls) (.prune env)).2 =
          .pruned (.ok n) →
        n = (GrantLog.ofTrace ((store py).trace Db.empty calls)).live.countP
          fun g ↦ g.exp ≤ env.cutoff := by
  have hsets := computeActiveSets_after py hclock.prunedUpTo
  have hcount : ∀ cutoff : ℤ, ((store py).after Db.empty calls).grants.countP
        (fun r ↦ r.exp ≤ cutoff) =
      (GrantLog.ofTrace ((store py).trace Db.empty calls)).live.countP fun g ↦ g.exp ≤ cutoff := by
    intro cutoff
    rw [List.countP_eq_length_filter, List.countP_eq_length_filter]
    exact (Stands.filter (stands_after py calls) fun exp ↦ exp ≤ cutoff).length_eq
  refine ⟨hsets, ?_, ?_, ?_, ?_⟩
  · intro calls' hclock' hsame
    have hacc : accepted ((store py).trace Db.empty calls') =
        accepted ((store py).trace Db.empty calls) := by
      rw [accepted_filter_not_prune py backed_empty backed_empty rfl calls', hsame,
        ← accepted_filter_not_prune py backed_empty backed_empty rfl calls]
    rw [hsets, computeActiveSets_after py hclock'.prunedUpTo, hacc]
  · intro calls' hclock' hperm
    rw [hsets, computeActiveSets_after py hclock'.prunedUpTo, union_unexpired_perm hperm]
  · intro cutoff
    rw [← hcount cutoff]
    rfl
  · intro env n h
    have hret : (pruneExpired env ((store py).after Db.empty calls)).1 = .ok n :=
      StoreAnswer.pruned.inj h
    rcases pruneExpired_cases env ((store py).after Db.empty calls) with ⟨e, he⟩ | he
    · rw [he] at hret
      exact absurd hret (by simp)
    · rw [he] at hret
      rw [← hcount env.cutoff]
      exact (Except.ok.inj hret).symm

/-- Two grants, the first expired and pruned, the second a host with a redundant mask. -/
theorem compute_active_sets_refines_log_of_two_installs :
    ClockUpTo 20
        [.install (.quiet 1) ⟨"a".toList, "1".toList, 10, ["1.1.1.1".toList], [443], []⟩,
          .prune (.quiet 15),
          .install (.quiet 16)
            ⟨"b".toList, "2".toList, 90, ["2.2.2.2/32".toList], [53], "UDP".toList⟩] ∧
      computeActiveSets .ascii (.quiet 20) ((store .ascii).after Db.empty
        [.install (.quiet 1) ⟨"a".toList, "1".toList, 10, ["1.1.1.1".toList], [443], []⟩,
          .prune (.quiet 15),
          .install (.quiet 16)
            ⟨"b".toList, "2".toList, 90, ["2.2.2.2/32".toList], [53], "UDP".toList⟩]) =
        .ok ⟨{PyStr.lit "2.2.2.2"}, ∅, {PyStr.lit "53"}⟩ := by
  refine ⟨by decide, (compute_active_sets_refines_log .ascii (by decide)).1.trans ?_⟩
  decide

end SourceOS.Gate
