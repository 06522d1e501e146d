import SourceOS.Gate.Store

/-!
# Runs of the grant store

What holds of the two tables after any run of calls, whatever the clock and whatever fails.

Everything rests on one inversion, `store_step_cases`: a step accepts a fresh key, or prunes, or
leaves the database as it was. Three facts are then read off it.

* `replay` only grows (`replay_prefix_after`), so a key once recorded stays recorded
  (`mem_replay_after`) — pruning does not touch this table.
* A call returns normally only for a key that is not recorded, and records it. So **at most one call
  per key succeeds** in a whole run (`countP_installedUnder_le_one`), also after the grant has
  expired and been pruned. The clock plays no part in this.
* Every row of `grants` is backed by a row of `replay` with the same key and expiry (`Backed`).
-/

namespace SourceOS.Gate

variable (py : Runtime)

/-! ### One step -/

/-- Whether a call returned normally after writing. -/
def StoreAnswer.wrote : StoreAnswer → Bool
  | .installed (.ok _) | .pruned (.ok _) => true
  | _ => false

/-- **What a step can do**: accept a grant under a fresh key, prune, or nothing. -/
theorem store_step_cases (db : Db) (c : StoreCall) :
    (∃ env a, c = .install env a ∧
        (store py).step db c = (db.accept env a, .installed (.ok (a.grant env))) ∧
        env.now < a.exp ∧ a.key ∉ db.replay.map ReplayRow.key ∧
        a.key ∉ db.grants.map GrantRow.key ∧ a.Numerals) ∨
      (∃ env, c = .prune env ∧ (store py).step db c =
        (db.prune env.cutoff, .pruned (.ok (db.grants.countP fun r ↦ r.exp ≤ env.cutoff)))) ∨
      (((store py).step db c).1 = db ∧ ((store py).step db c).2.wrote = false) := by
  cases c with
  | install env a =>
    rcases h : (installGrant env a db).1 with e | g
    · refine Or.inr (Or.inr ⟨installGrant_error h, ?_⟩)
      simp [store, h, StoreAnswer.wrote]
    · obtain ⟨rfl, hexp, hreplay, hgrants, hdb, hports⟩ := installGrant_ok h
      refine Or.inl ⟨env, a, rfl, ?_, hexp, hreplay, hgrants, hports⟩
      simp [store, h, hdb]
  | prune env =>
    rcases pruneExpired_cases env db with ⟨e, h⟩ | h
    · refine Or.inr (Or.inr ?_)
      simp [store, h, StoreAnswer.wrote]
    · refine Or.inr (Or.inl ⟨env, rfl, ?_⟩)
      simp [store, h]
  | list env => exact Or.inr (Or.inr ⟨listActive_snd py env db, rfl⟩)

/-- A step only appends to `replay`. -/
theorem replay_prefix_step (db : Db) (c : StoreCall) :
    db.replay <+: ((store py).step db c).1.replay := by
  rcases store_step_cases py db c with ⟨env, a, -, h, -⟩ | ⟨env, -, h⟩ | ⟨h, -⟩
  · rw [h]
    exact List.prefix_append _ _
  · rw [h]
    exact List.prefix_rfl
  · rw [h]

/-! ### Whole runs -/

/-- **`replay` is append-only.** -/
theorem replay_prefix_after (db : Db) (calls : List StoreCall) :
    db.replay <+: ((store py).after db calls).replay :=
  Machine.rel_after (R := fun db db' : Db ↦ db.replay <+: db'.replay) (fun _ ↦ List.prefix_rfl)
    List.IsPrefix.trans (replay_prefix_step py) db calls

/-- The call is an `install_grant` under the key `k` that returned normally. -/
def installedUnder (k : PyStr × PyStr) : StoreCall × StoreAnswer → Bool
  | (.install _ a, .installed (.ok _)) => a.key == k
  | _ => false

/-- A successful call finds its key unrecorded and leaves it recorded. -/
theorem key_fresh_of_installedUnder {k : PyStr × PyStr} {db : Db} {c : StoreCall}
    (h : installedUnder k (c, ((store py).step db c).2) = true) :
    k ∉ db.replay.map ReplayRow.key ∧
      k ∈ ((store py).step db c).1.replay.map ReplayRow.key := by
  rcases store_step_cases py db c with ⟨env, a, rfl, hstep, -, hfresh, -⟩ | ⟨env, rfl, hstep⟩ |
    ⟨-, hwrote⟩
  · rw [hstep] at h ⊢
    obtain rfl : a.key = k := by simpa [installedUnder] using h
    exact ⟨hfresh, by simp [Db.accept, ReplayRow.key, GrantArgs.key]⟩
  · rw [hstep] at h
    exact absurd h (by simp [installedUnder])
  · rcases ha : ((store py).step db c).2 with r | r | r <;> rw [ha] at h hwrote
    · rcases r with e | g
      · exact absurd h (by cases c <;> simp [installedUnder])
      · exact absurd hwrote (by simp [StoreAnswer.wrote])
    · exact absurd h (by cases c <;> simp [installedUnder])
    · exact absurd h (by cases c <;> simp [installedUnder])

/-- **At most one call per key succeeds**, in any run from any state. -/
theorem countP_installedUnder_le_one (k : PyStr × PyStr) (db : Db) (calls : List StoreCall) :
    ((store py).trace db calls).countP (installedUnder k) ≤ 1 :=
  Machine.countP_trace_le_one (fun db : Db ↦ k ∈ db.replay.map ReplayRow.key)
    (fun db c h ↦ ((replay_prefix_step py db c).map _).subset h)
    (fun _ _ h ↦ (key_fresh_of_installedUnder py h).1)
    (fun _ _ h ↦ (key_fresh_of_installedUnder py h).2) db calls

/-- Every stored grant is backed by a record of its key with the same expiry. -/
def Backed (db : Db) : Prop :=
  ∀ g ∈ db.grants, ∃ r ∈ db.replay, r.key = g.key ∧ r.exp = g.exp

theorem backed_step {db : Db} (h : Backed db) (c : StoreCall) :
    Backed ((store py).step db c).1 := by
  rcases store_step_cases py db c with ⟨env, a, -, hstep, -⟩ | ⟨env, -, hstep⟩ | ⟨hstep, -⟩
  · rw [hstep]
    intro g hg
    rcases List.mem_append.1 hg with hg | hg
    · obtain ⟨r, hr, hkey⟩ := h g hg
      exact ⟨r, List.mem_append_left _ hr, hkey⟩
    · rw [List.mem_singleton.1 hg]
      exact ⟨_, List.mem_append_right _ (List.mem_singleton_self _), rfl, rfl⟩
  · rw [hstep]
    intro g hg
    exact h g (List.mem_filter.1 hg).1
  · rw [hstep]
    exact h

theorem backed_empty : Backed Db.empty :=
  fun _ hg ↦ absurd hg List.not_mem_nil

theorem backed_after (calls : List StoreCall) : Backed ((store py).after Db.empty calls) :=
  Machine.inv_after (I := Backed) backed_empty
    (fun _ c h ↦ backed_step py h c) calls

/-- **Grants are installed at most once.** After every run of calls on a fresh store: each key has
been installed by at most one call; each stored grant is backed by a record with its key and expiry,
and no later run removes or changes a record; and the next call, if it is an `install_grant` that
raises, leaves the database exactly as it is. -/
theorem install_grant_at_most_once (calls : List StoreCall) :
    (∀ k, ((store py).trace Db.empty calls).countP (installedUnder k) ≤ 1) ∧
      (∀ g ∈ ((store py).after Db.empty calls).grants,
        ∃ r ∈ ((store py).after Db.empty calls).replay, r.key = g.key ∧ r.exp = g.exp) ∧
      (∀ more, ((store py).after Db.empty calls).replay <+:
        ((store py).after Db.empty (calls ++ more)).replay) ∧
      ∀ env a e,
        ((store py).step ((store py).after Db.empty calls) (.install env a)).2 =
            .installed (.error e) →
          ((store py).step ((store py).after Db.empty calls) (.install env a)).1 =
            (store py).after Db.empty calls := by
  refine ⟨fun k ↦ countP_installedUnder_le_one py k _ calls, backed_after py calls, ?_, ?_⟩
  · intro more
    rw [Machine.after_append]
    exact replay_prefix_after py _ more
  · intro env a e h
    exact installGrant_error (StoreAnswer.installed.inj h)

end SourceOS.Gate
