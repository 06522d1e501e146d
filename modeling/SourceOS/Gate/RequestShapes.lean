import SourceOS.Gate.FrontEnds

/-!
# What a `grant.install` request is taken to say

The daemon does not ask what the fields of a request are, it converts them: `exp` with `int`, the
members of `targets` with `str`, those of `ports` with `int`, in order (`Converts`). So a request
may be accepted whose expiry is no JSON number and whose ports are texts of numbers.

What is stored is what the conversions gave, member by member, and on fields of the intended shapes
the conversions do nothing (`grant_install_stores`). Texts and objects in place of the two arrays
are left out: `for` goes through the characters of the one and the keys of the other.

Nor does the store ask what a protocol is: what does not spell `udp` is `tcp`
(`grant_opens_one_protocol`).
-/

namespace SourceOS.Gate

open Text

/-- The arguments are the request's parameters, converted. -/
structure Converts (py : Runtime) (params : Json PyChar) (a : GrantArgs) : Prop where
  exp : ∃ v, params.get? "exp".toList = some v ∧ Python.int py v = .ok a.exp
  targets : ∃ v ts, params.get? "targets".toList = some v ∧ iterate v = .ok ts ∧
    a.targets.map JsonStr.val = ts.map (Python.str py.unicode)
  ports : ∃ v ps, params.get? "ports".toList = some v ∧ iterate v = .ok ps ∧
    List.Forall₂ (fun p n ↦ Python.int py p = .ok n) ps a.ports

theorem int_of_toInt {py : Runtime} {j : Json PyChar} {n : ℤ} (h : toInt py j = .ok n) :
    Python.int py j = .ok n := by
  rw [toInt] at h
  split at h
  · rename_i m hm
    rw [hm, Except.ok.inj h]
  · exact absurd h (by simp)

theorem get?_of_getItem {obj v : Json PyChar} {key : String} (h : getItem obj key = .ok v) :
    obj.get? key.toList = some v := by
  rw [getItem] at h
  split at h
  · rename_i v' hv
    rw [hv, Except.ok.inj h]
  · exact absurd h (by simp)

/-- The strings of what has been read are in normal form, and so are those of its members -/
theorem tidy_of_get? {j v : Json PyChar} {k : PyStr} (hj : Json.Tidy j) (h : j.get? k = some v) :
    Json.Tidy v := by
  cases j with
  | obj ms =>
    obtain ⟨hnodup, htidy⟩ := hj
    exact (Json.tidyMembers_iff.1 htidy _ ((Json.lookup_eq_some_iff hnodup).1 h)).2
  | null | bool | int | float | str | arr => exact absurd h (by simp [Json.get?])

/-- and those of what a loop goes through. -/
theorem tidy_of_iterate {v : Json PyChar} {xs : List (Json PyChar)} (hv : Json.Tidy v)
    (h : iterate v = .ok xs) : ∀ x ∈ xs, Json.Tidy x := by
  cases v with
  | arr ys =>
    obtain rfl := Except.ok.inj h
    exact Json.tidyItems_iff.1 hv
  | str s =>
    obtain rfl := Except.ok.inj h
    intro x hx
    obtain ⟨c, -, rfl⟩ := List.mem_map.1 hx
    exact PyStr.normal_singleton c
  | obj ms =>
    obtain rfl := Except.ok.inj h
    intro x hx
    obtain ⟨m, hm, rfl⟩ := List.mem_map.1 hx
    exact (Json.tidyMembers_iff.1 hv.2 m hm).1
  | null | bool | int | float => exact absurd h (by simp [iterate])

/-- The parameters of a request have been read. -/
theorem tidy_params {py : Runtime} {raw : Str} {r : Request} (h : requestOf py raw = some r) :
    Json.Tidy r.params := by
  rw [requestOf] at h
  split at h
  · rename_i ms hread
    have hparams : Json.Tidy (paramsOf (.obj ms)) := by
      rw [paramsOf]
      split
      · rename_i v hv
        split
        · exact tidy_of_get? (Json.tidy_of_read hread) hv
        · exact ⟨List.nodup_nil, trivial⟩
      · exact ⟨List.nodup_nil, trivial⟩
    rw [checkRequest] at h
    split at h
    · rename_i method ms' _ hms
      obtain rfl := Option.some.inj h
      exact hms ▸ hparams
    · exact absurd h (by simp [Except.toOption])
    · exact absurd h (by simp [Except.toOption])
  · exact absurd h (by simp)

/-- The texts of values that have been read come back from the store as they are. -/
theorem map_val_ofPy_str (db : UnicodeDb) {xs : List (Json PyChar)} (h : ∀ x ∈ xs, Json.Tidy x) :
    (xs.map fun x ↦ JsonStr.ofPy (Python.str db x)).map JsonStr.val = xs.map (Python.str db) := by
  rw [List.map_map]
  exact List.map_congr_left fun x hx ↦ JsonStr.ofPy_of_normal (Python.normal_str db (h x hx))

/-- **The parameters of a request that gets to the store** have been converted, field by field; the
protocol is what `str` makes of its parameter. -/
theorem converts_of_grantArgs {py : Runtime} {params : Json PyChar} {a : GrantArgs}
    (htidy : Json.Tidy params) (h : grantArgs py params = .ok a) :
    Converts py params a ∧ ∃ proto, params.get? "proto".toList = some proto ∧
      a.proto = Python.str py.unicode proto := by
  obtain ⟨-, -, h⟩ := exists_of_bind_eq_ok h
  obtain ⟨tokenId, -, h⟩ := exists_of_bind_eq_ok h
  obtain ⟨nonce, -, h⟩ := exists_of_bind_eq_ok h
  obtain ⟨exp, hexp, h⟩ := exists_of_bind_eq_ok h
  obtain ⟨n, hn, h⟩ := exists_of_bind_eq_ok h
  obtain ⟨targets, htargets, h⟩ := exists_of_bind_eq_ok h
  obtain ⟨ts, hts, h⟩ := exists_of_bind_eq_ok h
  obtain ⟨ports, hports, h⟩ := exists_of_bind_eq_ok h
  obtain ⟨ps, hps, h⟩ := exists_of_bind_eq_ok h
  obtain ⟨ns, hns, h⟩ := exists_of_bind_eq_ok h
  obtain ⟨proto, hproto, h⟩ := exists_of_bind_eq_ok h
  obtain rfl := Except.ok.inj h
  have htargets := get?_of_getItem htargets
  exact ⟨⟨⟨exp, get?_of_getItem hexp, int_of_toInt hn⟩,
    ⟨targets, ts, htargets, hts,
      map_val_ofPy_str py.unicode (tidy_of_iterate (tidy_of_get? htidy htargets) hts)⟩,
    ⟨ports, ps, get?_of_getItem hports, hps, (mapM_eq_ok_iff.1 hns).imp fun _ _ ↦ int_of_toInt⟩⟩,
    proto, get?_of_getItem hproto, rfl⟩

variable {κ : Type} (G : EgressGate κ)

/-- **An accepted `grant.install`** has converted its parameters, and the store has taken the
grant. -/
theorem install_of_ok {env : RequestEnv} {raw : Str} {r : Request} {w : World κ}
    (hr : requestOf G.py raw = some r) (hmethod : r.method = PyStr.lit "grant.install")
    (hok : (handleClient G env raw w).1.ok = true) :
    ∃ a, grantArgs G.py r.params = .ok a ∧
      (handleClient G env raw w).2.db = w.db.accept env.install.store a ∧ a.Numerals := by
  obtain ⟨id, hrun⟩ := @handleClient_of_requestOf _ G env _ _ w hr
  rw [hrun] at hok ⊢
  cases ha : grantArgs G.py r.params with
  | error e =>
    have hdispatch : (dispatch G env r).run w = (.error e, w) := by
      rw [dispatch, if_neg (by rw [hmethod]; decide), if_neg (by rw [hmethod]; decide),
        if_pos hmethod, ha]
      rfl
    rw [hdispatch] at hok
    exact absurd hok (by simp [Response.ok])
  | ok a =>
    refine ⟨a, rfl, ?_⟩
    rw [dispatch_install G env hmethod ha] at hok ⊢
    rcases hinstall : (G.installGrant env.install a (applyFlag r.params)).run w with ⟨e | u, w'⟩
    · rw [Effect.run_bind_of_error hinstall] at hok
      exact absurd hok (by simp [Response.ok])
    · rw [Effect.run_bind_of_ok hinstall]
      by_cases haccepts : Accepts env.install.store a w.db
      · have hdb := db_installGrant_of_accepts G haccepts (applyFlag r.params)
        rw [hinstall] at hdb
        exact ⟨hdb, haccepts.numerals⟩
      · obtain ⟨e, he⟩ := run_installGrant_of_not_accepts G haccepts (applyFlag r.params)
        rw [he] at hinstall
        exact absurd (congrArg Prod.fst hinstall) (by simp)

/-- The value is neither a text nor an object. -/
def NotSpelledOut : Json PyChar → Prop
  | .str _ | .obj _ => False
  | _ => True

/-- `for` goes through an array, a text or an object. -/
theorem eq_arr_of_iterate {v : Json PyChar} {xs : List (Json PyChar)} (h : iterate v = .ok xs)
    (hv : NotSpelledOut v) : v = .arr xs := by
  cases v with
  | arr ys => rw [Except.ok.inj h]
  | str s => exact hv.elim
  | obj ms => exact hv.elim
  | null | bool | int | float => exact absurd h (by simp [iterate])

/-- **What an accepted `grant.install` stores.** Take any line, in any state and whatever happens
around it, that asks for a grant with `targets` and `ports` that are neither texts nor objects. If
the answer is `ok`, the expiry converted to an integer, the targets are an array and the ports are
an array of values that convert to integers; one row has been added, and it stands for a grant with
that expiry, the texts of the targets and the converted ports, in order. Where the expiry is an
integer, the targets are texts or the ports are integers, they are stored as they are. -/
theorem grant_install_stores {env : RequestEnv} {raw : Str} {r : Request} {w : World κ}
    (hr : requestOf G.py raw = some r) (hmethod : r.method = PyStr.lit "grant.install")
    (htargets : ∀ v, r.params.get? "targets".toList = some v → NotSpelledOut v)
    (hports : ∀ v, r.params.get? "ports".toList = some v → NotSpelledOut v)
    (hok : (handleClient G env raw w).1.ok = true) :
    ∃ exp ts ps row g,
      r.params.get? "exp".toList = some exp ∧ r.params.get? "targets".toList = some (.arr ts) ∧
      r.params.get? "ports".toList = some (.arr ps) ∧
      (handleClient G env raw w).2.db.grants = w.db.grants ++ [row] ∧
      row.decode G.py = some g ∧
      (Python.int G.py exp = .ok g.exp ∧
        g.targets.map JsonStr.val = ts.map (Python.str G.py.unicode) ∧
        List.Forall₂ (fun p n ↦ Python.int G.py p = .ok n) ps g.ports) ∧
      (∀ n, exp = .int n → g.exp = n) ∧ (∀ ss, ts = ss.map .str → g.targets.map JsonStr.val = ss) ∧
      ∀ ns, ps = ns.map .int → g.ports = ns := by
  obtain ⟨a, ha, hdb, hports'⟩ := install_of_ok G hr hmethod hok
  obtain ⟨⟨⟨exp, hexp, hn⟩, ⟨vt, ts, hvt, hts, hat⟩, ⟨vp, ps, hvp, hps, hns⟩⟩, -⟩ :=
    converts_of_grantArgs (tidy_params hr) ha
  obtain rfl := eq_arr_of_iterate hts (htargets vt hvt)
  obtain rfl := eq_arr_of_iterate hps (hports vp hvp)
  refine ⟨exp, ts, ps, a.row env.install.store, _, hexp, hvt, hvp, congrArg Db.grants hdb,
    stands_row G.py _ hports', ⟨hn, hat, hns⟩, ?_, ?_, ?_⟩
  · rintro n rfl
    exact (Except.ok.inj hn).symm
  · rintro ss rfl
    show a.targets.map JsonStr.val = ss
    rw [hat, List.map_map]
    exact List.map_id _
  · rintro ns rfl
    show a.ports = ns
    rw [List.forall₂_map_left_iff] at hns
    have heq := hns.imp fun _ _ h ↦ Except.ok.inj h
    rw [List.forall₂_eq_eq_eq] at heq
    exact heq.symm

/-- The line that asks for a grant. -/
def installLine (params : List (PyStr × Json PyChar)) : Str :=
  Json.dumps (.obj [(PyStr.lit "method", .str (PyStr.lit "grant.install")),
    (PyStr.lit "params", .obj params)])

/-- The parameters are texts and integers that a line can carry. -/
def Sendable (params : List (PyStr × Json PyChar)) : Prop :=
  Json.Tidy (.obj params) ∧ Json.Plain (.obj params) ∧
    Json.Fits Runtime.ascii.reader 1 (.obj params)

instance : DecidablePred Sendable := fun _ ↦ inferInstanceAs (Decidable (_ ∧ _ ∧ _))

/-- It is read as that request. -/
theorem requestOf_installLine {params : List (PyStr × Json PyChar)} (h : Sendable params) :
    requestOf .ascii (installLine params) =
      some ⟨PyStr.lit "grant.install", .obj params⟩ := by
  obtain ⟨htidy, hplain, hfits⟩ := h
  have hkeys : [PyStr.lit "method", PyStr.lit "params"].Nodup := by decide
  have hread : Runtime.ascii.loads (installLine params) =
      some (.obj [(PyStr.lit "method", .str (PyStr.lit "grant.install")),
        (PyStr.lit "params", .obj params)]) :=
    Json.read_dumps_of_tidy
      ⟨hkeys, PyStr.normal_ofStr _, PyStr.normal_ofStr _, PyStr.normal_ofStr _, htidy, trivial⟩
      ⟨hkeys, trivial, hplain, trivial⟩
      ⟨Runtime.ascii.takesDepth (by decide), trivial, hfits, trivial⟩
  rw [requestOf, hread]
  -- `params or {}`
  cases params <;> rfl

/-- The parameters of a grant of one host with given ports. -/
def paramsWithPorts (ports : List (Json PyChar)) : List (PyStr × Json PyChar) :=
  [(PyStr.lit "token_id", .str (PyStr.lit "a")), (PyStr.lit "nonce", .str (PyStr.lit "1")),
    (PyStr.lit "exp", .int 90), (PyStr.lit "targets", .arr [.str (PyStr.lit "1.1.1.1")]),
    (PyStr.lit "ports", .arr ports), (PyStr.lit "proto", .str (PyStr.lit "tcp"))]

/-- A port given as a number and one given as a text. -/
theorem grant_install_stores_of_ports :
    ∃ row g,
      (handleClient EgressGate.idle (.noBaseline 1)
        (installLine (paramsWithPorts [.int 443, .str (PyStr.lit "80")]))
        ⟨Db.empty, (), []⟩).2.db.grants = [] ++ [row] ∧
      row.decode .ascii = some g ∧ g.exp = 90 ∧
      g.targets.map JsonStr.val = [PyStr.lit "1.1.1.1"] := by
  have hsend : Sendable (paramsWithPorts [.int 443, .str (PyStr.lit "80")]) := by decide
  obtain ⟨exp, ts, ps, row, g, hexp, hts, -, hrow, hg, -, hexp', hts', -⟩ :=
    grant_install_stores EgressGate.idle
      (requestOf_installLine hsend) rfl (by rintro v ⟨⟩; trivial)
      (by rintro v ⟨⟩; trivial)
      (show (handleClient EgressGate.idle (.noBaseline 1)
        (installLine (paramsWithPorts [.int 443, .str (PyStr.lit "80")]))
        ⟨Db.empty, (), []⟩).1.ok = true by decide +kernel)
  exact ⟨row, g, hrow, hg, hexp' 90 (Option.some.inj hexp).symm,
    hts' [PyStr.lit "1.1.1.1"] (Json.arr.inj (Option.some.inj hts)).symm⟩

/-- **A text is accepted as a port.** The ports of the request are no integers, the answer is `ok`,
and an integer is stored. -/
theorem grant_install_takes_texts :
    requestOf .ascii (installLine (paramsWithPorts [.str (PyStr.lit "443")])) =
        some ⟨PyStr.lit "grant.install", .obj (paramsWithPorts [.str (PyStr.lit "443")])⟩ ∧
      (handleClient EgressGate.idle (.noBaseline 1)
        (installLine (paramsWithPorts [.str (PyStr.lit "443")])) ⟨Db.empty, (), []⟩).1.ok = true ∧
      (handleClient EgressGate.idle (.noBaseline 1)
        (installLine (paramsWithPorts [.str (PyStr.lit "443")]))
        ⟨Db.empty, (), []⟩).2.db.grants.map GrantRow.portsJson = ["[443]".toList] :=
  ⟨requestOf_installLine (by decide), by decide +kernel, by decide +kernel⟩

/-! ### The protocol -/

/-- The value names a protocol: it is a text that is `tcp` or `udp`, up to letter case. -/
def NamesProto (proto : Json PyChar) : Prop :=
  ∃ s, proto = .str s ∧ (s.map lowerChar = PyStr.lit "tcp" ∨ s.map lowerChar = PyStr.lit "udp")

/-- **The default is `tcp`**: only what spells `udp` becomes `udp`. -/
theorem normalizeProto_eq_udp_iff {proto : PyStr} :
    normalizeProto proto = PyStr.lit "udp" ↔ proto.map lowerChar = PyStr.lit "udp" := by
  have htcp : PyStr.lit "tcp" ≠ PyStr.lit "udp" := by decide
  rw [normalizeProto]
  rcases proto with _ | ⟨c, s⟩
  · decide
  · rw [if_neg (List.cons_ne_nil c s)]
    split
    · rfl
    · rename_i hnone
      exact iff_of_false htcp fun h ↦ hnone (Or.inr h)

/-- The active sets after one more grant: its ports go to the set of its protocol. -/
theorem union_unexpired_concat (t : ℤ) (gs : List Grant) (g : Grant) :
    ActiveSets.union (unexpired t (gs ++ [g])) =
      if g.exp ≤ t then ActiveSets.union (unexpired t gs)
      else (ActiveSets.union (unexpired t gs)).add g := by
  rw [unexpired, List.filter_append, ← unexpired, List.filter_singleton]
  by_cases h : g.exp ≤ t
  · rw [if_pos h, decide_eq_false (by omega), cond_false, List.append_nil]
  · rw [if_neg h, decide_eq_true (by omega), cond_true, ActiveSets.add_union]

/-- **A grant opens one protocol.** Take any store that can be reached, any line that asks for a
grant, and whatever happens around it. If the answer is `ok`, the ports of the request enter, until
its expiry, the active ports of one protocol: of `udp` if the parameter `proto`, as a text, is `udp`
up to letter case, and of `tcp` whatever else it is. The active ports of the other protocol are the
same as before. -/
theorem grant_opens_one_protocol {env : RequestEnv} {raw : Str} {r : Request} {w : World κ}
    (hreach : ∃ calls, w.db = (store G.py).after Db.empty calls)
    (hr : requestOf G.py raw = some r) (hmethod : r.method = PyStr.lit "grant.install")
    (hok : (handleClient G env raw w).1.ok = true) :
    ∃ proto a, r.params.get? "proto".toList = some proto ∧ Converts G.py r.params a ∧
      ∀ t, ∃ before after,
        computeActiveSets G.py (.quiet t) w.db = .ok before ∧
        computeActiveSets G.py (.quiet t) (handleClient G env raw w).2.db = .ok after ∧
        if a.exp ≤ t then after = before
        else if (Python.str G.py.unicode proto).map lowerChar = PyStr.lit "udp" then
          after.udpPorts = before.udpPorts ∪ (a.ports.map PyStr.ofInt).toFinset ∧
            after.tcpPorts = before.tcpPorts
        else after.tcpPorts = before.tcpPorts ∪ (a.ports.map PyStr.ofInt).toFinset ∧
          after.udpPorts = before.udpPorts := by
  obtain ⟨calls, hcalls⟩ := hreach
  obtain ⟨a, ha, hdb, hports⟩ := install_of_ok G hr hmethod hok
  obtain ⟨hconverts, proto, hproto, hstr⟩ := converts_of_grantArgs (tidy_params hr) ha
  have hstands := stands_after G.py calls
  rw [← hcalls] at hstands
  -- the rows still stand for grants after one more of them, so the sets can be computed
  have hafter := List.rel_append hstands (.cons (stands_row G.py env.install.store hports) .nil)
  refine ⟨proto, a, hproto, hconverts, fun t ↦ ?_⟩
  have hsets := @computeActiveSets_of_stands G.py (w.db.accept env.install.store a) _ hafter t
  rw [union_unexpired_concat, ← hdb] at hsets
  refine ⟨_, _, computeActiveSets_of_stands G.py hstands t, hsets, ?_⟩
  have hexp : (a.grant env.install.store).exp = a.exp := rfl
  rw [hexp]
  split
  case isTrue => rfl
  case isFalse =>
    have hudp : (a.grant env.install.store).proto = PyStr.lit "udp" ↔
        (Python.str G.py.unicode proto).map lowerChar = PyStr.lit "udp" := by
      rw [← hstr]
      exact normalizeProto_eq_udp_iff
    split
    case isTrue h =>
      rw [ActiveSets.add, if_pos (hudp.2 h)]
      exact ⟨rfl, rfl⟩
    case isFalse h =>
      rw [ActiveSets.add, if_neg (mt hudp.1 h)]
      exact ⟨rfl, rfl⟩

/-- The parameters of a grant of one host and port with a given protocol. -/
def paramsWithProto (proto : Json PyChar) : List (PyStr × Json PyChar) :=
  [(PyStr.lit "token_id", .str (PyStr.lit "a")), (PyStr.lit "nonce", .str (PyStr.lit "1")),
    (PyStr.lit "exp", .int 90), (PyStr.lit "targets", .arr [.str (PyStr.lit "1.1.1.1")]),
    (PyStr.lit "ports", .arr [.int 443]), (PyStr.lit "proto", proto)]

/-- A grant for `UDP`, in a fresh store. -/
theorem grant_opens_one_protocol_of_upper :
    ∃ before after,
      computeActiveSets .ascii (.quiet 5) Db.empty = .ok before ∧
      computeActiveSets .ascii (.quiet 5) (handleClient EgressGate.idle (.noBaseline 1)
        (installLine (paramsWithProto (.str (PyStr.lit "UDP")))) ⟨Db.empty, (), []⟩).2.db =
        .ok after ∧
      after.tcpPorts = before.tcpPorts := by
  have hsend : Sendable (paramsWithProto (.str (PyStr.lit "UDP"))) := by decide
  obtain ⟨proto, a, hproto, hconverts, hsets⟩ :=
    @grant_opens_one_protocol _ EgressGate.idle (.noBaseline 1) _ _ ⟨Db.empty, (), []⟩ ⟨[], rfl⟩
      (requestOf_installLine hsend) rfl (by decide +kernel)
  obtain ⟨before, after, hbefore, hafter, h⟩ := hsets 5
  obtain rfl : Json.str (PyStr.lit "UDP") = proto := Option.some.inj hproto
  obtain ⟨v, hv, hexp⟩ := hconverts.exp
  obtain rfl : Json.int 90 = v := Option.some.inj hv
  have hexp : 90 = a.exp := Except.ok.inj hexp
  rw [if_neg (by omega), if_pos (by decide)] at h
  exact ⟨before, after, hbefore, hafter, h.2⟩

/-- **An unknown protocol opens `tcp`.** The request names `sctp`, the answer is `ok`, and its port
is active for `tcp`. -/
theorem unknown_protocol_opens_tcp :
    requestOf .ascii (installLine (paramsWithProto (.str (PyStr.lit "sctp")))) =
        some ⟨PyStr.lit "grant.install", .obj (paramsWithProto (.str (PyStr.lit "sctp")))⟩ ∧
      ¬ NamesProto (.str (PyStr.lit "sctp")) ∧
      (handleClient EgressGate.idle (.noBaseline 1)
        (installLine (paramsWithProto (.str (PyStr.lit "sctp"))))
        ⟨Db.empty, (), []⟩).1.ok = true ∧
      (computeActiveSets .ascii (.quiet 5) Db.empty).toOption = some ⟨∅, ∅, ∅⟩ ∧
      ((computeActiveSets .ascii (.quiet 5) (handleClient EgressGate.idle (.noBaseline 1)
        (installLine (paramsWithProto (.str (PyStr.lit "sctp"))))
        ⟨Db.empty, (), []⟩).2.db).toOption.map ActiveSets.tcpPorts) =
          some {PyStr.lit "443"} := by
  refine ⟨requestOf_installLine (by decide), ?_, by decide +kernel, by decide +kernel,
    by decide +kernel⟩
  rintro ⟨s, hs, h⟩
  obtain rfl := Json.str.inj hs
  exact absurd h (by decide)

end SourceOS.Gate
