import SourceOS.Foundation.PacketFilter
import SourceOS.Gate.Expiry
import SourceOS.Gate.Firewall

/-!
# What leaves the host

`nft/sourceos-egress.nft` declares the table that the gate works on: the set of the local network,
the three allowlist sets, empty, and the `output` chain, which goes by them and drops everything
else. The file is loaded by an operator; afterwards only the elements of the three sets change.

`egress_denied_by_default` puts this together with the operations of the gate, in any interleaving
of any processes. At every moment there is a list of grants such that a packet leaves if and only if
it is local, or one of these grants reaches its address and one opens its port. They are the grants
that were valid at the reading of the last script `nft` took; before the first there are none, and
after a reading at which all had expired there are none again.
-/

namespace SourceOS.Gate

open Text Net PacketFilter

/-! ### Packets -/

/-- Where a packet goes to. -/
inductive Destination
  | v4 (ip : IPv4)
  | v6 (ip : Fin (2 ^ 128))
deriving DecidableEq

/-- What the rules read of a packet on its way out. -/
structure OutPacket where
  oifname : Str
  daddr : Destination
  /-- The protocol and the port, where there is a TCP or a UDP header: not for other protocols, nor
  for a later fragment. -/
  dport : Option (Proto × Port)
deriving DecidableEq

instance {w : ℕ} (es : List (Elem w)) (n : Fin (2 ^ w)) : Decidable (Admitted es n) :=
  inferInstanceAs (Decidable (∃ e ∈ es, _))

/-- `oifname name`. -/
def onInterface (name : Str) (p : OutPacket) : Bool :=
  p.oifname == name

/-- `ip daddr @set`. -/
def ipDaddr (set : List (Elem 32)) (p : OutPacket) : Bool :=
  match p.daddr with
  | .v4 ip => decide (Admitted set ip)
  | .v6 _ => false

/-- `tcp dport @set` and `udp dport @set`. -/
def dportIn (proto : Proto) (set : List (Elem 16)) (p : OutPacket) : Bool :=
  match p.dport with
  | some (proto', n) => decide (proto' = proto ∧ Admitted set n)
  | none => false

/-! ### The baseline -/

/-- `lan_v4`. -/
def lanV4 : List (Elem 32) :=
  [.network (ofOctets 10 0 0 0) 8, .network (ofOctets 172 16 0 0) 12,
    .network (ofOctets 192 168 0 0) 16]

/-- `chain output`, over a content of the allowlist sets. -/
def outputChain (k : Kernel) : ClosedChain OutPacket where
  rules := [⟨[onInterface "lo".toList], .accept⟩,
    ⟨[ipDaddr lanV4], .accept⟩,
    ⟨[ipDaddr k.addrs, dportIn .tcp k.tcpPorts], .accept⟩,
    ⟨[ipDaddr k.addrs, dportIn .udp k.udpPorts], .accept⟩]
  policy := .drop
  accepts := by simp
  drops := rfl

/-- The packet stays on the host, or goes to the local network. -/
def OutPacket.IsLocal (p : OutPacket) : Prop :=
  p.oifname = "lo".toList ∨ ∃ ip, p.daddr = .v4 ip ∧ Admitted lanV4 ip

/-- One of the grants reaches the address of the packet, and one opens its port. -/
def OutPacket.GrantedBy (gs : List Grant) (p : OutPacket) : Prop :=
  ∃ ip proto n, p.daddr = .v4 ip ∧ p.dport = some (proto, n) ∧
    (∃ g ∈ gs, g.Reaches ip) ∧ ∃ g ∈ gs, g.Opens proto n

theorem ipDaddr_iff {set : List (Elem 32)} {p : OutPacket} :
    ipDaddr set p = true ↔ ∃ ip, p.daddr = .v4 ip ∧ Admitted set ip := by
  rw [ipDaddr]
  rcases p.daddr with ip | ip
  · simp
  · simp

theorem dportIn_iff {proto : Proto} {set : List (Elem 16)} {p : OutPacket} :
    dportIn proto set p = true ↔ ∃ n, p.dport = some (proto, n) ∧ Admitted set n := by
  rw [dportIn]
  rcases p.dport with _ | ⟨proto', n⟩
  · simp
  · simp only [decide_eq_true_eq, Option.some.injEq, Prod.mk.injEq]
    constructor
    · intro ⟨hproto, hn⟩
      exact ⟨n, ⟨hproto, rfl⟩, hn⟩
    · intro ⟨n', ⟨hproto, hn'⟩, hn⟩
      exact ⟨hproto, hn' ▸ hn⟩

/-- **What passes the chain**: what is local, and what the frontier rules accept. -/
theorem outputChain_accepts_iff (k : Kernel) (p : OutPacket) :
    (outputChain k).verdict p = .accept ↔ p.IsLocal ∨
      ∃ ip proto n, p.daddr = .v4 ip ∧ p.dport = some (proto, n) ∧ k.Accepts ⟨ip, proto, n⟩ := by
  rw [ClosedChain.verdict_eq_accept_iff, OutPacket.IsLocal, or_assoc]
  simp only [outputChain, List.exists_mem_cons_iff, List.not_mem_nil, false_and, exists_false,
    or_false, Rule.fits, List.all_cons, List.all_nil, Bool.and_true, Bool.and_eq_true, ipDaddr_iff,
    dportIn_iff, onInterface, beq_iff_eq]
  refine or_congr Iff.rfl (or_congr Iff.rfl ?_)
  constructor
  · rintro (⟨⟨ip, hip, haddr⟩, n, hn, hport⟩ | ⟨⟨ip, hip, haddr⟩, n, hn, hport⟩)
    · exact ⟨ip, .tcp, n, hip, hn, haddr, hport⟩
    · exact ⟨ip, .udp, n, hip, hn, haddr, hport⟩
  · intro h
    obtain ⟨ip, proto, n, hip, hn, haddr, hport⟩ := h
    cases proto with
    | tcp => exact Or.inl ⟨⟨ip, hip, haddr⟩, n, hn, hport⟩
    | udp => exact Or.inr ⟨⟨ip, hip, haddr⟩, n, hn, hport⟩

/-- **What passes a kernel that holds the sets of some grants.** -/
theorem outputChain_accepts_iff_of_union {gs : List Grant} {k : Kernel}
    (hk : k.Holds (ActiveSets.union gs)) (htargets : ∀ g ∈ gs, ∀ x ∈ g.targets, IsTarget x)
    (hproto : ∀ g ∈ gs, g.proto = Proto.tcp.name ∨ g.proto = Proto.udp.name) (p : OutPacket) :
    (outputChain k).verdict p = .accept ↔ p.IsLocal ∨ p.GrantedBy gs := by
  rw [outputChain_accepts_iff, OutPacket.GrantedBy]
  simp only [Kernel.Accepts, admitted_addrs_iff hk htargets, admitted_ports_iff hk hproto]

/-! ### Runs of the gate -/

/-- Of two scripts after which none is taken, both are the same. -/
theorem last_load_unique {ι : Type} {cfg : NftConfig} {pre pre' post post' : List (GateStep ι)}
    {e e' : GateStep ι}
    (hrun : pre ++ e :: post = pre' ++ e' :: post') (he : e.Loads cfg) (he' : e'.Loads cfg)
    (hpost : ∀ x ∈ post, ¬ x.Loads cfg) (hpost' : ∀ x ∈ post', ¬ x.Loads cfg) :
    pre = pre' ∧ e = e' := by
  rcases List.append_eq_append_iff.1 hrun with ⟨m, rfl, htail⟩ | ⟨m, rfl, htail⟩
  · rcases m with _ | ⟨x, m⟩
    · exact ⟨(List.append_nil _).symm, (List.cons.inj htail).1⟩
    · obtain ⟨-, rfl⟩ := List.cons.inj htail
      exact absurd he' (hpost e' (by simp))
  · rcases m with _ | ⟨x, m⟩
    · exact ⟨List.append_nil _, (List.cons.inj htail).1.symm⟩
    · obtain ⟨-, rfl⟩ := List.cons.inj htail
      exact absurd he (hpost' e (by simp))

section Runs

variable {ι : Type} [DecidableEq ι] {py : Runtime} {cfg : NftConfig} {run : List (GateStep ι)}

/-- The reading before the last script is one. -/
theorem loadedFrom_unique {pre pre' : List (GateStep ι)} {env env' : ReadEnv}
    (h : LoadedFrom cfg run pre env) (h' : LoadedFrom cfg run pre' env') :
    pre = pre' ∧ env = env' := by
  obtain ⟨p, mid, l, audit, post, rfl, hmid, hl, hpost⟩ := h
  obtain ⟨p', mid', l', audit', post', hrun, hmid', hl', hpost'⟩ := h'
  rw [← List.cons_append, ← List.append_assoc, ← List.cons_append, ← List.append_assoc] at hrun
  obtain ⟨hread, hload⟩ := last_load_unique hrun hl hl' hpost hpost'
  obtain ⟨rfl, -⟩ := GateStep.load.inj hload
  exact readAt_unique hread hmid hmid'

/-- The grants that were valid at a reading had been accepted. -/
theorem mem_accepted_of_loadedFrom {pre : List (GateStep ι)} {env : ReadEnv}
    (hfrom : LoadedFrom cfg run pre env) {g : Grant}
    (hg : g ∈ unexpired env.cutoff
      (GrantLog.ofTrace ((store py).trace Db.empty (storeCalls pre))).live) :
    g ∈ accepted ((store py).trace Db.empty (storeCalls run)) := by
  obtain ⟨p, mid, l, audit, post, rfl, -⟩ := hfrom
  rw [storeCalls_append]
  exact accepted_append_subset _ _ (mem_accepted_of_mem_unexpired py hg)

/-- **Egress is denied by default**, whatever the processes do and in whatever order. Take any
interleaving of the operations of any processes on a fresh store, after the baseline has been
loaded, in which the accepted grants are for addresses or blocks, and a kernel that holds what the
scripts have loaded. A packet leaves if and only if it is local, or some grant of `gs` reaches its
address and some grant of `gs` opens its port: so never by IPv6, nor by another protocol than TCP
and UDP. Of `gs` it is known that all were accepted, that there are none before the first script,
that after a script they are those stored and valid at its reading, and so none again if all had
expired then. -/
theorem egress_denied_by_default (hrun : IsInterleaving py cfg ⟨∅, ∅, ∅⟩ run)
    (htargets : ∀ g ∈ accepted ((store py).trace Db.empty (storeCalls run)),
      ∀ x ∈ g.targets, IsTarget x) {k : Kernel}
    (hk : k.Holds ((processes py cfg).after (Shared.init ⟨∅, ∅, ∅⟩) run).kernel) :
    ∃ gs : List Grant,
      (∀ p, (outputChain k).verdict p = .accept ↔ p.IsLocal ∨ p.GrantedBy gs) ∧
      (∀ g ∈ gs, g ∈ accepted ((store py).trace Db.empty (storeCalls run))) ∧
      ((∀ pre env, ¬ LoadedFrom cfg run pre env) → gs = []) ∧
      ∀ pre env, LoadedFrom cfg run pre env →
        gs = unexpired env.cutoff
          (GrantLog.ofTrace ((store py).trace Db.empty (storeCalls pre))).live ∧
        ((∀ g ∈ accepted ((store py).trace Db.empty (storeCalls run)), g.exp ≤ env.cutoff) →
          gs = []) := by
  have hsource := sourced_after hrun
  by_cases hnone : ∀ pre env, ¬ LoadedFrom cfg run pre env
  · -- nothing has been loaded, and the sets are those of no grant
    rw [hsource.empty hnone] at hk
    refine ⟨[], fun p ↦ ?_, by simp, fun _ ↦ rfl, fun pre env hfrom ↦ absurd hfrom (hnone pre env)⟩
    exact @outputChain_accepts_iff_of_union [] k hk (by simp) (by simp) p
  · push Not at hnone
    obtain ⟨pre, env, hfrom⟩ := hnone
    have hunion : ∀ {pre env}, LoadedFrom cfg run pre env →
        ((processes py cfg).after (Shared.init ⟨∅, ∅, ∅⟩) run).kernel = ActiveSets.union
          (unexpired env.cutoff
            (GrantLog.ofTrace ((store py).trace Db.empty (storeCalls pre))).live) := by
      intro pre env hfrom
      exact computeActiveSets_ok_of_stands py (stands_after py _) (hsource.reading _ _ hfrom)
    -- there is only one reading before the last script
    have hlast : ∀ {pre' env'}, LoadedFrom cfg run pre' env' → pre' = pre ∧ env' = env := by
      intro pre' env' hfrom'
      exact loadedFrom_unique hfrom' hfrom
    rw [hunion hfrom] at hk
    have hacc : ∀ g ∈ unexpired env.cutoff
        (GrantLog.ofTrace ((store py).trace Db.empty (storeCalls pre))).live,
        g ∈ accepted ((store py).trace Db.empty (storeCalls run)) :=
      fun g hg ↦ mem_accepted_of_loadedFrom hfrom hg
    refine ⟨_, outputChain_accepts_iff_of_union hk (fun g hg ↦ htargets g (hacc g hg))
      (fun g hg ↦ proto_of_mem_accepted py (hacc g hg)), hacc, fun h ↦ absurd hfrom (h pre env),
      fun pre' env' hfrom' ↦ ?_⟩
    obtain ⟨rfl, rfl⟩ := hlast hfrom'
    refine ⟨rfl, fun hexp ↦ List.eq_nil_iff_forall_not_mem.2 fun g hg ↦ ?_⟩
    have hlate := hexp g (hacc g hg)
    have hvalid := of_decide_eq_true (List.mem_filter.1 hg).2
    omega

end Runs

/-- What leaves when one grant has been applied. -/
theorem egress_denied_by_default_appliedOnce : ∃ gs : List Grant,
    (∀ p, (outputChain (.ofLists [.host (ofOctets 1 2 3 4)] [443] [])).verdict p = .accept ↔
      p.IsLocal ∨ p.GrantedBy gs) ∧
    ∀ g ∈ gs, g ∈ accepted ((store .ascii).trace Db.empty (storeCalls appliedOnce)) := by
  have hinterleaving : IsInterleaving .ascii .default ⟨∅, ∅, ∅⟩ appliedOnce := by decide +kernel
  have htargets : ∀ g ∈ accepted ((store .ascii).trace Db.empty (storeCalls appliedOnce)),
      ∀ x ∈ g.targets, IsTarget x := by
    have htarget : IsTarget "1.2.3.4/32".toList := by decide
    intro g hg x hx
    obtain ⟨env, a, ha, rfl, -⟩ := mem_accepted .ascii hg
    obtain ⟨-, rfl⟩ := StoreCall.install.inj (List.mem_singleton.1 ha)
    obtain rfl := List.mem_singleton.1 hx
    exact htarget
  have hholds : (Kernel.ofLists [.host (ofOctets 1 2 3 4)] [443] []).Holds
      ((processes .ascii .default).after (Shared.init ⟨∅, ∅, ∅⟩) appliedOnce).kernel := by
    have hkernel : ((processes .ascii .default).after (Shared.init ⟨∅, ∅, ∅⟩) appliedOnce).kernel =
        .ofLists [.host (ofOctets 1 2 3 4)] [443] [] := by decide +kernel
    rw [hkernel]
    exact Kernel.holds_ofLists _ _ _
  obtain ⟨gs, hpass, hacc, -⟩ := egress_denied_by_default hinterleaving htargets hholds
  exact ⟨gs, hpass, hacc⟩

end SourceOS.Gate
