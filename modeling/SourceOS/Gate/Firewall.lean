import SourceOS.Foundation.Net
import SourceOS.Gate.GrantLog

/-!
# What the frontier rules accept

The other side of the three allowlist sets: the two frontier rules of the baseline's `output` chain,
which accept a packet when its destination is in `frontier_allow_v4` and its port is in the port set
of its protocol. The rules for loopback and the local network come before them and are not about
grants.

A grant is one statement — these targets, on these ports, with this protocol — and the store
flattens all of them into three sets that the rules recombine. So what is accepted
(`accepts_iff`) is *some* unexpired grant reaching the address and *some* unexpired grant opening
the port, and those may be two. `NoMixing` says exactly when this makes no difference: for every two
unexpired grants, the targets of one lie within the targets of the grants that open a port of the
other.
-/

namespace SourceOS.Gate

open Text Net

/-! ### Packets, sets and rules -/

/-- The transport protocols the rules know. -/
inductive Proto
  | tcp
  | udp
deriving DecidableEq

/-- The name of a protocol in a grant. -/
def Proto.name : Proto → PyStr
  | .tcp => PyStr.lit "tcp"
  | .udp => PyStr.lit "udp"

/-- The parts of a packet the rules read. -/
structure Packet where
  dst : IPv4
  proto : Proto
  dport : Port
deriving DecidableEq

/-- The three allowlist sets of the kernel; all are declared `flags interval`. -/
structure Kernel where
  addrs : List (Elem 32)
  tcpPorts : List (Elem 16)
  udpPorts : List (Elem 16)
deriving DecidableEq

/-- The port set of a protocol. -/
def Kernel.ports (k : Kernel) : Proto → List (Elem 16)
  | .tcp => k.tcpPorts
  | .udp => k.udpPorts

@[inherit_doc Kernel.ports]
def ActiveSets.ports (s : ActiveSets) : Proto → Finset PyStr
  | .tcp => s.tcpPorts
  | .udp => s.udpPorts

/-- One of the two rules `ip daddr @frontier_allow_v4 … dport @… accept` applies. -/
def Kernel.Accepts (k : Kernel) (p : Packet) : Prop :=
  Admitted k.addrs p.dst ∧ Admitted (k.ports p.proto) p.dport

/-- **The kernel's sets hold exactly the given texts**: an address element for each text that stands
for a target, a port for each numeral. -/
structure Kernel.Holds (k : Kernel) (s : ActiveSets) : Prop where
  addrs : ∀ e, e ∈ k.addrs ↔ ∃ x ∈ s.addrs, ∃ t, Target.readPy x = some t ∧ t.elem = e
  ports : ∀ proto e, e ∈ k.ports proto ↔
    ∃ n : Port, PyStr.ofInt n.val ∈ s.ports proto ∧ e = .single n

/-- A port has a text. -/
theorem hasNumeral_port (n : Port) : Python.HasNumeral n.val :=
  @Python.hasNumeral_of_lt n.val 5 (by decide) (n.isLt.trans (by decide))

/-- The sets of given targets and ports, as texts. -/
def ActiveSets.ofLists (ts : List Target) (ns ms : List Port) : ActiveSets where
  addrs := (ts.map fun t ↦ PyStr.ofStr t.text).toFinset
  tcpPorts := (ns.map fun n ↦ PyStr.ofInt n.val).toFinset
  udpPorts := (ms.map fun n ↦ PyStr.ofInt n.val).toFinset

/-- The kernel that holds given targets and ports. -/
def Kernel.ofLists (ts : List Target) (ns ms : List Port) : Kernel where
  addrs := ts.map Target.elem
  tcpPorts := ns.map .single
  udpPorts := ms.map .single

theorem Kernel.holds_ofLists (ts : List Target) (ns ms : List Port) :
    (Kernel.ofLists ts ns ms).Holds (.ofLists ts ns ms) := by
  have hports : ∀ (l : List Port) (e : Elem 16), e ∈ l.map .single ↔
      ∃ n : Port, PyStr.ofInt n.val ∈ (l.map fun n : Port ↦ PyStr.ofInt n.val).toFinset ∧
        e = .single n := by
    intro l e
    simp only [List.mem_toFinset, List.mem_map]
    constructor
    · rintro ⟨n, hn, rfl⟩
      exact ⟨n, ⟨n, hn, rfl⟩, rfl⟩
    · rintro ⟨n, ⟨m, hm, hdec⟩, rfl⟩
      have hval : m.val = n.val := by exact_mod_cast PyStr.ofInt_injective hdec
      exact ⟨n, Fin.ext hval ▸ hm, rfl⟩
  constructor
  · intro e
    simp [Kernel.ofLists, ActiveSets.ofLists]
  · intro proto e
    cases proto with
    | tcp => exact hports ns e
    | udp => exact hports ms e

/-- The grant has a target that covers the address. -/
def Grant.Reaches (g : Grant) (ip : IPv4) : Prop :=
  ∃ x ∈ g.targets, Covers x.val ip

/-- The grant is for the protocol and lists the port. -/
def Grant.Opens (g : Grant) (proto : Proto) (n : Port) : Prop :=
  g.proto = proto.name ∧ (n.val : ℤ) ∈ g.ports

/-- The grant alone authorises the packet. -/
def Grant.Authorises (g : Grant) (p : Packet) : Prop :=
  g.Reaches p.dst ∧ g.Opens p.proto p.dport

instance (g : Grant) (ip : IPv4) : Decidable (g.Reaches ip) :=
  inferInstanceAs (Decidable (∃ x ∈ g.targets, _))

instance (g : Grant) (proto : Proto) (n : Port) : Decidable (g.Opens proto n) :=
  inferInstanceAs (Decidable (_ ∧ _))

instance (g : Grant) (p : Packet) : Decidable (g.Authorises p) :=
  inferInstanceAs (Decidable (_ ∧ _))

/-! ### Targets and protocols of stored grants -/

/-- **Removing the host mask does not change what a target covers.** -/
theorem covers_dropHostMask (t : Target) (ip : IPv4) :
    Covers (dropHostMask t.text) ip ↔ Covers t.text ip := by
  have hslash : ∀ ip, PyChar.char '/' ∉ PyStr.ofStr (render ip) := fun ip h ↦
    not_mem_render (by decide) (by decide) ip (PyStr.mem_ofStr.1 h)
  cases t with
  | host a =>
    have hdrop : dropHostMask (render a) = PyStr.ofStr (render a) := replace_of_not_mem (hslash a)
    rw [Target.text, hdrop]
  | block a len =>
    have hmask : ∀ len : Fin 33, dropHostMask ('/' :: numeral len : Str) =
        if len = 32 then [] else PyStr.ofStr ('/' :: numeral len) := by decide
    have hdrop : dropHostMask (render a ++ '/' :: numeral len : Str) =
        PyStr.ofStr (render a) ++ dropHostMask ('/' :: numeral len : Str) := by
      rw [PyStr.ofStr_append]
      exact replace_append_of_not_mem (hslash a) _
    rw [Target.text, hdrop, hmask]
    split
    · -- a block of full length is its only address
      rename_i hlen
      subst hlen
      have hhost := @covers_text (.host a) ip
      have hblock := @covers_text (.block a 32) ip
      rw [List.append_nil]
      refine hhost.trans (Iff.trans ?_ hblock.symm)
      simp [Target.elem, Elem.Admits, Fin.ext_iff]
    · rw [PyStr.ofStr_append]

/-- The stored protocol is `tcp` or `udp`. -/
theorem normalizeProto_cases (proto : PyStr) :
    normalizeProto proto = PyStr.lit "tcp" ∨ normalizeProto proto = PyStr.lit "udp" := by
  unfold normalizeProto
  simp only
  generalize (if proto = [] then PyStr.lit "tcp" else proto).map lowerChar = p
  split
  · assumption
  · exact Or.inl rfl

variable (py : Runtime)

theorem proto_of_mem_accepted {calls : List StoreCall} {g : Grant}
    (h : g ∈ accepted ((store py).trace Db.empty calls)) :
    g.proto = Proto.tcp.name ∨ g.proto = Proto.udp.name := by
  obtain ⟨env, a, -, rfl, -⟩ := mem_accepted py h
  exact normalizeProto_cases a.proto

/-! ### What is accepted -/

section Accepts

variable {gs : List Grant} {k : Kernel}

/-- An address is admitted when some grant reaches it. -/
theorem admitted_addrs_iff (hk : k.Holds (ActiveSets.union gs))
    (htargets : ∀ g ∈ gs, ∀ x ∈ g.targets, IsTarget x.val) (ip : IPv4) :
    Admitted k.addrs ip ↔ ∃ g ∈ gs, g.Reaches ip := by
  have hcovers : Admitted k.addrs ip ↔ ∃ x ∈ (ActiveSets.union gs).addrs, Covers x ip := by
    simp only [Admitted, hk.addrs, Covers]
    constructor
    · rintro ⟨_, ⟨x, hx, t, ht, rfl⟩, hip⟩
      exact ⟨x, hx, t, ht, hip⟩
    · rintro ⟨x, hx, t, ht, hip⟩
      exact ⟨t.elem, ⟨x, hx, t, ht, rfl⟩, hip⟩
  rw [hcovers]
  constructor
  · rintro ⟨y, hy, hip⟩
    obtain ⟨g, hg, hgy⟩ := List.mem_flatMap.1 (List.mem_toFinset.1 hy)
    obtain ⟨x, hx, rfl⟩ := List.mem_map.1 hgy
    obtain ⟨t, ht⟩ := htargets g hg x hx
    rw [← ht, covers_dropHostMask, ht] at hip
    exact ⟨g, hg, x, hx, hip⟩
  · rintro ⟨g, hg, x, hx, hip⟩
    obtain ⟨t, ht⟩ := htargets g hg x hx
    rw [← ht, ← covers_dropHostMask, ht] at hip
    refine ⟨dropHostMask x.val, ?_, hip⟩
    exact List.mem_toFinset.2 (List.mem_flatMap.2 ⟨g, hg, List.mem_map.2 ⟨x, hx, rfl⟩⟩)

/-- A port is admitted when some grant opens it. -/
theorem admitted_ports_iff (hk : k.Holds (ActiveSets.union gs))
    (hproto : ∀ g ∈ gs, g.proto = Proto.tcp.name ∨ g.proto = Proto.udp.name) (proto : Proto)
    (n : Port) : Admitted (k.ports proto) n ↔ ∃ g ∈ gs, g.Opens proto n := by
  have hset : Admitted (k.ports proto) n ↔
      PyStr.ofInt n.val ∈ (ActiveSets.union gs).ports proto := by
    simp only [Admitted, hk.ports]
    constructor
    · rintro ⟨_, ⟨m, hm, rfl⟩, hn⟩
      rwa [show n = m from hn]
    · exact fun h ↦ ⟨.single n, ⟨n, h, rfl⟩, rfl⟩
  -- what is not `udp` counts as `tcp`, and nothing else is ever stored
  have hname : ∀ g ∈ gs, (g.proto ≠ PyStr.lit "udp" ↔ g.proto = Proto.tcp.name) := by
    intro g hg
    rcases hproto g hg with h | h <;> rw [h] <;> decide
  rw [hset]
  cases proto with
  | tcp =>
    simp only [ActiveSets.ports, ActiveSets.union, List.mem_toFinset, List.mem_flatMap,
      List.mem_map, List.mem_filter, decide_eq_true_eq, PyStr.ofInt_injective.eq_iff]
    constructor
    · rintro ⟨g, ⟨hg, hp⟩, m, hm, rfl⟩
      exact ⟨g, hg, (hname g hg).1 hp, hm⟩
    · rintro ⟨g, hg, hp, hn⟩
      exact ⟨g, ⟨hg, (hname g hg).2 hp⟩, _, hn, rfl⟩
  | udp =>
    simp only [ActiveSets.ports, ActiveSets.union, List.mem_toFinset, List.mem_flatMap,
      List.mem_map, List.mem_filter, decide_eq_true_eq, PyStr.ofInt_injective.eq_iff]
    constructor
    · rintro ⟨g, ⟨hg, hp⟩, m, hm, rfl⟩
      exact ⟨g, hg, hp, hm⟩
    · rintro ⟨g, hg, hp, hn⟩
      exact ⟨g, ⟨hg, hp⟩, _, hn, rfl⟩

end Accepts

/-! ### When no grant widens another -/

/-- The elements of an interval set that the targets of a grant are. -/
def Grant.elems (g : Grant) : List (Elem 32) :=
  g.targets.filterMap fun x ↦ (Target.readPy x.val).map Target.elem

/-- The number is that of a port. -/
def IsPort (n : ℤ) : Prop :=
  0 ≤ n ∧ n < 2 ^ 16

instance : DecidablePred IsPort := fun _ ↦ inferInstanceAs (Decidable (_ ∧ _))

/-- The elements of the grants that list a port for a protocol. -/
def elemsListing (us : List Grant) (proto : PyStr) (n : ℤ) : List (Elem 32) :=
  (us.filter fun u ↦ u.proto = proto ∧ n ∈ u.ports).flatMap Grant.elems

/-- The targets of all grants `gs` lie within the targets of those grants `us` that list a port, for
every port that one of the grants `gs` lists. -/
def NoMixing (gs us : List Grant) : Prop :=
  ∀ h ∈ gs, ∀ n ∈ h.ports, IsPort n →
    ∀ e ∈ gs.flatMap Grant.elems, e.coveredBy (elemsListing us h.proto n) = true

instance (gs us : List Grant) : Decidable (NoMixing gs us) :=
  inferInstanceAs (Decidable (∀ h ∈ gs, ∀ n ∈ h.ports, _))

/-- The targets of the grants `us` lie within those of the grants `gs`, and the ports are among
theirs; this is asked of grants with targets and ports only. -/
def NothingLost (gs us : List Grant) : Prop :=
  ∀ u ∈ us, u.elems ≠ [] → ∀ n ∈ u.ports, IsPort n →
    (∃ h ∈ gs, h.proto = u.proto ∧ n ∈ h.ports) ∧
      ∀ e ∈ u.elems, e.coveredBy (gs.flatMap Grant.elems) = true

instance (gs us : List Grant) : Decidable (NothingLost gs us) :=
  inferInstanceAs (Decidable (∀ u ∈ us, _ → ∀ n ∈ u.ports, _))

section Elems

variable {gs us : List Grant}

/-- A grant reaches the addresses that its elements admit. -/
theorem Grant.reaches_iff {g : Grant} {ip : IPv4} : g.Reaches ip ↔ Admitted g.elems ip := by
  simp only [Reaches, Covers, Admitted, elems, List.mem_filterMap, Option.map_eq_some_iff]
  constructor
  · rintro ⟨x, hx, t, ht, hip⟩
    exact ⟨t.elem, ⟨x, hx, t, ht, rfl⟩, hip⟩
  · rintro ⟨_, ⟨x, hx, t, ht, rfl⟩, hip⟩
    exact ⟨x, hx, t, ht, hip⟩

theorem admitted_flatMap_iff {ip : IPv4} :
    Admitted (gs.flatMap Grant.elems) ip ↔ ∃ g ∈ gs, g.Reaches ip := by
  simp only [Admitted, List.mem_flatMap, Grant.reaches_iff]
  constructor
  · rintro ⟨e, ⟨g, hg, he⟩, hip⟩
    exact ⟨g, hg, e, he, hip⟩
  · rintro ⟨g, hg, e, he, hip⟩
    exact ⟨e, ⟨g, hg, he⟩, hip⟩

theorem admitted_elemsListing_iff {proto : Proto} {n : Port} {ip : IPv4} :
    Admitted (elemsListing us proto.name n.val) ip ↔
      ∃ u ∈ us, u.Opens proto n ∧ u.Reaches ip := by
  rw [elemsListing, admitted_flatMap_iff]
  simp only [List.mem_filter, decide_eq_true_eq, Grant.Opens, and_assoc]

/-- An element of a grant admits an address. -/
theorem Grant.exists_reaches {g : Grant} (h : g.elems ≠ []) : ∃ ip, g.Reaches ip := by
  obtain ⟨e, es, he⟩ := List.exists_cons_of_ne_nil h
  have hmem : e ∈ g.elems := he ▸ List.mem_cons_self
  obtain ⟨x, -, hx⟩ := List.mem_filterMap.1 hmem
  obtain ⟨t, -, rfl⟩ := Option.map_eq_some_iff.1 hx
  obtain ⟨ip, hip⟩ := t.exists_admits
  exact ⟨ip, reaches_iff.2 ⟨t.elem, hmem, hip⟩⟩

/-- A port number, as one of the packets. -/
theorem exists_port {n : ℤ} (h : IsPort n) : ∃ m : Port, (m.val : ℤ) = n :=
  ⟨⟨n.toNat, by have := h.2; omega⟩, Int.toNat_of_nonneg h.1⟩

theorem isPort_val (n : Port) : IsPort n.val :=
  ⟨Int.natCast_nonneg _, by exact_mod_cast n.isLt⟩

/-- **Not mixing**, in terms of packets. -/
theorem noMixing_iff (hproto : ∀ g ∈ gs, g.proto = Proto.tcp.name ∨ g.proto = Proto.udp.name) :
    NoMixing gs us ↔ ∀ g ∈ gs, ∀ h ∈ gs, ∀ proto n, h.Opens proto n → ∀ ip, g.Reaches ip →
      ∃ u ∈ us, u.Opens proto n ∧ u.Reaches ip := by
  constructor
  · intro hmix g hg h hh proto n hopens ip hreach
    obtain ⟨e, he, hip⟩ := Grant.reaches_iff.1 hreach
    have hcovered := hmix h hh n.val hopens.2 (isPort_val n) e (List.mem_flatMap.2 ⟨g, hg, he⟩)
    rw [hopens.1, Elem.coveredBy_iff] at hcovered
    exact admitted_elemsListing_iff.1 (hcovered ip hip)
  · intro hmix h hh n hn hport e he
    obtain ⟨m, rfl⟩ := exists_port hport
    obtain ⟨proto, hname⟩ : ∃ proto : Proto, h.proto = proto.name := by
      rcases hproto h hh with hname | hname
      · exact ⟨.tcp, hname⟩
      · exact ⟨.udp, hname⟩
    rw [hname, Elem.coveredBy_iff]
    intro ip hip
    obtain ⟨g, hg, hge⟩ := List.mem_flatMap.1 he
    exact admitted_elemsListing_iff.2
      (hmix g hg h hh proto m ⟨hname, hn⟩ ip (Grant.reaches_iff.2 ⟨e, hge, hip⟩))

/-- **Losing nothing**, in terms of packets. -/
theorem nothingLost_iff (hproto : ∀ u ∈ us, u.proto = Proto.tcp.name ∨ u.proto = Proto.udp.name) :
    NothingLost gs us ↔ ∀ u ∈ us, ∀ proto n, u.Opens proto n → ∀ ip, u.Reaches ip →
      (∃ g ∈ gs, g.Reaches ip) ∧ ∃ h ∈ gs, h.Opens proto n := by
  constructor
  · intro hlost u hu proto n hopens ip hreach
    obtain ⟨e, he, hip⟩ := Grant.reaches_iff.1 hreach
    obtain ⟨⟨h, hh, hname, hn⟩, hcovered⟩ :=
      hlost u hu (List.ne_nil_of_mem he) n.val hopens.2 (isPort_val n)
    exact ⟨admitted_flatMap_iff.1 (Elem.coveredBy_iff.1 (hcovered e he) ip hip),
      h, hh, hname.trans hopens.1, hn⟩
  · intro hlost u hu hne n hn hport
    obtain ⟨m, rfl⟩ := exists_port hport
    obtain ⟨proto, hname⟩ : ∃ proto : Proto, u.proto = proto.name := by
      rcases hproto u hu with hname | hname
      · exact ⟨.tcp, hname⟩
      · exact ⟨.udp, hname⟩
    obtain ⟨ip₀, hip₀⟩ := Grant.exists_reaches hne
    obtain ⟨-, h, hh, hopens⟩ := hlost u hu proto m ⟨hname, hn⟩ ip₀ hip₀
    refine ⟨⟨h, hh, hopens.1.trans hname.symm, hopens.2⟩, fun e he ↦ ?_⟩
    rw [Elem.coveredBy_iff]
    intro ip hip
    exact admitted_flatMap_iff.2
      (hlost u hu proto m ⟨hname, hn⟩ ip (Grant.reaches_iff.2 ⟨e, he, hip⟩)).1

end Elems

/-- **Scoped allow**, exactly when it holds. Take any run on a fresh store, any time `t`, and a
kernel whose sets hold what `compute_active_sets` returns then. The packets the frontier rules
accept are those that one accepted and unexpired grant authorises if and only if the stored grants
do not mix and nothing unexpired has been pruned away; the second can only fail when the clock has
gone back behind a prune. -/
theorem frontier_scoped_iff {calls : List StoreCall} {t : ℤ} {sets : ActiveSets} {k : Kernel}
    (htargets : ∀ g ∈ (GrantLog.ofTrace ((store py).trace Db.empty calls)).live,
      ∀ x ∈ g.targets, IsTarget x.val)
    (hsets : computeActiveSets py (.quiet t) ((store py).after Db.empty calls) = .ok sets)
    (hk : k.Holds sets) :
    ((∀ p : Packet, k.Accepts p ↔
        ∃ g ∈ accepted ((store py).trace Db.empty calls), t < g.exp ∧ g.Authorises p) ↔
      NoMixing (unexpired t (GrantLog.ofTrace ((store py).trace Db.empty calls)).live)
          (unexpired t (accepted ((store py).trace Db.empty calls))) ∧
        NothingLost (unexpired t (GrantLog.ofTrace ((store py).trace Db.empty calls)).live)
          (unexpired t (accepted ((store py).trace Db.empty calls)))) ∧
      (PrunedUpTo t calls →
        unexpired t (GrantLog.ofTrace ((store py).trace Db.empty calls)).live =
          unexpired t (accepted ((store py).trace Db.empty calls))) := by
  obtain rfl := computeActiveSets_ok_of_stands py (stands_after py calls) hsets
  set log := GrantLog.ofTrace ((store py).trace Db.empty calls) with hlog
  set us := unexpired t (accepted ((store py).trace Db.empty calls)) with hus
  have hmem : ∀ p : Packet, (∃ g ∈ accepted ((store py).trace Db.empty calls),
      t < g.exp ∧ g.Authorises p) ↔ ∃ g ∈ us, g.Authorises p := by
    intro p
    simp [hus, unexpired, and_assoc]
  have hproto : ∀ g ∈ us, g.proto = Proto.tcp.name ∨ g.proto = Proto.udp.name := fun g hg ↦
    proto_of_mem_accepted py (List.mem_filter.1 hg).1
  have hproto' : ∀ g ∈ unexpired t log.live,
      g.proto = Proto.tcp.name ∨ g.proto = Proto.udp.name := fun g hg ↦
    proto_of_mem_accepted py (mem_accepted_of_mem_unexpired py hg)
  have hacc : ∀ p : Packet, k.Accepts p ↔ (∃ g ∈ unexpired t log.live, g.Reaches p.dst) ∧
      ∃ h ∈ unexpired t log.live, h.Opens p.proto p.dport := by
    intro p
    exact and_congr (admitted_addrs_iff hk (fun g hg ↦ htargets g (List.mem_filter.1 hg).1) _)
      (admitted_ports_iff hk hproto' _ _)
  rw [noMixing_iff hproto', nothingLost_iff hproto]
  refine ⟨⟨fun h ↦ ⟨?_, ?_⟩, ?_⟩, fun hpruned ↦ ?_⟩
  · intro g hg h' hh' proto n hopens ip hreach
    obtain ⟨u, hu, hauth⟩ := (hmem _).1 ((h ⟨ip, proto, n⟩).1
      ((hacc ⟨ip, proto, n⟩).2 ⟨⟨g, hg, hreach⟩, h', hh', hopens⟩))
    exact ⟨u, hu, hauth.2, hauth.1⟩
  · intro u hu proto n hopens ip hreach
    exact (hacc ⟨ip, proto, n⟩).1 ((h ⟨ip, proto, n⟩).2 ((hmem _).2 ⟨u, hu, hreach, hopens⟩))
  · rintro ⟨hmix, hlost⟩ p
    rw [hmem, hacc]
    constructor
    · rintro ⟨⟨g, hg, hreach⟩, h', hh', hopens⟩
      obtain ⟨u, hu, hopens', hreach'⟩ := hmix g hg h' hh' _ _ hopens _ hreach
      exact ⟨u, hu, hreach', hopens'⟩
    · rintro ⟨u, hu, hreach, hopens⟩
      exact hlost u hu _ _ hopens _ hreach
  · rw [hus, hlog, unexpired, Ledger.filter_live (spares_after py hpruned), GrantLog.all_ofTrace,
      unexpired]

/-- The run in which two grants are accepted: HTTPS to the halves of a block, SSH to all of it. -/
def halvesAndBlock : List StoreCall :=
  [.install (.quiet 1) ⟨"a".toList, "1".toList, 90,
      ["10.0.0.0/25".toList, "10.0.0.128/25".toList], [443], "tcp".toList⟩,
    .install (.quiet 1) ⟨"b".toList, "2".toList, 90, ["10.0.0.0/24".toList], [22], "tcp".toList⟩]

/-- **Two grants that do not mix**, although their targets are different elements. -/
theorem frontier_scoped_iff_of_halves :
    ∃ (sets : ActiveSets) (k : Kernel),
      computeActiveSets .ascii (.quiet 2) ((store .ascii).after Db.empty halvesAndBlock) =
        .ok sets ∧
      k.Holds sets ∧
      ∀ p : Packet, k.Accepts p ↔
        ∃ g ∈ accepted ((store .ascii).trace Db.empty halvesAndBlock), 2 < g.exp ∧
          g.Authorises p := by
  have hpruned := @ClockUpTo.prunedUpTo 2 halvesAndBlock (by decide)
  have hsets := computeActiveSets_after .ascii hpruned
  have hk : (Kernel.ofLists [.block (ofOctets 10 0 0 0) 25, .block (ofOctets 10 0 0 128) 25,
      .block (ofOctets 10 0 0 0) 24] [443, 22] []).Holds _ := Kernel.holds_ofLists _ _ _
  obtain ⟨hiff, hlive⟩ := frontier_scoped_iff .ascii (by decide +kernel) hsets hk
  refine ⟨_, _, hsets, hk, hiff.2 ?_⟩
  rw [hlive hpruned]
  exact ⟨by decide +kernel, by decide +kernel⟩

/-- The run in which two grants are accepted: HTTPS to one host, SSH to another. -/
def httpsAndSsh : List StoreCall :=
  [.install (.quiet 1) ⟨"a".toList, "1".toList, 90, ["1.1.1.1".toList], [443], "tcp".toList⟩,
    .install (.quiet 1) ⟨"b".toList, "2".toList, 90, ["2.2.2.2".toList], [22], "tcp".toList⟩]

/-- **Two grants give four permissions.** With HTTPS to one host and SSH to another granted, SSH to
the first is accepted, and no grant authorises it. -/
theorem frontier_mixes_grants :
    ∃ (sets : ActiveSets) (k : Kernel),
      computeActiveSets .ascii (.quiet 2) ((store .ascii).after Db.empty httpsAndSsh) = .ok sets ∧
      k.Holds sets ∧ k.Accepts ⟨ofOctets 1 1 1 1, .tcp, 22⟩ ∧
      ¬ ∃ g ∈ accepted ((store .ascii).trace Db.empty httpsAndSsh),
        2 < g.exp ∧ g.Authorises ⟨ofOctets 1 1 1 1, .tcp, 22⟩ := by
  have hsets := computeActiveSets_after .ascii
    (@ClockUpTo.prunedUpTo 2 httpsAndSsh (by decide))
  have hk : (Kernel.ofLists [.host (ofOctets 1 1 1 1), .host (ofOctets 2 2 2 2)] [443, 22] []).Holds
      _ := Kernel.holds_ofLists _ _ _
  refine ⟨_, _, hsets, hk, ⟨?_, ?_⟩, by decide⟩
  · exact ⟨.single (ofOctets 1 1 1 1), by simp [Kernel.ofLists, Target.elem], rfl⟩
  · exact ⟨.single 22, by simp [Kernel.ofLists, Kernel.ports], rfl⟩

end SourceOS.Gate
