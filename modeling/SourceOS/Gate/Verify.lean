import SourceOS.Foundation.Lists
import SourceOS.Gate.Egress

/-!
# When `verify` may be believed

`verify` compares texts. This module says what its answer means for the kernel, in both directions.

* *It passed; is the kernel right?* What passes is compared as texts, so single values are right
  (`covers_listed_iff`). But all three sets are interval sets, and a block or a range is not a text
  of its own: among the ports it is dropped before the comparison, among the addresses it stands for
  a text no target ever denotes. So a kernel that passes is right **exactly when its blocks and
  ranges admit nothing new** (`verify_sound_iff`).
* *The kernel is right; does it pass?* After an `apply` the kernel holds the elements `apply_sets`
  wrote, and it passes **exactly when every active target is a bare host address**
  (`verify_after_apply_iff`): a blank target is skipped by one side only, white space is stripped by
  one side only, and a block comes back as an object.

What `nft` reads an element text as is outside; `NftSyntax` has the two facts about it that are
used.
-/

namespace SourceOS.Gate

open Text Net

variable (G : EgressGate Kernel)

/-! ### When `verify` returns -/

/-- The three kernel sets are listed by `nft -j`. -/
structure ListsKernel (py : Runtime) (cfg : NftConfig) (env : ListEnv) (k : Kernel) : Prop where
  addrs : ListedBy py addrSpelling env cfg.setAllowV4 k.addrs
  tcpPorts : ListedBy py portSpelling env cfg.setTcpPorts k.tcpPorts
  udpPorts : ListedBy py portSpelling env cfg.setUdpPorts k.udpPorts

/-- The listed texts are the expected ones. -/
structure ListedAs (py : Runtime) (cfg : NftConfig) (env : ListEnv) (sets : ActiveSets) : Prop where
  addrs : listedAddrs py env cfg.setAllowV4 = .ok sets.addrs
  tcpPorts : listedPorts py env cfg.setTcpPorts = .ok sets.tcpPorts
  udpPorts : listedPorts py env cfg.setUdpPorts = .ok sets.udpPorts

theorem requireSame_ok_iff {py : Runtime} {what : String} {expected actual : Finset PyStr} :
    requireSame py what expected actual = .ok () ↔ actual = expected := by
  unfold requireSame
  split
  · simp_all
  · simp_all

/-- `verify_sets` returns when the baseline is there and the listed texts are the expected ones. -/
theorem verifySets_ok_iff {py : Runtime} {cfg : NftConfig} {probe : Probe} {env : ListEnv}
    {sets : ActiveSets} :
    verifySets py cfg probe env sets = .ok () ↔
      requireBaseline cfg probe = .ok () ∧ ListedAs py cfg env sets := by
  constructor
  · intro h
    obtain ⟨_, hbase, h⟩ := exists_of_bind_eq_ok h
    obtain ⟨addrs, haddrs, h⟩ := exists_of_bind_eq_ok h
    obtain ⟨tcp, htcp, h⟩ := exists_of_bind_eq_ok h
    obtain ⟨udp, hudp, h⟩ := exists_of_bind_eq_ok h
    obtain ⟨_, hsame, h⟩ := exists_of_bind_eq_ok h
    obtain ⟨_, hsame', h⟩ := exists_of_bind_eq_ok h
    rw [requireSame_ok_iff] at hsame hsame' h
    exact ⟨hbase, hsame ▸ haddrs, hsame' ▸ htcp, h ▸ hudp⟩
  · rintro ⟨hbase, hlist⟩
    have hsame : ∀ what s, requireSame py what s s = .ok () := fun _ _ ↦ requireSame_ok_iff.2 rfl
    simp only [verifySets, hbase, hlist.addrs, hlist.tcpPorts, hlist.udpPorts, bind, Except.bind,
      hsame]

/-- **`verify` returns** exactly when both baseline checks pass, the active sets can be read and are
what is listed, and the audit record can be written. -/
theorem verify_ok_iff {κ : Type} (G : EgressGate κ) (env : GateVerifyEnv) (w : World κ) :
    ((G.verify env).run w).1 = .ok () ↔
      requireBaseline G.cfg env.probe = .ok () ∧ requireBaseline G.cfg env.setsProbe = .ok () ∧
        env.audit.fault = none ∧
        ∃ sets, computeActiveSets G.py env.read w.db = .ok sets ∧
          ListedAs G.py G.cfg env.list sets := by
  constructor
  · intro h
    obtain ⟨_, w₁, hbase, h⟩ := Effect.exists_of_bind_ok h
    obtain ⟨sets, w₂, hsets, h⟩ := Effect.exists_of_bind_ok h
    obtain ⟨_, w₃, hverify, h⟩ := Effect.exists_of_bind_ok h
    rw [Effect.run_ofExcept, Prod.mk.injEq] at hbase hverify
    rw [run_readStore, Prod.mk.injEq] at hsets
    obtain ⟨hbase, rfl⟩ := hbase
    obtain ⟨hsets, rfl⟩ := hsets
    obtain ⟨hverify, rfl⟩ := hverify
    obtain ⟨hbase', hlist⟩ := verifySets_ok_iff.1 hverify
    rw [run_auditAppend_fst, Fault.check_ok_iff] at h
    exact ⟨hbase, hbase', h, sets, hsets, hlist⟩
  · rintro ⟨hbase, hbase', haudit, sets, hsets, hlist⟩
    have hverify := verifySets_ok_iff.2 ⟨hbase', hlist⟩
    rw [EgressGate.verify, Effect.run_bind_of_ok (a := ()) (by rw [hbase]; rfl),
      Effect.run_bind_of_ok (a := sets) (by rw [run_readStore, hsets]),
      Effect.run_bind_of_ok (a := ()) (by rw [hverify]; rfl), run_auditAppend_fst, haudit]
    rfl

/-! ### What a listing says about the kernel -/

/-- No text of a target starts with a brace. -/
theorem not_covers_brace (t : PyStr) (ip : IPv4) : ¬ Covers (.char '\x7b' :: t) ip := by
  rintro ⟨target, hread, -⟩
  have hmem : .char '\x7b' ∈ PyStr.ofStr target.text :=
    Target.text_of_readPy hread ▸ List.mem_cons_self
  exact Target.not_mem_text (by decide) (by decide) (by decide) target (PyStr.mem_ofStr.1 hmem)

/-- **The listed addresses denote the single addresses of the set.** -/
theorem covers_listed_iff {es : List (Elem 32)} {texts : List PyStr}
    (h : List.Forall₂ (ReadsAs addrSpelling) es texts) (ip : IPv4) :
    (∃ x ∈ texts, Covers x ip) ↔ .single ip ∈ es := by
  induction h with
  | nil => simp
  | @cons e s es texts hs _ ih =>
    rw [List.mem_cons, ← ih]
    simp only [List.mem_cons, exists_eq_or_imp]
    refine or_congr_left ?_
    cases e with
    | single v =>
      obtain rfl : s = PyStr.ofStr (Target.host v).text := hs
      rw [covers_text]
      simp [Target.elem, Elem.Admits]
    | network v len =>
      obtain ⟨t, rfl⟩ := hs
      simp [not_covers_brace]
    | range lo hi =>
      obtain ⟨t, rfl⟩ := hs
      simp [not_covers_brace]

/-- Every value the set admits is one of its single values. -/
def OnlySingles {w : ℕ} (es : List (Elem w)) : Prop :=
  ∀ n, Admitted es n → .single n ∈ es

/-- The blocks and ranges of the three sets admit nothing that is not a single element too. -/
structure Kernel.NoHidden (k : Kernel) : Prop where
  addrs : OnlySingles k.addrs
  ports : ∀ proto, OnlySingles (k.ports proto)

/-- **The kernel admits what the active sets say**: the addresses they denote, and their ports. -/
structure Kernel.Reflects (k : Kernel) (sets : ActiveSets) : Prop where
  addrs : ∀ ip, Admitted k.addrs ip ↔ ∃ x ∈ sets.addrs, Covers x ip
  ports : ∀ proto s, s ∈ sets.ports proto ↔
    ∃ n : Port, Admitted (k.ports proto) n ∧ PyStr.ofInt n.val = s

theorem admitted_of_single_mem {w : ℕ} {es : List (Elem w)} {n : Fin (2 ^ w)}
    (h : .single n ∈ es) : Admitted es n :=
  ⟨_, h, rfl⟩

/-- A set admits the values of its single elements only when nothing is hidden. -/
theorem onlySingles_iff {w : ℕ} {es : List (Elem w)} :
    OnlySingles es ↔ ∀ n, Admitted es n ↔ .single n ∈ es :=
  ⟨fun h n ↦ ⟨h n, admitted_of_single_mem⟩, fun h n ↦ (h n).1⟩

/-- What is listed as expected reflects the expectation when nothing is hidden, and only then. -/
theorem reflects_iff_noHidden {py : Runtime} {cfg : NftConfig} {env : ListEnv} {k : Kernel}
    {sets : ActiveSets} (hk : ListsKernel py cfg env k) (hsets : ListedAs py cfg env sets) :
    k.Reflects sets ↔ k.NoHidden := by
  obtain ⟨texts, htexts, haddrs⟩ := listedAddrs_of_listedBy py hk.addrs
  have haddr : ∀ ip, (∃ x ∈ sets.addrs, Covers x ip) ↔ .single ip ∈ k.addrs := by
    intro ip
    rw [← Except.ok.inj (haddrs.symm.trans hsets.addrs), ← covers_listed_iff htexts ip]
    simp
  have hport : ∀ proto s, s ∈ sets.ports proto ↔
      ∃ n : Port, .single n ∈ k.ports proto ∧ PyStr.ofInt n.val = s := by
    intro proto s
    cases proto with
    | tcp =>
      obtain ⟨ports, hports, hmem⟩ := listedPorts_of_listedBy py hk.tcpPorts
      rw [ActiveSets.ports, ← Except.ok.inj (hports.symm.trans hsets.tcpPorts)]
      exact hmem s
    | udp =>
      obtain ⟨ports, hports, hmem⟩ := listedPorts_of_listedBy py hk.udpPorts
      rw [ActiveSets.ports, ← Except.ok.inj (hports.symm.trans hsets.udpPorts)]
      exact hmem s
  constructor
  · rintro ⟨hra, hrp⟩
    refine ⟨fun ip hip ↦ (haddr ip).1 ((hra ip).1 hip), fun proto n hn ↦ ?_⟩
    obtain ⟨m, hm, hdec⟩ := (hport proto _).1 ((hrp proto _).2 ⟨n, hn, rfl⟩)
    have hval : m.val = n.val := by exact_mod_cast PyStr.ofInt_injective hdec
    exact Fin.ext hval ▸ hm
  · rintro ⟨hna, hnp⟩
    refine ⟨fun ip ↦ (onlySingles_iff.1 hna ip).trans (haddr ip).symm, fun proto s ↦ ?_⟩
    rw [hport]
    exact exists_congr fun n ↦ and_congr_left' (onlySingles_iff.1 (hnp proto) n).symm

/-- **`verify` is sound exactly when nothing is hidden.** Take any world, any environment in which
`nft -j` lists the kernel's sets, and the active sets at that time. That a `verify` which returns
vouches for the kernel is the same as: the blocks and ranges of the kernel's sets admit nothing new,
or `verify` raises anyway — the baseline is not there, the record cannot be written, or the listed
texts are not the active ones. -/
theorem verify_sound_iff {w : World Kernel} {env : GateVerifyEnv} {sets : ActiveSets}
    (hk : ListsKernel G.py G.cfg env.list w.kernel)
    (hsets : computeActiveSets G.py env.read w.db = .ok sets) :
    (((G.verify env).run w).1 = .ok () → w.kernel.Reflects sets) ↔
      (w.kernel.NoHidden ∨ requireBaseline G.cfg env.probe ≠ .ok () ∨
        requireBaseline G.cfg env.setsProbe ≠ .ok () ∨ env.audit.fault ≠ none ∨
        ¬ ListedAs G.py G.cfg env.list sets) := by
  rw [verify_ok_iff]
  constructor
  · intro h
    by_contra hnot
    simp only [not_or, not_not] at hnot
    obtain ⟨hhidden, hbase, hbase', haudit, hlist⟩ := hnot
    exact hhidden ((reflects_iff_noHidden hk hlist).1
      (h ⟨hbase, hbase', haudit, sets, hsets, hlist⟩))
  · rintro h ⟨hbase, hbase', haudit, sets', hsets', hlist⟩
    obtain rfl := Except.ok.inj (hsets.symm.trans hsets')
    rcases h with h | h | h | h | h
    · exact (reflects_iff_noHidden hk hlist).2 h
    · exact absurd hbase h
    · exact absurd hbase' h
    · exact absurd haudit h
    · exact absurd hlist h

/-! The samples: the baseline is there, nothing fails, and one grant is active. -/

/-- Everything that is probed for is there. -/
def Probe.present : Probe := fun _ _ ↦ .ok true

/-- A `verify` at time `t` that nothing but the listing decides. -/
def GateVerifyEnv.quiet (t : ℤ) (list : ListEnv) : GateVerifyEnv :=
  ⟨.present, .quiet t, .present, list, { ts := [] }⟩

/-- A gate with the default configuration, for reading only. -/
def EgressGate.reader : EgressGate Kernel := { py := .ascii, act := fun _ k ↦ k }

/-- The world after one grant for one target and port 443 has been accepted. -/
def worldOf (target : String) (k : Kernel) : World Kernel where
  db := (store .ascii).after Db.empty
    [.install (.quiet 1) ⟨"a".toList, "1".toList, 90, [target.toList], [443], "tcp".toList⟩]
  kernel := k
  audit := []

theorem computeActiveSets_worldOf (target : String) (k : Kernel) :
    computeActiveSets .ascii (.quiet 2) (worldOf target k).db =
      .ok ⟨{dropHostMask target.toList}, {PyStr.ofInt 443}, ∅⟩ := by
  refine (computeActiveSets_after .ascii (ClockUpTo.prunedUpTo ?_)).trans ?_
  · exact (by decide : List.Pairwise (· ≤ ·) ([1, 1, 1, 1, 2] : List ℤ))
  · rfl

theorem listsKernel_printing {k : Kernel} {a t u : List (Json PyChar)} (ha : Printable a)
    (ht : Printable t) (hu : Printable u)
    (haddrs : List.Forall₂ (Lists addrSpelling) k.addrs a)
    (htcp : List.Forall₂ (Lists portSpelling) k.tcpPorts t)
    (hudp : List.Forall₂ (Lists portSpelling) k.udpPorts u) :
    ListsKernel .ascii .default (.printing .default a t u) k where
  addrs := ⟨_, _, rfl, loads_listingDoc ha, isListing_listingDoc haddrs⟩
  tcpPorts := ⟨_, _, rfl, loads_listingDoc ht, isListing_listingDoc htcp⟩
  udpPorts := ⟨_, _, rfl, loads_listingDoc hu, isListing_listingDoc hudp⟩

/-- Single addresses are listed as their dotted quads. -/
theorem listedAddrs_of_hosts {py : Runtime} {env : ListEnv} {set : Str} {ips : List IPv4}
    (h : ListedBy py addrSpelling env set (ips.map .single)) :
    listedAddrs py env set = .ok (ips.map fun ip ↦ PyStr.ofStr (render ip)).toFinset := by
  obtain ⟨texts, htexts, hok⟩ := listedAddrs_of_listedBy py h
  have hmap : texts = ips.map fun ip ↦ PyStr.ofStr (render ip) := by
    clear h hok
    induction ips generalizing texts with
    | nil => cases htexts with | nil => rfl
    | cons ip ips ih =>
      cases htexts with
      | cons hs htexts => rw [ih _ htexts, show _ = PyStr.ofStr (render ip) from hs, List.map_cons]
  rw [hok, hmap]

/-- One host and one port, printed as `nft` prints them. -/
theorem listsKernel_host : ListsKernel .ascii .default
    (.printing .default [.str "1.1.1.1".toList] [.int 443] [])
    ⟨[.single (ofOctets 1 1 1 1)], [.single 443], []⟩ :=
  listsKernel_printing (by decide) (by decide) (by decide)
    (.cons ⟨_, rfl, Or.inl rfl⟩ .nil) (.cons ⟨_, Or.inl rfl, Or.inl rfl⟩ .nil) .nil

/-- **Only the single ports count.** With one host and port 443 active, `verify` returns on every
kernel whose one single port is 443. -/
theorem verify_ok_of_ports {list : ListEnv} {ports : List (Elem 16)}
    (hlist : ListsKernel .ascii .default list ⟨[.single (ofOctets 1 1 1 1)], ports, []⟩)
    (hports : ∀ n, .single n ∈ ports ↔ n = 443) :
    ((EgressGate.reader.verify (.quiet 2 list)).run
      (worldOf "1.1.1.1" ⟨[.single (ofOctets 1 1 1 1)], ports, []⟩)).1 = .ok () := by
  refine (verify_ok_iff _ _ _).2
    ⟨rfl, rfl, rfl, _, computeActiveSets_worldOf "1.1.1.1" _, ?_, ?_, ?_⟩
  · exact @listedAddrs_of_hosts .ascii _ _ [ofOctets 1 1 1 1] hlist.addrs
  · obtain ⟨listed, hok, hmem⟩ := listedPorts_of_listedBy .ascii hlist.tcpPorts
    refine hok.trans (congrArg _ (Finset.ext fun s ↦ (hmem s).trans ?_))
    simp only [hports, exists_eq_left, Finset.mem_singleton]
    exact eq_comm
  · obtain ⟨listed, hok, hmem⟩ := listedPorts_of_listedBy .ascii hlist.udpPorts
    refine hok.trans (congrArg _ (Finset.ext fun s ↦ (hmem s).trans ?_))
    simp

/-- One host, and a range that admits the one port: `verify` returns, and it is right. -/
theorem verify_sound_iff_of_range :
    ∃ list, ListsKernel .ascii .default list
        ⟨[.single (ofOctets 1 1 1 1)], [.single 443, .range 443 443], []⟩ ∧
      ((EgressGate.reader.verify (.quiet 2 list)).run (worldOf "1.1.1.1"
        ⟨[.single (ofOctets 1 1 1 1)], [.single 443, .range 443 443], []⟩)).1 = .ok () ∧
      Kernel.Reflects ⟨[.single (ofOctets 1 1 1 1)], [.single 443, .range 443 443], []⟩
        ⟨{PyStr.lit "1.1.1.1"}, {PyStr.lit "443"}, ∅⟩ := by
  have hlist : ListsKernel .ascii .default (.printing .default [.str "1.1.1.1".toList]
      [.int 443, .obj [("range".toList, .arr [.int 443, .int 443])]] [])
      ⟨[.single (ofOctets 1 1 1 1)], [.single 443, .range 443 443], []⟩ := by
    refine listsKernel_printing (by decide) (by decide) (by decide) ?_ ?_ .nil
    · exact .cons ⟨_, rfl, Or.inl rfl⟩ .nil
    · refine .cons ⟨_, Or.inl rfl, Or.inl rfl⟩ (.cons ⟨_, ?_, Or.inl rfl⟩ .nil)
      exact ⟨_, _, Or.inl rfl, Or.inl rfl, rfl⟩
  have hok := verify_ok_of_ports hlist (by simp)
  refine ⟨_, hlist, hok, (@verify_sound_iff .reader (worldOf "1.1.1.1" _) (.quiet 2 _) _ hlist
    (computeActiveSets_worldOf "1.1.1.1" _)).2 (Or.inl ⟨?_, ?_⟩) hok⟩
  · rintro n ⟨e, he, hn⟩
    obtain rfl := List.mem_singleton.1 he
    exact List.mem_singleton.2 (congrArg _ hn)
  · rintro (_ | _) n ⟨e, he, hn⟩
    · rcases List.mem_pair.1 he with rfl | rfl
      · exact List.mem_cons.2 (Or.inl (congrArg _ hn))
      · exact List.mem_cons.2 (Or.inl (congrArg _ (le_antisymm hn.2 hn.1)))
    · exact absurd he List.not_mem_nil

/-- **A range of ports goes unseen.** The kernel admits the TCP ports 1000 to 2000 beside port 443,
`verify` returns, and only port 443 is active. -/
theorem verify_misses_port_range :
    ∃ (env : GateVerifyEnv) (w : World Kernel) (sets : ActiveSets),
      w = worldOf "1.1.1.1" ⟨[.single (ofOctets 1 1 1 1)], [.single 443, .range 1000 2000], []⟩ ∧
      ListsKernel .ascii .default env.list w.kernel ∧
      computeActiveSets .ascii env.read w.db = .ok sets ∧
      ((EgressGate.reader.verify env).run w).1 = .ok () ∧ ¬ w.kernel.Reflects sets := by
  have hlist : ListsKernel .ascii .default (.printing .default [.str "1.1.1.1".toList]
      [.int 443, .obj [("range".toList, .arr [.int 1000, .int 2000])]] [])
      ⟨[.single (ofOctets 1 1 1 1)], [.single 443, .range 1000 2000], []⟩ := by
    refine listsKernel_printing (by decide) (by decide) (by decide) ?_ ?_ .nil
    · exact .cons ⟨_, rfl, Or.inl rfl⟩ .nil
    · refine .cons ⟨_, Or.inl rfl, Or.inl rfl⟩ (.cons ⟨_, ?_, Or.inl rfl⟩ .nil)
      exact ⟨_, _, Or.inl rfl, Or.inl rfl, rfl⟩
  refine ⟨.quiet 2 _, _, _, rfl, hlist, computeActiveSets_worldOf "1.1.1.1" _,
    verify_ok_of_ports hlist (by simp), fun h ↦ ?_⟩
  -- port 1000 is admitted, and its numeral is not that of port 443
  have hadmitted : Admitted [.single 443, .range 1000 2000] (1000 : Port) :=
    ⟨.range 1000 2000, by simp, by decide⟩
  have hactive := (h.ports .tcp (PyStr.ofInt 1000)).2 ⟨1000, hadmitted, rfl⟩
  exact absurd hactive (by decide)

/-! ### After an `apply` -/

/-- What `nft` reads the text of an address element as. Two facts are used: a dotted quad is that
host, and a brace, which ends an element list, is part of no element. -/
structure NftSyntax where
  /-- The element a text stands for, if `nft` takes it. -/
  addr : PyStr → Option (Elem 32)
  /-- A dotted quad is a host. -/
  addr_render : ∀ ip, addr (render ip) = some (.single ip)
  /-- No element contains an opening brace. -/
  not_mem_of_addr : ∀ {s e}, addr s = some e → .char '\x7b' ∉ s

/-- **The kernel's sets hold exactly the given element texts.** -/
structure Kernel.HoldsElements (syn : NftSyntax) (k : Kernel) (els : ActiveSets) : Prop where
  addrs : ∀ e, e ∈ k.addrs ↔ ∃ x ∈ els.addrs, syn.addr x = some e
  ports : ∀ proto e, e ∈ k.ports proto ↔
    ∃ n : Port, PyStr.ofInt n.val ∈ els.ports proto ∧ e = .single n

/-- A host address has no mask to remove. -/
theorem dropHostMask_render (ip : IPv4) : dropHostMask (render ip) = render ip :=
  replace_of_not_mem fun h ↦
    not_mem_render (by decide) (by decide) ip (PyStr.mem_ofStr.1 h)

section AfterApply

variable {syn : NftSyntax} {py : Runtime} {cfg : NftConfig} {env : ListEnv} {k : Kernel}
  {sets : ActiveSets}

/-- Ports in range are written and read back as they are. -/
theorem listedPorts_of_holds {es : List (Elem 16)} {set : Str} {ports : Finset PyStr}
    (hes : ∀ e, e ∈ es ↔ ∃ n : Port, PyStr.ofInt n.val ∈ ports ∧ e = .single n)
    (hports : ∀ s ∈ ports, ∃ n : Port, PyStr.ofInt n.val = s)
    (hlist : ListedBy py portSpelling env set es) : listedPorts py env set = .ok ports := by
  obtain ⟨listed, hok, hmem⟩ := listedPorts_of_listedBy py hlist
  rw [hok]
  refine congrArg _ (Finset.ext fun s ↦ ?_)
  rw [hmem]
  constructor
  · rintro ⟨n, hn, rfl⟩
    obtain ⟨m, hm, hnm⟩ := (hes _).1 hn
    rwa [Elem.single.inj hnm]
  · intro hs
    obtain ⟨n, rfl⟩ := hports s hs
    exact ⟨n, (hes _).2 ⟨n, hs, rfl⟩, rfl⟩

/-- A target that `nft` takes does not start with a brace. -/
theorem ne_brace_of_accepted {x : PyStr}
    (haccept : PyStr.isBlank x = true ∨ (syn.addr (dropHostMask x)).isSome = true) (t : PyStr) :
    x ≠ .char '\x7b' :: t := by
  rintro rfl
  have hslash : PyChar.char '/' ∉ [.char '\x7b'] := by decide
  have hdrop : dropHostMask (.char '\x7b' :: t) = .char '\x7b' :: dropHostMask t :=
    replace_append_of_not_mem hslash t
  rcases haccept with hblank | hsome
  · simp [PyStr.isBlank, show PyChar.isSpace (.char '\x7b') = false by decide] at hblank
  · obtain ⟨e, he⟩ := Option.isSome_iff_exists.1 hsome
    exact syn.not_mem_of_addr he (hdrop ▸ List.mem_cons_self)

/-- The elements written for hosts are these hosts. -/
theorem mem_iff_of_hosts {es : List (Elem 32)} {addrs : Finset PyStr}
    (hes : ∀ e, e ∈ es ↔ ∃ x ∈ elementAddrs addrs, syn.addr x = some e)
    (hhosts : ∀ x ∈ addrs, ∃ ip : IPv4, x = render ip) (e : Elem 32) :
    e ∈ es ↔ ∃ ip, PyStr.ofStr (render ip) ∈ addrs ∧ e = .single ip := by
  rw [hes]
  constructor
  · rintro ⟨x, hx, he⟩
    obtain ⟨y, hy, rfl⟩ := Finset.mem_image.1 hx
    obtain ⟨hy, -⟩ := Finset.mem_filter.1 hy
    obtain ⟨ip, rfl⟩ := hhosts y hy
    rw [dropHostMask_render, syn.addr_render] at he
    exact ⟨ip, hy, (Option.some.inj he).symm⟩
  · rintro ⟨ip, hip, rfl⟩
    have hblank := (PyStr.isBlank_ofStr _).trans (isBlank_render ip)
    exact ⟨render ip, Finset.mem_image.2 ⟨render ip, Finset.mem_filter.2 ⟨hip, hblank⟩,
      dropHostMask_render ip⟩, syn.addr_render ip⟩

/-- Addresses are read back as they were written exactly when they are all hosts. -/
theorem listedAddrs_iff_hosts {es : List (Elem 32)} {set : Str} {addrs : Finset PyStr}
    (hes : ∀ e, e ∈ es ↔ ∃ x ∈ elementAddrs addrs, syn.addr x = some e)
    (haccept : ∀ x ∈ addrs, PyStr.isBlank x = true ∨ (syn.addr (dropHostMask x)).isSome = true)
    (hlist : ListedBy py addrSpelling env set es) :
    listedAddrs py env set = .ok addrs ↔ ∀ x ∈ addrs, ∃ ip : IPv4, x = render ip := by
  obtain ⟨texts, htexts, hok⟩ := listedAddrs_of_listedBy py hlist
  obtain ⟨hright, hleft⟩ := exists_of_forall₂ htexts
  rw [hok, Except.ok.injEq]
  constructor
  · -- a text that is no dotted quad starts with a brace, and `nft` would not have taken it
    rintro rfl x hx
    obtain ⟨e, -, hreads⟩ := hright x (List.mem_toFinset.1 hx)
    cases e with
    | single ip => exact ⟨ip, hreads⟩
    | network v len =>
      obtain ⟨t, rfl⟩ := hreads
      exact absurd rfl (ne_brace_of_accepted (haccept _ hx) t)
    | range lo hi =>
      obtain ⟨t, rfl⟩ := hreads
      exact absurd rfl (ne_brace_of_accepted (haccept _ hx) t)
  · intro hhosts
    have hmem := mem_iff_of_hosts hes hhosts
    refine Finset.ext fun s ↦ ?_
    rw [List.mem_toFinset]
    constructor
    · intro hs
      obtain ⟨e, he, hreads⟩ := hright s hs
      obtain ⟨ip, hip, rfl⟩ := (hmem e).1 he
      obtain rfl : s = PyStr.ofStr (render ip) := hreads
      exact hip
    · intro hs
      obtain ⟨ip, rfl⟩ := hhosts s hs
      obtain ⟨s', hs', hreads⟩ := hleft _ ((hmem _).2 ⟨ip, hs, rfl⟩)
      obtain rfl : s' = PyStr.ofStr (render ip) := hreads
      exact hs'

/-- What is listed after an `apply` is what is expected exactly when all targets are hosts. -/
theorem listedAs_iff_hosts {els : ActiveSets} (hels : elementSets py sets = .ok els)
    (hk : k.HoldsElements syn els)
    (haccept : ∀ x ∈ sets.addrs, PyStr.isBlank x = true ∨ (syn.addr (dropHostMask x)).isSome = true)
    (hports : ∀ proto, ∀ s ∈ sets.ports proto, ∃ n : Port, PyStr.ofInt n.val = s)
    (hlist : ListsKernel py cfg env k) :
    ListedAs py cfg env sets ↔ ∀ x ∈ sets.addrs, ∃ ip : IPv4, x = render ip := by
  have hnum : ∀ proto, ∀ s ∈ sets.ports proto,
      ∃ n : ℤ, Python.HasNumeral n ∧ PyStr.ofInt n = s := by
    intro proto s hs
    obtain ⟨n, hn⟩ := hports proto s hs
    exact ⟨_, hasNumeral_port n, hn⟩
  obtain rfl := Except.ok.inj
    (hels.symm.trans (elementSets_of_numerals py (hnum .tcp) (hnum .udp)))
  rw [← listedAddrs_iff_hosts hk.addrs haccept hlist.addrs]
  refine ⟨fun h ↦ h.addrs, fun h ↦ ⟨h, ?_, ?_⟩⟩
  · exact listedPorts_of_holds (hk.ports .tcp) (hports .tcp) hlist.tcpPorts
  · exact listedPorts_of_holds (hk.ports .udp) (hports .udp) hlist.udpPorts

end AfterApply

/-- **`apply` and `verify` agree exactly on host addresses.** Let the kernel hold the elements
`apply_sets` computes for the active sets, all of them texts `nft` takes, with ports in range. Then
a `verify` that nothing else gets in the way of returns if and only if every active target is a
dotted quad, nothing more and nothing less. -/
theorem verify_after_apply_iff (syn : NftSyntax) {w : World Kernel} {env : GateVerifyEnv}
    {sets els : ActiveSets} (hsets : computeActiveSets G.py env.read w.db = .ok sets)
    (hels : elementSets G.py sets = .ok els) (hk : w.kernel.HoldsElements syn els)
    (haccept : ∀ x ∈ sets.addrs, PyStr.isBlank x = true ∨ (syn.addr (dropHostMask x)).isSome = true)
    (hports : ∀ proto, ∀ s ∈ sets.ports proto, ∃ n : Port, PyStr.ofInt n.val = s)
    (hlist : ListsKernel G.py G.cfg env.list w.kernel)
    (hbase : requireBaseline G.cfg env.probe = .ok ())
    (hbase' : requireBaseline G.cfg env.setsProbe = .ok ()) (haudit : env.audit.fault = none) :
    ((G.verify env).run w).1 = .ok () ↔ ∀ x ∈ sets.addrs, ∃ ip : IPv4, x = render ip := by
  rw [verify_ok_iff, ← listedAs_iff_hosts hels hk haccept hports hlist]
  constructor
  · rintro ⟨-, -, -, sets', hsets', hlisted⟩
    rwa [Except.ok.inj (hsets.symm.trans hsets')]
  · exact fun h ↦ ⟨hbase, hbase', haudit, sets, hsets, h⟩

/-- `nft` as far as it is needed: white space around a target does not matter. -/
def NftSyntax.trimming : NftSyntax where
  addr s := (s.toStr?.bind fun t ↦ Target.read (strip t)).map Target.elem
  addr_render ip := by
    have hstrip : strip (render ip) = (Target.host ip).text :=
      strip_eq_self (addrSpelling.text_visible ip)
    rw [PyStr.toStr?_eq_some_iff.2 rfl, Option.bind_some, hstrip, Target.read_text]
    rfl
  not_mem_of_addr := by
    intro s e h hmem
    obtain ⟨t, ht, -⟩ := Option.map_eq_some_iff.1 h
    obtain ⟨u, hu, hread⟩ := Option.bind_eq_some_iff.1 ht
    rw [PyStr.toStr?_eq_some_iff.1 hu, PyStr.mem_ofStr] at hmem
    have hbrace : '\x7b' ∈ t.text := Target.text_of_read hread ▸ mem_strip (by decide) hmem
    exact Target.not_mem_text (by decide) (by decide) (by decide) t hbrace

/-- The kernel that holds one target and port 443. -/
theorem holdsElements_of_target (syn : NftSyntax) {x : PyStr} {e : Elem 32}
    (hblank : PyStr.isBlank x = false) (he : syn.addr (dropHostMask x) = some e) :
    Kernel.HoldsElements syn ⟨[e], [.single 443], []⟩ ⟨elementAddrs {x}, {PyStr.ofInt 443}, ∅⟩ := by
  have hels : elementAddrs {x} = {dropHostMask x} := by
    simp [elementAddrs, Finset.filter_singleton, hblank]
  constructor
  · intro e'
    simp [hels, he, eq_comm]
  · rintro (_ | _) e'
    · simp only [Kernel.ports, List.mem_singleton, ActiveSets.ports, Finset.mem_singleton]
      constructor
      · rintro rfl
        exact ⟨443, rfl, rfl⟩
      · rintro ⟨n, hn, rfl⟩
        have hval : n.val = 443 := Int.ofNat.inj (PyStr.ofInt_injective hn)
        exact congrArg _ (Fin.ext hval)
    · simp [Kernel.ports, ActiveSets.ports]

/-- Port 443 alone is in range. -/
theorem exists_port_of_mem (addrs : Finset PyStr) (proto : Proto) :
    ∀ s ∈ ActiveSets.ports ⟨addrs, {PyStr.ofInt 443}, ∅⟩ proto,
      ∃ n : Port, PyStr.ofInt n.val = s := by
  intro s hs
  rcases proto with _ | _
  · exact ⟨443, (Finset.mem_singleton.1 hs).symm⟩
  · exact absurd hs (Finset.notMem_empty s)

/-- One host: applied, listed, and found again. -/
theorem verify_after_apply_iff_of_host :
    ((EgressGate.reader.verify (.quiet 2
        (.printing .default [.str "1.1.1.1".toList] [.int 443] []))).run
        (worldOf "1.1.1.1/32" ⟨[.single (ofOctets 1 1 1 1)], [.single 443], []⟩)).1 = .ok () := by
  refine (@verify_after_apply_iff .reader .trimming (worldOf "1.1.1.1/32" _) (.quiet 2 _) _ _
    (computeActiveSets_worldOf "1.1.1.1/32" _) (elementSets_of_numerals _ ?_ ?_)
    (holdsElements_of_target .trimming (by decide) (by decide)) (by decide)
    (exists_port_of_mem _) listsKernel_host rfl rfl rfl).2 ?_
  · exact fun p hp ↦ ⟨443, by decide, (Finset.mem_singleton.1 hp).symm⟩
  · exact fun p hp ↦ absurd hp (Finset.notMem_empty p)
  · exact fun x hx ↦ ⟨ofOctets 1 1 1 1, (Finset.mem_singleton.1 hx).trans (by decide)⟩

/-- **A block that was applied is not found again.** The kernel holds exactly the element written
for the target `10.0.0.0/8`, `nft` lists it as a `prefix`, and `verify` raises. -/
theorem verify_rejects_applied_block :
    ∃ (env : GateVerifyEnv) (w : World Kernel) (sets els : ActiveSets),
      w = worldOf "10.0.0.0/8" ⟨[.network (ofOctets 10 0 0 0) 8], [.single 443], []⟩ ∧
      computeActiveSets .ascii env.read w.db = .ok sets ∧
      elementSets .ascii sets = .ok els ∧ w.kernel.HoldsElements .trimming els ∧
      (∀ x ∈ sets.addrs, PyStr.isBlank x = true ∨
        (NftSyntax.trimming.addr (dropHostMask x)).isSome = true) ∧
      (∀ proto, ∀ s ∈ sets.ports proto, ∃ n : Port, PyStr.ofInt n.val = s) ∧
      ListsKernel .ascii .default env.list w.kernel ∧
      requireBaseline .default env.probe = .ok () ∧
      requireBaseline .default env.setsProbe = .ok () ∧ env.audit.fault = none ∧
      ((EgressGate.reader.verify env).run w).1 ≠ .ok () := by
  have hlist : ListsKernel .ascii .default (.printing .default [.obj [("prefix".toList,
      .obj [("addr".toList, .str "10.0.0.0".toList), ("len".toList, .int 8)])]] [.int 443] [])
      ⟨[.network (ofOctets 10 0 0 0) 8], [.single 443], []⟩ := by
    refine listsKernel_printing (by decide) (by decide) (by decide) ?_
      (.cons ⟨_, Or.inl rfl, Or.inl rfl⟩ .nil) .nil
    exact .cons ⟨_, ⟨_, rfl, rfl⟩, Or.inl rfl⟩ .nil
  have hsets := computeActiveSets_worldOf "10.0.0.0/8"
    ⟨[.network (ofOctets 10 0 0 0) 8], [.single 443], []⟩
  have hels := @elementSets_of_numerals .ascii
    ⟨{dropHostMask "10.0.0.0/8".toList}, {PyStr.ofInt 443}, ∅⟩
    (fun p hp ↦ ⟨443, by decide, (Finset.mem_singleton.1 hp).symm⟩)
    fun p hp ↦ absurd hp (Finset.notMem_empty p)
  have hk : Kernel.HoldsElements .trimming ⟨[.network (ofOctets 10 0 0 0) 8], [.single 443], []⟩
      ⟨elementAddrs {dropHostMask "10.0.0.0/8".toList}, {PyStr.ofInt 443}, ∅⟩ :=
    holdsElements_of_target .trimming (by decide) (by decide)
  refine ⟨.quiet 2 _, _, _, _, rfl, hsets, hels, hk, by decide, exists_port_of_mem _, hlist, rfl,
    rfl, rfl, fun h ↦ ?_⟩
  -- the listed text would have to be the target, and is the text of an object
  obtain ⟨-, -, -, sets', hsets', hlisted⟩ := (verify_ok_iff _ _ _).1 h
  obtain rfl := Except.ok.inj (hsets.symm.trans hsets')
  obtain ⟨texts, htexts, hok⟩ := listedAddrs_of_listedBy .ascii hlist.addrs
  have hmem : PyStr.lit "10.0.0.0/8" ∈ texts := by
    rw [← List.mem_toFinset, Except.ok.inj (hok.symm.trans hlisted.addrs)]
    exact Finset.mem_singleton.2 (by decide)
  obtain ⟨e, he, hreads⟩ := (exists_of_forall₂ htexts).1 _ hmem
  obtain rfl := List.mem_singleton.1 he
  obtain ⟨t, ht⟩ := hreads
  exact absurd (List.cons.inj ht).1 (by decide)

end SourceOS.Gate
