import SourceOS.Foundation.StableSort
import SourceOS.Truth.DropNulls
import SourceOS.Truth.Stored

/-!
# A delta in its file

A delta is made of two surfaces that were read from files, by one program, or of two that are still
in memory, by another. The ones that were read have their keys in order, so the two deltas could
differ in more than the order of keys: a digest is of a text.

* **They do not** (`delta_from_files`). What `build_delta` returns depends on the surfaces as JSON
  values only, and the files that are written are equal byte by byte.
* **What is in the file can be checked from it** (`delta_checked_from_file`): both digests are those
  of the rest of the document, and the gate is the one that `compute_gate` returns on the stored
  surface.
* **The digests determine the delta** (`delta_digests_canonical`), as a JSON value.

The argument is the same at every level: each function of the emitter commutes with putting keys in
order.
-/

namespace SourceOS.Truth

open Text Json Python

/-! ### Keys in order, and the functions of the emitter -/

/-- An object with the keys in order, at every level. -/
def inOrder (d : Dict) : Dict :=
  (sortMembers d).insertionSort KeyLE

theorem sortKeys_obj (d : Dict) : sortKeys (.obj d) = .obj (inOrder d) := rfl

mutual

/-- **Dropping nulls commutes with putting keys in order.** -/
theorem sortKeys_dropNulls : ∀ j : Json, sortKeys (dropNulls j) = dropNulls (sortKeys j)
  | .null | .bool _ | .int _ | .float _ | .str _ => rfl
  | .arr xs => congrArg Json.arr (sortItems_dropNullItems xs)
  | .obj ms => by
    -- nulls are left out before the sorting or after it
    have hsorted : inOrder (dropNullMembers ms) = dropNullMembers (inOrder ms) := by
      have hfilter := insertionSort_filter (r := KeyLE) (fun m ↦ !isNull m.2) (sortMembers ms)
      have hmap := List.map_insertionSort (r := KeyLE) (s := KeyLE)
        (fun m : Str × Json ↦ (m.1, dropNulls m.2))
        ((sortMembers ms).filter fun m ↦ !isNull m.2) (fun _ _ _ _ ↦ Iff.rfl)
      rw [inOrder, sortMembers_dropNullMembers ms, dropNullMembers_eq_map, ← hmap, hfilter,
        ← dropNullMembers_eq_map]
      rfl
    rw [dropNulls, sortKeys_obj, hsorted]
    rfl

theorem sortItems_dropNullItems : ∀ xs : List Json,
    sortItems (dropNullItems xs) = dropNullItems (sortItems xs)
  | [] => rfl
  | x :: xs => by
    by_cases hx : x = .null
    · subst hx
      exact sortItems_dropNullItems xs
    · have hsorted : sortKeys x ≠ .null := by
        cases x <;> simp_all [sortKeys]
      rw [dropNullItems_cons hx, sortItems, sortItems, dropNullItems_cons hsorted,
        sortKeys_dropNulls x, sortItems_dropNullItems xs]

theorem sortMembers_dropNullMembers : ∀ ms : Dict,
    sortMembers (dropNullMembers ms) = dropNullMembers (sortMembers ms)
  | [] => rfl
  | (k, v) :: ms => by
    by_cases hv : v = .null
    · subst hv
      exact sortMembers_dropNullMembers ms
    · have hsorted : sortKeys v ≠ .null := by
        cases v <;> simp_all [sortKeys]
      rw [dropNullMembers_cons hv, sortMembers, sortMembers, dropNullMembers_cons hsorted,
        sortKeys_dropNulls v, sortMembers_dropNullMembers ms]

end

/-- The same values are the same without their nulls. -/
theorem same_dropNulls {j k : Json} (h : Same j k) : Same (dropNulls j) (dropNulls k) := by
  have hsorted : sortKeys j = sortKeys k := h
  rw [Same, sortKeys_dropNulls, sortKeys_dropNulls, hsorted]

/-- What is looked up in an object with its keys in order. -/
theorem lookup_inOrder {d : Dict} (h : (d.map Prod.fst).Nodup) (k : Str) :
    (inOrder d).lookup k = (d.lookup k).map sortKeys :=
  get?_sortKeys h k

theorem length_inOrder (d : Dict) : (inOrder d).length = d.length := by
  rw [inOrder, List.length_insertionSort, sortMembers_eq_map, List.length_map]

/-- **Truth, numbers and strings** do not depend on the order of keys. -/
theorem truthy_sortKeys (j : Json) : truthy (sortKeys j) = truthy j := by
  cases j with
  | arr xs =>
    rw [sortKeys, sortItems_eq_map]
    cases xs <;> rfl
  | obj ms =>
    have hlength := length_inOrder ms
    rw [sortKeys_obj]
    rcases hms : ms with _ | ⟨m, ms⟩
    · rfl
    · rw [hms, List.length_cons] at hlength
      have hne : inOrder (m :: ms) ≠ [] := by
        intro hnil
        rw [hnil] at hlength
        cases hlength
      simp [truthy, hne]
  | _ => rfl

variable (rt : Runtime)

theorem int_sortKeys (j : Json) : int rt (sortKeys j) = int rt j := by
  cases j <;> rfl

theorem listify_map_sortKeys (o : Option Json) :
    listify (o.map sortKeys) = (listify o).map sortKeys := by
  rcases o with _ | j
  · rfl
  · cases j with
    | arr xs => exact sortItems_eq_map xs
    | _ => rfl

/-- What can be hashed has no keys. -/
theorem setOf?_map_sortKeys (xs : List Json) : setOf? rt (xs.map sortKeys) = setOf? rt xs := by
  unfold setOf?
  rw [List.mapM_map]
  refine congrArg (Option.map distinct) (congrFun (congrArg List.mapM (funext fun j ↦ ?_)) xs)
  cases j <;> rfl

/-- A section of an object with its keys in order. -/
theorem sectionOf?_inOrder {d : Dict} (h : (d.map Prod.fst).Nodup) (k : Str) :
    sectionOf? (inOrder d) k = (sectionOf? d k).map inOrder := by
  -- what is not an object counts as an empty one, or is refused
  have hother : ∀ b : Bool, (if b then none else some ([] : Dict)) =
      Option.map inOrder (if b then none else some []) := by
    intro b
    cases b <;> rfl
  rw [sectionOf?, sectionOf?, lookup_inOrder h]
  rcases d.lookup k with _ | j
  · rfl
  · cases j with
    | obj ms => rfl
    | arr xs =>
      show (if truthy (sortKeys (.arr xs)) then none else some []) = _
      rw [truthy_sortKeys]
      exact hother (truthy (.arr xs))
    | null => rfl
    | bool b => exact hother (truthy (.bool b))
    | int n => exact hother (truthy (.int n))
    | float x => exact hother (truthy (.float x))
    | str s => exact hother (truthy (.str s))

/-! ### What a delta is made of -/

theorem plain_of_lookup {d : Dict} (h : Plain (.obj d)) {k : Str} {v : Json}
    (hv : d.lookup k = some v) : Plain v :=
  plainMembers_iff.1 h.2 (k, v) ((lookup_eq_some_iff h.1).1 hv)

theorem plain_sectionOf? {d : Dict} (h : Plain (.obj d)) {k : Str} {ms : Dict}
    (hms : sectionOf? d k = some ms) : Plain (.obj ms) := by
  have hnil : Plain (.obj [] : Json) := ⟨List.nodup_nil, trivial⟩
  rw [sectionOf?] at hms
  split at hms
  · obtain rfl := Option.some.inj hms
    exact hnil
  · rename_i hlookup
    obtain rfl := Option.some.inj hms
    exact plain_of_lookup h hlookup
  · split at hms
    · cases hms
    · obtain rfl := Option.some.inj hms
      exact hnil

theorem getD_map_sortKeys (o : Option Json) (j : Json) (hj : sortKeys j = j) :
    (o.map sortKeys).getD j = sortKeys (o.getD j) := by
  cases o with
  | none => exact hj.symm
  | some v => rfl

/-- **The gate's facts** do not depend on the order of keys. -/
theorem gateFacts_inOrder {d : Dict} (h : Plain (.obj d)) (args : GateArgs) :
    gateFacts rt (inOrder d) args = gateFacts rt d args := by
  rw [gateFacts, gateFacts, sectionOf?_inOrder h.1, sectionOf?_inOrder h.1]
  rcases hev : sectionOf? d "evidence".toList with _ | ev
  · rfl
  have hkeys : (ev.map Prod.fst).Nodup := (plain_sectionOf? h hev).1
  simp only [Option.map_some, Option.bind_eq_bind, Option.bind_some, lookup_inOrder hkeys,
    listify_map_sortKeys, setOf?_map_sortKeys]
  rcases hgov : sectionOf? d "governance".toList with _ | gov
  · rfl
  have hkeys : (gov.map Prod.fst).Nodup := (plain_sectionOf? h hgov).1
  have hint : ∀ (k : Str) (n : ℤ), int rt (((gov.lookup k).map sortKeys).getD (.int n)) =
      int rt ((gov.lookup k).getD (.int n)) := by
    intro k n
    rw [getD_map_sortKeys _ _ rfl, int_sortKeys]
  have hbool : ∀ (k : Str) (b : Bool), truthy (((gov.lookup k).map sortKeys).getD (.bool b)) =
      truthy ((gov.lookup k).getD (.bool b)) := by
    intro k b
    rw [getD_map_sortKeys _ _ rfl, truthy_sortKeys]
  simp only [Option.map_some, Option.bind_some, lookup_inOrder hkeys, hint, hbool]

theorem topics?_inOrder {d : Dict} (h : Plain (.obj d)) :
    topics? rt (inOrder d) = topics? rt d := by
  rw [topics?, topics?, sectionOf?_inOrder h.1]
  rcases hsem : sectionOf? d "semantics".toList with _ | sem
  · rfl
  have hkeys : (sem.map Prod.fst).Nodup := (plain_sectionOf? h hsem).1
  simp only [Option.map_some, Option.bind_eq_bind, Option.bind_some, lookup_inOrder hkeys,
    listify_map_sortKeys, setOf?_map_sortKeys]

theorem refOr_inOrder {d : Dict} (h : Plain (.obj d)) (ref : Option Str) :
    refOr (inOrder d) ref = sortKeys (refOr d ref) := by
  have hoptional : sortKeys (optional ref) = optional ref := by
    cases ref <;> rfl
  rw [refOr, refOr, lookup_inOrder h.1]
  rcases d.lookup "id".toList with _ | j
  · exact hoptional.symm
  · dsimp only [Option.map_some]
    rw [truthy_sortKeys]
    split
    · rfl
    · exact hoptional.symm

/-- The facts of a delta, with keys in order in what comes from the surfaces. -/
def DeltaFacts.inOrder (f : DeltaFacts) : DeltaFacts :=
  { f with
    fromRef := sortKeys f.fromRef
    toRef := sortKeys f.toRef
    fromRuntime := Truth.inOrder f.fromRuntime
    toRuntime := Truth.inOrder f.toRuntime
    refs := Truth.inOrder f.refs }

/-- **What is compared** of surfaces with their keys in order. -/
theorem deltaFacts_inOrder {fromTs toTs : Dict} (hfrom : Plain (.obj fromTs))
    (hto : Plain (.obj toTs)) (args : DeltaArgs) :
    deltaFacts rt (inOrder fromTs) (inOrder toTs) args =
      (deltaFacts rt fromTs toTs args).map DeltaFacts.inOrder := by
  rw [deltaFacts, deltaFacts, computeGate, computeGate, gateFacts_inOrder rt hto,
    topics?_inOrder rt hfrom, topics?_inOrder rt hto, sectionOf?_inOrder hfrom.1,
    sectionOf?_inOrder hto.1, sectionOf?_inOrder hto.1, refOr_inOrder hfrom, refOr_inOrder hto]
  rcases gateFacts rt toTs args.gate with _ | g
  · rfl
  rcases topics? rt fromTs with _ | fromTopics
  · rfl
  rcases topics? rt toTs with _ | toTopics
  · rfl
  rcases sectionOf? fromTs "runtime".toList with _ | fromRuntime
  · rfl
  rcases sectionOf? toTs "runtime".toList with _ | toRuntime
  · rfl
  rcases sectionOf? toTs "refs".toList with _ | refs
  · rfl
  rfl

/-! ### Documents that are sealed -/

/-- The two digests of a document. -/
def digests (root signature : Str) : Dict :=
  [("merkleRoot".toList, .str root), ("signature".toList, .str signature)]

theorem map_fst_digests (root signature : Str) : (digests root signature).map Prod.fst =
    ["merkleRoot".toList, "signature".toList] :=
  rfl

theorem sealed_eq (members : Dict) (blobs : List (List UInt8)) : sealed members blobs =
    dropNullMembers members ++ digests (computeMerkleRoot (dropNullMembers members) blobs)
      (devSignature (dropNullMembers members)) :=
  rfl

/-- The members of a document before it is sealed: plain, and without digests. -/
structure Sealable (members : Dict) : Prop where
  plain : Plain (.obj members)
  merkleRoot : "merkleRoot".toList ∉ members.map Prod.fst
  signature : "signature".toList ∉ members.map Prod.fst

namespace Sealable

variable {members : Dict} {blobs : List (List UInt8)} {root signature : Str}

/-- With any two texts for digests, the keys are distinct. -/
theorem nodup_append (h : Sealable members) :
    ((dropNullMembers members ++ digests root signature).map Prod.fst).Nodup := by
  have hsub := (sublist_dropNullMembers members).subset
  rw [List.map_append, map_fst_digests]
  refine List.nodup_append.2 ⟨h.plain.1.sublist (sublist_dropNullMembers _), by decide, ?_⟩
  intro k hk k' hk' heq
  rw [heq] at hk
  rcases List.mem_pair.1 hk' with hroot | hsig
  · exact h.merkleRoot (hsub (hroot ▸ hk))
  · exact h.signature (hsub (hsig ▸ hk))

theorem nodup_sealed (h : Sealable members) : ((sealed members blobs).map Prod.fst).Nodup := by
  rw [sealed_eq]
  exact h.nodup_append

theorem plain_append (h : Sealable members) :
    Plain (.obj (dropNullMembers members ++ digests root signature)) := by
  have hdropped : Plain (.obj (dropNullMembers members)) := plain_dropNulls h.plain
  refine ⟨h.nodup_append, plainMembers_iff.2 fun m hm ↦ ?_⟩
  rcases List.mem_append.1 hm with hm | hm
  · exact plainMembers_iff.1 hdropped.2 m hm
  · rcases List.mem_pair.1 hm with rfl | rfl
    · exact trivial
    · exact trivial

/-- What is signed is the rest of the document. -/
theorem withoutDigests_append (h : Sealable members) :
    withoutDigests (dropNullMembers members ++ digests root signature) =
      dropNullMembers members := by
  have hkeep : ∀ m ∈ dropNullMembers members,
      decide (m.1 ≠ "merkleRoot".toList ∧ m.1 ≠ "signature".toList) = true := by
    intro m hm
    have hkey := (sublist_dropNullMembers _).subset (List.mem_map_of_mem hm)
    exact decide_eq_true ⟨fun heq ↦ h.merkleRoot (heq ▸ hkey), fun heq ↦ h.signature (heq ▸ hkey)⟩
  have hdrop : (digests root signature).filter
      (fun m ↦ decide (m.1 ≠ "merkleRoot".toList ∧ m.1 ≠ "signature".toList)) = [] := by
    have hkeys : ∀ k ∈ ["merkleRoot".toList, "signature".toList],
        ¬ (k ≠ "merkleRoot".toList ∧ k ≠ "signature".toList) := by decide
    refine List.filter_eq_nil_iff.2 fun m hm ↦ ?_
    rw [decide_eq_true_eq]
    exact hkeys m.1 (map_fst_digests root signature ▸ List.mem_map_of_mem hm)
  rw [withoutDigests, List.filter_append, List.filter_eq_self.2 hkeep, hdrop, List.append_nil]

theorem lookup_merkleRoot_append (h : Sealable members) :
    (dropNullMembers members ++ digests root signature).lookup "merkleRoot".toList =
      some (.str root) := by
  rw [lookup_eq_some_iff h.nodup_append]
  exact List.mem_append_right _ List.mem_cons_self

theorem lookup_signature_append (h : Sealable members) :
    (dropNullMembers members ++ digests root signature).lookup "signature".toList =
      some (.str signature) := by
  rw [lookup_eq_some_iff h.nodup_append]
  exact List.mem_append_right _ (List.mem_cons_of_mem _ List.mem_cons_self)

/-- The same documents have one root. -/
theorem computeMerkleRoot_eq {d d' : Dict} (h : Same (.obj d) (.obj d')) :
    computeMerkleRoot d blobs = computeMerkleRoot d' blobs := by
  unfold computeMerkleRoot
  rw [h.c14n_eq]

/-- The same members make the same document. -/
theorem same_sealed (h : Sealable members) {members' : Dict}
    (hsame : Same (.obj members) (.obj members')) :
    Same (.obj (sealed members blobs)) (.obj (sealed members' blobs)) := by
  have hdropped : Same (.obj (dropNullMembers members)) (.obj (dropNullMembers members')) :=
    same_dropNulls hsame
  rw [sealed_eq, sealed_eq, ← computeMerkleRoot_eq hdropped, ← devSignature_eq hdropped]
  exact hdropped.append h.nodup_append

/-- A document with any two texts for digests is the same, without them, when it is read back. -/
theorem same_withoutDigests_append (h : Sealable members) :
    Same (.obj (withoutDigests (inOrder (dropNullMembers members ++ digests root signature))))
      (.obj (dropNullMembers members)) := by
  have hsorted : Same (.obj (inOrder (dropNullMembers members ++ digests root signature)))
      (.obj (dropNullMembers members ++ digests root signature)) :=
    same_sortKeys (.obj (dropNullMembers members ++ digests root signature))
  have hplain := plain_sortKeys (@plain_append _ root signature h)
  have hfilter := hsorted.filter hplain.1 fun k ↦
    decide (k ≠ "merkleRoot".toList ∧ k ≠ "signature".toList)
  have hrest : (dropNullMembers members ++ digests root signature).filter (fun m ↦
      decide (m.1 ≠ "merkleRoot".toList ∧ m.1 ≠ "signature".toList)) = dropNullMembers members :=
    h.withoutDigests_append
  rw [hrest] at hfilter
  exact hfilter

/-- **A sealed document is read back, and its digests are those of the rest of it.** -/
theorem checked (h : Sealable members) (rf : Str → PyFloat) :
    loads rf (storedText (sealed members blobs)) = some (.obj (inOrder (sealed members blobs))) ∧
      (inOrder (sealed members blobs)).lookup "merkleRoot".toList = some (.str
        (computeMerkleRoot (withoutDigests (inOrder (sealed members blobs))) blobs)) ∧
      (inOrder (sealed members blobs)).lookup "signature".toList = some (.str
        (devSignature (withoutDigests (inOrder (sealed members blobs))))) := by
  rw [sealed_eq]
  generalize hroot : computeMerkleRoot (dropNullMembers members) blobs = root
  generalize hsig : devSignature (dropNullMembers members) = signature
  have hsame := @same_withoutDigests_append _ root signature h
  refine ⟨?_, ?_, ?_⟩
  · rw [storedText, loads_fileText rf h.plain_append, sortKeys_obj]
  · rw [lookup_inOrder h.nodup_append, h.lookup_merkleRoot_append, computeMerkleRoot_eq hsame,
      hroot, Option.map_some, sortKeys_str]
  · rw [lookup_inOrder h.nodup_append, h.lookup_signature_append, devSignature_eq hsame, hsig,
      Option.map_some, sortKeys_str]

end Sealable

/-! ### Deltas -/

/-- Where the facts of a delta come from. -/
theorem facts_of_deltaFacts {fromTs toTs : Dict} {args : DeltaArgs} {f : DeltaFacts}
    (hf : deltaFacts rt fromTs toTs args = some f) :
    (∃ g, gateFacts rt toTs args.gate = some g ∧ f.gate = g.gate rt) ∧
      f.fromRef = refOr fromTs args.fromRef ∧ f.toRef = refOr toTs args.toRef ∧
      sectionOf? fromTs "runtime".toList = some f.fromRuntime ∧
      sectionOf? toTs "runtime".toList = some f.toRuntime ∧
      sectionOf? toTs "refs".toList = some f.refs := by
  simp only [deltaFacts, computeGate, Option.bind_eq_bind, Option.bind_eq_some_iff,
    Option.map_eq_some_iff] at hf
  obtain ⟨_, ⟨g, hg, rfl⟩, _, -, _, -, fromRuntime, hfromRuntime, toRuntime, htoRuntime, refs,
    hrefs, hall⟩ := hf
  obtain rfl := Option.some.inj hall
  exact ⟨⟨g, hg, rfl⟩, rfl, rfl, hfromRuntime, htoRuntime, hrefs⟩

/-- What is listed in a section that is plain is plain. -/
theorem plain_listify {d : Dict} (h : Plain (.obj d)) (k : Str) :
    ∀ j ∈ listify (d.lookup k), Plain j := by
  rcases hk : d.lookup k with _ | v
  · exact fun j hj ↦ absurd hj List.not_mem_nil
  · have hv := plain_of_lookup h hk
    cases v with
    | null => exact fun j hj ↦ absurd hj List.not_mem_nil
    | arr xs => exact plainItems_iff.1 hv
    | _ => exact List.forall_mem_singleton.2 hv

/-- What a gate decides from is plain if the surface is. -/
theorem plain_of_gateFacts {d : Dict} (h : Plain (.obj d)) {args : GateArgs} {g : GateFacts}
    (hg : gateFacts rt d args = some g) :
    PlainItems g.required ∧ PlainItems g.present ∧ PlainItems g.missing := by
  simp only [gateFacts, Option.bind_eq_bind, Option.bind_eq_some_iff] at hg
  obtain ⟨ev, hev, required, hrequired, present, hpresent, missing, hmissing, _, -, _, -, _, -, req,
    hreq, pres, hpres, hall⟩ := hg
  obtain rfl := Option.some.inj hall
  have hplain : ∀ {k : Str} {s : List (Rank × Json)},
      setOf? rt (listify (ev.lookup k)) = some s → ∀ x ∈ s, Plain x.2 := fun hs x hx ↦
    plain_listify (plain_sectionOf? h hev) _ x.2 (mem_of_setOf? hs x hx).1
  have hsorted : ∀ {s : List (Rank × Json)} {js : List Json}, sorted? s = some js →
      (∀ x ∈ s, Plain x.2) → PlainItems js := by
    refine fun hjs hs ↦ plainItems_iff.2 fun j hj ↦ ?_
    obtain ⟨x, hx, rfl⟩ := mem_of_sorted? hjs j hj
    exact hs x hx
  exact ⟨hsorted hreq (hplain hrequired), hsorted hpres (hplain hpresent),
    hsorted hmissing fun x hx ↦ hplain hrequired x (List.mem_filter.1 hx).1⟩

theorem plain_gate {g : GateFacts} (h : PlainItems g.required ∧ PlainItems g.present ∧
    PlainItems g.missing) : Plain (.obj (g.gate rt)) := by
  have hnodup : ((g.gate rt).map Prod.fst).Nodup := by
    simp only [GateFacts.gate, List.map_cons, List.map_nil]
    decide
  have hstrings : ∀ ss, Plain (strings ss) := plain_strings
  refine ⟨hnodup, ?_⟩
  simp [GateFacts.gate, PlainMembers, Plain, hstrings, h]

theorem plain_getD_lookup {d : Dict} (h : Plain (.obj d)) (k : Str) :
    Plain ((d.lookup k).getD .null) := by
  rcases hk : d.lookup k with _ | v
  · exact trivial
  · exact plain_of_lookup h hk

theorem plain_refOr {d : Dict} (h : Plain (.obj d)) (ref : Option Str) : Plain (refOr d ref) := by
  rw [refOr]
  rcases hk : d.lookup "id".toList with _ | v
  · exact plain_optional ref
  · dsimp only
    split
    · exact plain_of_lookup h hk
    · exact plain_optional ref

/-- The members of a delta can be sealed. -/
theorem sealable_deltaMembers {fromTs toTs : Dict} (hfrom : Plain (.obj fromTs))
    (hto : Plain (.obj toTs)) {args : DeltaArgs} (uuid : Str) (now : StructTime) {f : DeltaFacts}
    (hf : deltaFacts rt fromTs toTs args = some f) : Sealable (deltaMembers args uuid now f) := by
  obtain ⟨⟨g, hg, hgate⟩, hfromRef, htoRef, hfromRuntime, htoRuntime, hrefs⟩ :=
    facts_of_deltaFacts rt hf
  have hkeys : (deltaMembers args uuid now f).map Prod.fst = ["id".toList, "type".toList,
      "specVersion".toList, "fromRef".toList, "toRef".toList, "createdAt".toList, "signer".toList,
      "metrics".toList, "gate".toList, "refs".toList] := rfl
  refine ⟨⟨nodup_deltaMembers args uuid now f, ?_⟩, ?_, ?_⟩
  · have hplainFrom : Plain f.fromRef := hfromRef ▸ plain_refOr hfrom args.fromRef
    have hplainTo : Plain f.toRef := htoRef ▸ plain_refOr hto args.toRef
    have hplainGate : Plain (.obj f.gate) := hgate ▸ plain_gate rt (plain_of_gateFacts rt hto hg)
    have hruntime := plain_getD_lookup (plain_sectionOf? hfrom hfromRuntime) "integrity".toList
    have hruntime' := plain_getD_lookup (plain_sectionOf? hto htoRuntime) "integrity".toList
    have hbefore := plain_getD_lookup (plain_sectionOf? hto hrefs) "cairnBeforeRef".toList
    have hafter := plain_getD_lookup (plain_sectionOf? hto hrefs) "cairnAfterRef".toList
    have hstatus := plain_getD_lookup hplainGate "status".toList
    rw [Plain] at hplainGate
    simp only [deltaMembers, PlainMembers, Plain, hplainFrom, hplainTo, hplainGate, List.map_cons,
      List.map_nil, true_and, and_true]
    exact ⟨⟨by decide, by decide, ⟨by decide, hruntime, hruntime'⟩, by decide, hstatus⟩,
      by decide, hbefore, hafter⟩
  · rw [hkeys]
    decide
  · rw [hkeys]
    decide

/-- The facts of a delta, with or without keys in order, make the same members. -/
theorem same_deltaMembers_inOrder (args : DeltaArgs) (uuid : Str) (now : StructTime)
    {f : DeltaFacts} (hruntime : (f.fromRuntime.map Prod.fst).Nodup)
    (hruntime' : (f.toRuntime.map Prod.fst).Nodup) (hrefs : (f.refs.map Prod.fst).Nodup) :
    Same (.obj (deltaMembers args uuid now f)) (.obj (deltaMembers args uuid now f.inOrder)) := by
  have hget : ∀ {d : Dict}, (d.map Prod.fst).Nodup → ∀ k,
      sortKeys (((inOrder d).lookup k).getD .null) = sortKeys ((d.lookup k).getD .null) := by
    intro d hd k
    rw [lookup_inOrder hd, getD_map_sortKeys _ _ rfl, sortKeys_sortKeys]
  have hmembers : sortMembers (deltaMembers args uuid now f.inOrder) =
      sortMembers (deltaMembers args uuid now f) := by
    simp only [deltaMembers, DeltaFacts.inOrder, sortMembers, sortKeys, hget hruntime,
      hget hruntime', hget hrefs, sortKeys_sortKeys]
    rfl
  rw [same_obj_iff_perm (nodup_deltaMembers args uuid now f), hmembers]

/-- **A delta of surfaces with their keys in order** is the same, and the same delta or none. -/
theorem buildDelta_inOrder {fromTs toTs : Dict} (hfrom : Plain (.obj fromTs))
    (hto : Plain (.obj toTs)) (args : DeltaArgs) (uuid : Str) (now : StructTime) :
    (buildDelta rt (inOrder fromTs) (inOrder toTs) args uuid now).map inOrder =
      (buildDelta rt fromTs toTs args uuid now).map inOrder := by
  rw [buildDelta, buildDelta, deltaFacts_inOrder rt hfrom hto]
  rcases hf : deltaFacts rt fromTs toTs args with _ | f
  · rfl
  · obtain ⟨-, -, -, hruntime, hruntime', hrefs⟩ := facts_of_deltaFacts rt hf
    have hsame := same_deltaMembers_inOrder args uuid now (plain_sectionOf? hfrom hruntime).1
      (plain_sectionOf? hto hruntime').1 (plain_sectionOf? hto hrefs).1
    have hsealed := @Sealable.same_sealed _ [] (sealable_deltaMembers rt hfrom hto uuid now hf) _
      hsame
    exact congrArg some (Json.obj.inj hsealed).symm

/-- The file of a document depends on the document as a JSON value. -/
theorem storedText_eq {d d' : Dict} (h : inOrder d = inOrder d') :
    storedText d = storedText d' := by
  have hsorted : sortKeys (.obj d) = sortKeys (.obj d') := congrArg Json.obj h
  rw [storedText, storedText, fileText, fileText, hsorted]

theorem lookup_gate_of_buildDelta {fromTs toTs delta : Dict} {args : DeltaArgs} {uuid : Str}
    {now : StructTime} (h : buildDelta rt fromTs toTs args uuid now = some delta) :
    ∃ gate, computeGate rt fromTs toTs args.gate = some gate ∧
      delta.lookup "gate".toList = some (dropNulls (.obj gate)) := by
  obtain ⟨f, hf, rfl⟩ := Option.map_eq_some_iff.1 h
  obtain ⟨⟨g, hg, hgate⟩, -⟩ := facts_of_deltaFacts rt hf
  have hmember : (deltaMembers args uuid now f).lookup "gate".toList = some (.obj f.gate) := rfl
  refine ⟨g.gate rt, by rw [computeGate, hg, Option.map_some], ?_⟩
  rw [lookup_sealed (nodup_deltaMembers args uuid now f) hmember (by simp), hgate]

/-- **A delta does not depend on where its surfaces come from, and can be checked from the files.**
Take any two objects without floats, written to their files and read back. Either there is no delta
of them, and none of what was read; or there are both, and their files are equal byte by byte. Such
a file reads back; its `merkleRoot` and its `signature` are those of the rest of what is read; and
the gate in it is what `compute_gate` returns on what was read of the second surface, without nulls
and whatever is taken for the first. -/
theorem delta_from_files (rf : Str → PyFloat) {fromTs toTs : Dict} (hfrom : Plain (.obj fromTs))
    (hto : Plain (.obj toTs)) (args : DeltaArgs) (uuid : Str) (now : StructTime) :
    ∃ fromRead toRead, loads rf (storedText fromTs) = some (.obj fromRead) ∧
      loads rf (storedText toTs) = some (.obj toRead) ∧
      (buildDelta rt fromRead toRead args uuid now).map storedText =
        (buildDelta rt fromTs toTs args uuid now).map storedText ∧
      ∀ delta, buildDelta rt fromTs toTs args uuid now = some delta → ∃ stored,
        loads rf (storedText delta) = some (.obj stored) ∧
        stored.lookup "merkleRoot".toList =
          some (.str (computeMerkleRoot (withoutDigests stored) [])) ∧
        stored.lookup "signature".toList = some (.str (devSignature (withoutDigests stored))) ∧
        ∀ other, ∃ gate, computeGate rt other toRead args.gate = some gate ∧
          stored.lookup "gate".toList = some (sortKeys (dropNulls (.obj gate))) := by
  refine ⟨inOrder fromTs, inOrder toTs, loads_fileText rf hfrom, loads_fileText rf hto, ?_, ?_⟩
  · have hdeltas := buildDelta_inOrder rt hfrom hto args uuid now
    rcases hleft : buildDelta rt (inOrder fromTs) (inOrder toTs) args uuid now with _ | delta
    · rw [hleft] at hdeltas
      have hright := Option.map_eq_none_iff.1 hdeltas.symm
      rw [hright]
    · rw [hleft] at hdeltas
      obtain ⟨delta', hright, hsame⟩ := Option.map_eq_some_iff.1 hdeltas.symm
      rw [hright, Option.map_some, Option.map_some, storedText_eq hsame]
  · intro delta hdelta
    obtain ⟨f, hf, rfl⟩ := Option.map_eq_some_iff.1 hdelta
    have hsealable := sealable_deltaMembers rt hfrom hto uuid now hf
    obtain ⟨hread, hroot, hsig⟩ := @Sealable.checked _ [] hsealable rf
    refine ⟨_, hread, hroot, hsig, fun other ↦ ?_⟩
    obtain ⟨gate, hgate, hlookup⟩ := lookup_gate_of_buildDelta rt hdelta
    refine ⟨gate, ?_, ?_⟩
    · rw [← hgate, computeGate, computeGate, gateFacts_inOrder rt hto]
    · rw [lookup_inOrder hsealable.nodup_sealed, hlookup, Option.map_some]

/-- The arguments of the command line, when none are given. -/
def defaultDeltaArgs : DeltaArgs :=
  ⟨"2.0.0".toList, none, none, "sourceos-delta-surface".toList, none, none, ⟨0, 30, false, false⟩⟩

/-- The delta of a surface with itself, from memory and from the file. -/
theorem delta_from_files_sample : ∃ fromRead toRead,
    loads Runtime.ascii.readFloat (storedText (buildSurface (sampleArgs []) (linedHost []))) =
      some (.obj fromRead) ∧
    loads Runtime.ascii.readFloat (storedText (buildSurface (sampleArgs []) (linedHost []))) =
      some (.obj toRead) ∧
    (buildDelta Runtime.ascii fromRead toRead defaultDeltaArgs ['u']
        (linedHost []).now).map storedText =
      (buildDelta Runtime.ascii (buildSurface (sampleArgs []) (linedHost []))
        (buildSurface (sampleArgs []) (linedHost [])) defaultDeltaArgs ['u']
          (linedHost []).now).map storedText := by
  obtain ⟨fromRead, toRead, hfrom, hto, hdeltas, -⟩ := delta_from_files Runtime.ascii
    Runtime.ascii.readFloat (@plain_buildSurface (sampleArgs []) (linedHost []))
    (@plain_buildSurface (sampleArgs []) (linedHost [])) defaultDeltaArgs ['u'] (linedHost []).now
  exact ⟨fromRead, toRead, hfrom, hto, hdeltas⟩

/-! ### What the digests of a delta determine -/

section Digests

variable {fromTs toTs fromTs' toTs' delta delta' : Dict} {args args' : DeltaArgs}
  {uuid uuid' : Str} {now now' : StructTime}

/-- What a delta is. -/
theorem exists_sealed_of_buildDelta (hfrom : Plain (.obj fromTs)) (hto : Plain (.obj toTs))
    (h : buildDelta rt fromTs toTs args uuid now = some delta) :
    ∃ rest, Plain (.obj rest) ∧ withoutDigests delta = rest ∧
      delta = rest ++ digests (computeMerkleRoot rest []) (devSignature rest) ∧
      delta.lookup "merkleRoot".toList = some (.str (computeMerkleRoot rest [])) ∧
      delta.lookup "signature".toList = some (.str (devSignature rest)) ∧
      (delta.map Prod.fst).Nodup := by
  obtain ⟨f, hf, rfl⟩ := Option.map_eq_some_iff.1 h
  have hsealable := sealable_deltaMembers rt hfrom hto uuid now hf
  refine ⟨dropNullMembers (deltaMembers args uuid now f), plain_dropNulls hsealable.plain, ?_,
    sealed_eq _ _, ?_, ?_, hsealable.nodup_sealed⟩
  · rw [sealed_eq, hsealable.withoutDigests_append]
  · rw [sealed_eq, hsealable.lookup_merkleRoot_append]
  · rw [sealed_eq, hsealable.lookup_signature_append]

/-- **The digests of a delta are canonical, and cover all of it.** Of two deltas of any plain
surfaces, the signatures are equal if and only if the roots are, and if and only if the deltas
without the two are the same JSON value, where no digest collides; and then the whole deltas are the
same value, and their files are equal. -/
theorem delta_digests_canonical (hfrom : Plain (.obj fromTs)) (hto : Plain (.obj toTs))
    (hfrom' : Plain (.obj fromTs')) (hto' : Plain (.obj toTs'))
    (h : buildDelta rt fromTs toTs args uuid now = some delta)
    (h' : buildDelta rt fromTs' toTs' args' uuid' now' = some delta')
    (hsum : Set.InjOn Sha256.sum256 {t | t = utf8 (c14n (.obj (withoutDigests delta))) ∨
      t = utf8 (c14n (.obj (withoutDigests delta')))}) :
    (delta.lookup "signature".toList = delta'.lookup "signature".toList ↔
      Same (.obj (withoutDigests delta)) (.obj (withoutDigests delta'))) ∧
    (delta.lookup "merkleRoot".toList = delta'.lookup "merkleRoot".toList ↔
      Same (.obj (withoutDigests delta)) (.obj (withoutDigests delta'))) ∧
    (delta.lookup "signature".toList = delta'.lookup "signature".toList →
      Same (.obj delta) (.obj delta') ∧ storedText delta = storedText delta') := by
  obtain ⟨rest, hplain, hrest, hdelta, hroot, hsig, hkeys⟩ :=
    exists_sealed_of_buildDelta rt hfrom hto h
  obtain ⟨rest', hplain', hrest', hdelta', hroot', hsig', -⟩ :=
    exists_sealed_of_buildDelta rt hfrom' hto' h'
  rw [hrest, hrest'] at hsum ⊢
  rw [hroot, hroot', hsig, hsig']
  -- a text and its digest determine each other
  have htext : hexdigest (Sha256.sum256 (utf8 (c14n (.obj rest)))) =
      hexdigest (Sha256.sum256 (utf8 (c14n (.obj rest')))) ↔ Same (.obj rest) (.obj rest') := by
    constructor
    · intro heq
      have hbytes := hsum (Or.inl rfl) (Or.inr rfl) (hexdigest_injective heq)
      refine ((@utf8_c14n_append_inj _ _ hplain hplain' [] []).1 ?_).1
      rw [hbytes]
    · intro hsame
      rw [hsame.c14n_eq]
  have hsigned : devSignature rest = devSignature rest' ↔ Same (.obj rest) (.obj rest') := by
    unfold devSignature
    rw [List.append_cancel_left_eq]
    exact htext
  have hrooted : computeMerkleRoot rest [] = computeMerkleRoot rest' [] ↔
      Same (.obj rest) (.obj rest') := by
    unfold computeMerkleRoot
    rw [List.append_cancel_left_eq, List.flatten_nil, List.append_nil, List.append_nil]
    exact htext
  have hstr : ∀ s t : Str, some (Json.str s) = some (Json.str t) ↔ s = t := by
    intro s t
    simp
  rw [hstr, hstr]
  refine ⟨hsigned, hrooted, fun heq ↦ ?_⟩
  have hsame := hsigned.1 heq
  have hwhole : Same (.obj delta) (.obj delta') := by
    rw [hdelta] at hkeys ⊢
    rw [hdelta', ← heq, ← hrooted.2 hsame]
    exact hsame.append hkeys
  exact ⟨hwhole, storedText_eq (Json.obj.inj hwhole)⟩

/-- The digests of a delta of a surface with itself, made twice. -/
theorem delta_digests_canonical_twice : ∃ delta,
    buildDelta Runtime.ascii (buildSurface (sampleArgs []) (linedHost []))
      (buildSurface (sampleArgs []) (linedHost [])) defaultDeltaArgs ['u'] (linedHost []).now =
        some delta ∧
    (delta.lookup "merkleRoot".toList = delta.lookup "merkleRoot".toList ↔
      Same (.obj (withoutDigests delta)) (.obj (withoutDigests delta))) := by
  have hplain := @plain_buildSurface (sampleArgs []) (linedHost [])
  obtain ⟨delta, -, hdelta, -⟩ := @exists_buildDelta Runtime.ascii (sampleArgs [])
    (linedHost []) (sampleArgs []) (linedHost []) defaultDeltaArgs ['u'] (linedHost []).now
  exact ⟨delta, hdelta, (delta_digests_canonical Runtime.ascii hplain hplain hplain hplain
    hdelta hdelta (injOn_of_eq rfl)).2.1⟩

end Digests

end SourceOS.Truth
