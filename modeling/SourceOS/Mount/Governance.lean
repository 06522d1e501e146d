import Mathlib.Data.List.Nodup
import SourceOS.Foundation.Go
import SourceOS.Foundation.HashChain
import SourceOS.Foundation.Sha256

/-!
# The membrane and the receipt chain

What stands between a caller and a mounted space: a **lease** names who may do what in which space
until when, the **membrane** allows or denies an access under a lease, and the **receipt log**
records each decision in a hash chain.

* `check` is fail-closed. Its answer depends on the lease, the space, the class of access and the
  clock, and the path appears only in the reason (`check_eq_ok_iff`); whether a lease allows writing
  is therefore a property of the lease and the time alone (`DeniesWrite`).
* `ReceiptLog.append` and `ReceiptLog.verify` each write the payload format of a receipt out for
  themselves, as the source does; `Receipt.payload` is the common value the results are about, and
  `verifyFrom_eq_ok_iff` identifies what the verifier accepts with the linked lists of
  `receiptChain`. `Chained` is the invariant of a log that only `append` has written to.
* The payload joins eight fields with `|` and escapes nothing. The numeral, the predecessor's hash
  and the formatted time cannot contain the separator, so the payload determines **these three**
  (`payload_inj`); about the fields behind them it says less.
-/

namespace SourceOS.Mount

open Go

/-! ### Leases and the membrane -/

/-- The class of access crossing the seam. -/
abbrev Op := GoString

/-- `OpRead`. -/
def opRead : Op := ascii "read".toList

/-- `OpWrite`. -/
def opWrite : Op := ascii "write".toList

/-- `OpList`. -/
def opList : Op := ascii "list".toList

/-- `OpStat`. -/
def opStat : Op := ascii "stat".toList

/-- `OpCommit`: freeze an immutable version. -/
def opCommit : Op := ascii "commit".toList

/-- `isWrite`: writing and committing. -/
def isWrite (o : Op) : Bool :=
  o = opWrite || o = opCommit

theorem isWrite_opWrite : isWrite opWrite = true := by decide

/-- The capability a subject holds over one space. -/
structure Lease where
  /-- Who. -/
  subject : GoString
  /-- The space this lease is scoped to. -/
  space : GoString
  /-- The declared purpose. -/
  purpose : GoString
  /-- Reading, listing and `stat` are allowed. -/
  canRead : Bool
  /-- Creating, writing, renaming and removing are allowed. -/
  canWrite : Bool
  /-- Hard expiry; the zero time means that there is none. -/
  expiry : Time
deriving DecidableEq

/-- `ReadOnlyLease`. -/
def readOnlyLease (subject space purpose : GoString) : Lease :=
  ⟨subject, space, purpose, true, false, Time.zero⟩

/-- `ReadWriteLease`. -/
def readWriteLease (subject space purpose : GoString) : Lease :=
  ⟨subject, space, purpose, true, true, Time.zero⟩

/-- The lease has run out at `now`. -/
def Lease.expired (l : Lease) (now : Time) : Bool :=
  !l.expiry.isZero && now.after l.expiry

section Check

variable (isPrint : ℕ → Bool)

/-- `Membrane.Check`: nothing to allow, or the reason to deny. `now` is the clock it reads. -/
def check (now : Time) (lease : Option Lease) (space : GoString) (op : Op) (path : GoString) :
    Except GoString Unit :=
  match lease with
  | none =>
    .error (ascii "denied: no lease presented for ".toList ++ op ++ ascii " on ".toList ++
      quote isPrint path)
  | some l =>
    if l.space ≠ space then
      .error (ascii "denied: lease scoped to space ".toList ++ quote isPrint l.space ++
        ascii ", mount is space ".toList ++ quote isPrint space)
    else if l.expired now then
      .error (ascii "denied: lease for ".toList ++ quote isPrint l.subject ++
        ascii " expired at ".toList ++ l.expiry.formatRFC3339 false)
    else if isWrite op then
      if !l.canWrite then
        .error (ascii "denied: lease lacks write capability (".toList ++ op ++
          ascii " on ".toList ++ quote isPrint path ++ ascii ")".toList)
      else .ok ()
    else if !l.canRead then
      .error (ascii "denied: lease lacks read capability (".toList ++ op ++ ascii " on ".toList ++
        quote isPrint path ++ ascii ")".toList)
    else .ok ()

/-- A lease allows a class of access in a space: it is scoped there, has not run out and has the
capability. -/
def Lease.Allows (l : Lease) (now : Time) (space : GoString) (op : Op) : Prop :=
  l.space = space ∧ l.expired now = false ∧ (if isWrite op then l.canWrite else l.canRead) = true

/-- **What the membrane allows.** Neither the path nor the texts of the reasons matter. -/
theorem check_eq_ok_iff {now : Time} {lease : Option Lease} {space : GoString} {op : Op}
    {path : GoString} : check isPrint now lease space op path = .ok () ↔
      ∃ l, lease = some l ∧ l.Allows now space op := by
  rcases lease with _ | l
  · simp [check]
  · rw [check]
    constructor
    · intro h
      split at h
      · exact absurd h (by simp)
      · rename_i hspace
        split at h
        · exact absurd h (by simp)
        · rename_i hexp
          refine ⟨l, rfl, not_not.1 hspace, by simpa using hexp, ?_⟩
          split at h <;> split at h <;> simp_all
    · rintro ⟨_, ⟨⟩, hspace, hexp, hcap⟩
      rw [if_neg (not_not.2 hspace), if_neg (by simp [hexp])]
      split at hcap <;> simp_all

/-- The membrane denies writing under the lease at `now`. -/
def DeniesWrite (now : Time) (lease : Option Lease) (space : GoString) : Prop :=
  ∃ path, check isPrint now lease space opWrite path ≠ .ok ()

/-- Writing is denied when there is no lease, or it is for another space, or it has run out, or it
lacks the capability. -/
theorem deniesWrite_iff {now : Time} {lease : Option Lease} {space : GoString} :
    DeniesWrite isPrint now lease space ↔
      ∀ l, lease = some l → l.space ≠ space ∨ l.expired now = true ∨ l.canWrite = false := by
  rw [DeniesWrite]
  simp only [Ne, check_eq_ok_iff, Lease.Allows, isWrite_opWrite, if_true, exists_const, not_exists,
    not_and,
    Bool.not_eq_true]
  refine forall_congr' fun l ↦ imp_congr_right fun _ ↦ ?_
  rcases l.expired now <;> tauto

/-- Denied for one path, denied for all, and committing is denied with writing. -/
theorem DeniesWrite.error {now : Time} {lease : Option Lease} {space : GoString}
    (h : DeniesWrite isPrint now lease space) {op : Op} (hop : isWrite op = true)
    (path : GoString) : ∃ reason, check isPrint now lease space op path = .error reason := by
  obtain ⟨p, hp⟩ := h
  rcases hcheck : check isPrint now lease space op path with reason | _
  · exact ⟨reason, rfl⟩
  · refine absurd ?_ hp
    rw [check_eq_ok_iff] at hcheck ⊢
    obtain ⟨l, hl, hspace, hexp, hcap⟩ := hcheck
    refine ⟨l, hl, hspace, hexp, ?_⟩
    rw [if_pos hop] at hcap
    rwa [if_pos isWrite_opWrite]

end Check

/-! ### Receipts -/

/-- One record of an access decision. -/
structure Receipt where
  /-- The position in the log. A slice's length is an `int`, so its `uint64` is the number itself.
  -/
  seq : ℕ
  /-- The hash of the previous receipt. -/
  prev : GoString
  /-- When. -/
  ts : Time
  /-- Who. -/
  subject : GoString
  /-- In which space. -/
  space : GoString
  /-- The class of access. -/
  op : Op
  /-- The path. -/
  path : GoString
  /-- The decision. -/
  verdict : GoString
  /-- The digest of the fields above, in hexadecimal. -/
  hash : GoString
deriving DecidableEq

/-- `ReceiptLog`: the receipts, and the hash the next one has to name. -/
structure ReceiptLog where
  /-- `last`. -/
  last : GoString
  /-- `all`. -/
  all : List Receipt
deriving DecidableEq

namespace ReceiptLog

/-- The zero value. -/
def empty : ReceiptLog := ⟨[], []⟩

/-- `append`; `now` is the clock it reads. The receipt is returned with the log that holds it. -/
def append (rl : ReceiptLog) (now : Time) (subject space : GoString) (op : Op)
    (path verdict : GoString) : Receipt × ReceiptLog :=
  let r : Receipt :=
    { seq := rl.all.length, prev := rl.last, ts := now.utc, subject := subject, space := space,
      op := op, path := path, verdict := verdict, hash := [] }
  let payload := formatUint r.seq ++ bar :: (r.prev ++ bar :: (r.ts.formatRFC3339 true ++
    bar :: (r.subject ++ bar :: (r.space ++ bar :: (r.op ++ bar :: (r.path ++
    bar :: r.verdict))))))
  let sum := Sha256.sum256 payload
  let r := { r with hash := hexEncode sum }
  (r, { last := r.hash, all := rl.all ++ [r] })

/-- `Entries`. -/
def entries (rl : ReceiptLog) : List Receipt := rl.all

section Verify

variable (isPrint : ℕ → Bool)

/-- The loop of `Verify`, at the receipt number `i` with the hash it has to name. -/
def verifyFrom (prev : GoString) (i : ℕ) : List Receipt → Except GoString Unit
  | [] => .ok ()
  | r :: rs =>
    if r.prev ≠ prev then
      .error (ascii "receipt ".toList ++ formatUint i ++ ascii ": prev=".toList ++
        quote isPrint r.prev ++ ascii ", expected ".toList ++ quote isPrint prev ++
        ascii " (chain broken)".toList)
    else
      let payload := formatUint r.seq ++ bar :: (r.prev ++ bar :: (r.ts.formatRFC3339 true ++
        bar :: (r.subject ++ bar :: (r.space ++ bar :: (r.op ++ bar :: (r.path ++
        bar :: r.verdict))))))
      let sum := Sha256.sum256 payload
      let got := hexEncode sum
      if got ≠ r.hash then
        .error (ascii "receipt ".toList ++ formatUint i ++ ascii ": hash=".toList ++ r.hash ++
          ascii " recomputed=".toList ++ got ++ ascii " (tampered)".toList)
      else verifyFrom r.hash (i + 1) rs

/-- `Verify`. -/
def verify (rl : ReceiptLog) : Except GoString Unit :=
  verifyFrom isPrint [] 0 rl.all

end Verify

end ReceiptLog

/-! ### The chain -/

/-- The fields of a receipt joined with the separator. -/
def Receipt.payload (r : Receipt) : GoString :=
  formatUint r.seq ++ bar :: (r.prev ++ bar :: (r.ts.formatRFC3339 true ++ bar :: (r.subject ++
    bar :: (r.space ++ bar :: (r.op ++ bar :: (r.path ++ bar :: r.verdict))))))

/-- Receipts as a hash chain; the root of a chain is the empty string. -/
def receiptChain : HashChain Receipt GoString GoString where
  prev := Receipt.prev
  hash := Receipt.hash
  payload := Receipt.payload
  digest p := hexEncode (Sha256.sum256 p)

/-- A digest is sixty-four characters long, so it is never the empty root. -/
theorem digest_ne_root (p : GoString) : receiptChain.digest p ≠ [] := by
  intro h
  have hlen := congrArg List.length h
  rw [show receiptChain.digest p = hexEncode (Sha256.sum256 p) from rfl, length_hexEncode,
    Sha256.length_sum256] at hlen
  exact absurd hlen (by decide)

/-- What a receipt of a linked list can name has no separator in it. -/
theorem bar_notMem_of_stem {d : GoString} (h : receiptChain.Stem [] d) : bar ∉ d := by
  rcases h with rfl | ⟨k, rfl⟩
  · exact List.not_mem_nil
  · exact bar_notMem_hexEncode _

/-- **The payload determines the first three fields** of receipts that name a predecessor a linked
list can have. -/
theorem payload_inj {r s : Receipt} (hr : receiptChain.Stem [] r.prev)
    (hs : receiptChain.Stem [] s.prev) (h : r.payload = s.payload) :
    r.seq = s.seq ∧ r.prev = s.prev ∧ r.ts.formatRFC3339 true = s.ts.formatRFC3339 true := by
  obtain ⟨hseq, h⟩ := append_bar_inj (bar_notMem_formatUint _) (bar_notMem_formatUint _) h
  obtain ⟨hprev, h⟩ := append_bar_inj (bar_notMem_of_stem hr) (bar_notMem_of_stem hs) h
  obtain ⟨hts, -⟩ := append_bar_inj (Time.bar_notMem_formatRFC3339 _ _)
    (Time.bar_notMem_formatRFC3339 _ _) h
  exact ⟨formatUint_injective hseq, hprev, hts⟩

namespace ReceiptLog

/-- **What `Verify` accepts** are the linked lists. -/
theorem verifyFrom_eq_ok_iff {isPrint : ℕ → Bool} {prev : GoString} {i : ℕ} {rs : List Receipt} :
    verifyFrom isPrint prev i rs = .ok () ↔ receiptChain.Linked prev rs := by
  induction rs generalizing prev i with
  | nil => exact iff_of_true rfl trivial
  | cons r rs ih =>
    show (if r.prev ≠ prev then _ else
      if hexEncode (Sha256.sum256 r.payload) ≠ r.hash then _ else
        verifyFrom isPrint r.hash (i + 1) rs) = _ ↔
      r.prev = prev ∧ hexEncode (Sha256.sum256 r.payload) = r.hash ∧
        receiptChain.Linked r.hash rs
    by_cases hprev : r.prev = prev
    · rw [if_neg (not_not.2 hprev)]
      by_cases hhash : hexEncode (Sha256.sum256 r.payload) = r.hash
      · rw [if_neg (not_not.2 hhash), ih]
        simp [hprev, hhash]
      · rw [if_pos hhash]
        simp [hhash]
    · rw [if_pos hprev]
      simp [hprev]

/-- The invariant of a log that only `append` writes to. -/
structure Chained (rl : ReceiptLog) : Prop where
  /-- The receipts are linked from the empty root. -/
  linked : receiptChain.Linked [] rl.all
  /-- `last` is what the next receipt has to name. -/
  last : rl.last = receiptChain.tip [] rl.all
  /-- Receipts are numbered by their place. -/
  seq : ∀ (i : ℕ) (h : i < rl.all.length), rl.all[i].seq = i

theorem chained_empty : Chained empty :=
  ⟨trivial, rfl, fun _ h ↦ absurd h (Nat.not_lt_zero _)⟩

section Append

variable (rl : ReceiptLog) (now : Time) (subject space : GoString) (op : Op)
  (path verdict : GoString)

theorem all_append : (rl.append now subject space op path verdict).2.all =
    rl.all ++ [(rl.append now subject space op path verdict).1] := rfl

variable {rl}

/-- **`append` keeps the invariant.** -/
theorem Chained.append (h : rl.Chained) :
    (rl.append now subject space op path verdict).2.Chained := by
  refine ⟨?_, ?_, ?_⟩
  · rw [all_append, HashChain.linked_concat]
    exact ⟨h.linked, h.last, rfl⟩
  · rw [all_append, HashChain.tip_concat]
    rfl
  · rw [all_append]
    intro i hi
    rw [List.getElem_append]
    split
    · rename_i hlt
      exact h.seq i hlt
    · rename_i hge
      rw [List.length_append, List.length_singleton] at hi
      rw [List.getElem_singleton]
      show rl.all.length = i
      omega

end Append

/-- An accepted log is linked from the empty root. -/
theorem verify_eq_ok_iff {isPrint : ℕ → Bool} {rl : ReceiptLog} :
    rl.verify isPrint = .ok () ↔ receiptChain.Linked [] rl.all :=
  verifyFrom_eq_ok_iff

/-- The last hash of a non-empty list of receipts is its tip. -/
theorem tip_eq_hash_getLast {rs : List Receipt} (h : rs ≠ []) :
    receiptChain.tip [] rs = (rs.getLast h).hash := by
  rw [HashChain.tip_eq_getLast?, List.getLast?_eq_some_getLast h]
  rfl

/-- **The final hash commits to the whole history.** Two non-empty logs that `Verify` accepts and
whose last receipts have the same hash record the same history: they are equally long and agree at
every index on the payload, and so on number, predecessor, formatted time and hash. The receipts
are arbitrary, and the digest is only asked not to collide on the payloads that occur. -/
theorem final_hash_commits {isPrint : ℕ → Bool} {a b : ReceiptLog} (ha : a.entries ≠ [])
    (hb : b.entries ≠ []) (hva : a.verify isPrint = .ok ()) (hvb : b.verify isPrint = .ok ())
    (hlast : (a.entries.getLast ha).hash = (b.entries.getLast hb).hash)
    (hinj : Set.InjOn Sha256.sum256
      {p | p ∈ a.entries.map Receipt.payload ∨ p ∈ b.entries.map Receipt.payload}) :
    a.entries.length = b.entries.length ∧
      ∀ (i : ℕ) (hi : i < a.entries.length) (hj : i < b.entries.length),
        a.entries[i].payload = b.entries[i].payload ∧ a.entries[i].seq = b.entries[i].seq ∧
        a.entries[i].prev = b.entries[i].prev ∧
        a.entries[i].ts.formatRFC3339 true = b.entries[i].ts.formatRFC3339 true ∧
        a.entries[i].hash = b.entries[i].hash := by
  have hla := verify_eq_ok_iff.1 hva
  have hlb := verify_eq_ok_iff.1 hvb
  have htip : receiptChain.tip [] a.all = receiptChain.tip [] b.all :=
    (tip_eq_hash_getLast ha).trans (hlast.trans (tip_eq_hash_getLast hb).symm)
  have hpay : List.Forall₂ (fun x y ↦ x.payload = y.payload) a.all b.all :=
    hla.forall₂_payload hlb htip digest_ne_root (fun _ _ hx hy h ↦ (payload_inj hx hy h).2.1)
      (hexEncode_injective.comp_injOn hinj)
  refine ⟨hpay.length_eq, fun i hi hj ↦ ?_⟩
  have hi' : a.all[i].payload = b.all[i].payload := hpay.get hi hj
  have hsa := hla.stem_prev hi
  have hsb := hlb.stem_prev hj
  obtain ⟨hseq, hprev, hts⟩ := payload_inj hsa hsb hi'
  refine ⟨hi', hseq, hprev, hts, ?_⟩
  exact (hla.hash_getElem hi).symm.trans
    ((congrArg receiptChain.digest hi').trans (hlb.hash_getElem hj))

/-- A reading and a writing, under a subject and a space that are free to contain a separator. -/
def readAndWrite (subject space : GoString) : ReceiptLog :=
  let read :=
    (empty.append Time.zero subject space opRead (ascii "/".toList) (ascii "allow".toList)).2
  (read.append Time.zero subject space opWrite (ascii "/f".toList) (ascii "allow".toList)).2

/-- Two different logs with one final hash: a separator moved from the subject to the space. They
agree on all the payloads determine. -/
theorem final_hash_commits_readAndWrite :
    let a := readAndWrite (ascii "a|b".toList) (ascii "c".toList)
    let b := readAndWrite (ascii "a".toList) (ascii "b|c".toList)
    a ≠ b ∧ a.entries.length = 2 ∧ a.entries.length = b.entries.length ∧
      ∀ (i : ℕ) (_ : i < a.entries.length) (hj : i < b.entries.length),
        a.entries[i].payload = b.entries[i].payload ∧ a.entries[i].seq = b.entries[i].seq ∧
        a.entries[i].prev = b.entries[i].prev ∧
        a.entries[i].ts.formatRFC3339 true = b.entries[i].ts.formatRFC3339 true ∧
        a.entries[i].hash = b.entries[i].hash := by
  refine ⟨by decide +kernel, rfl, ?_⟩
  refine @final_hash_commits (fun _ ↦ false) _ _ (by decide) (by decide) (by decide +kernel)
    (by decide +kernel) (by decide +kernel) ?_
  -- The two payloads of the one log are those of the other, and have different digests.
  have hmap : (readAndWrite (ascii "a".toList) (ascii "b|c".toList)).entries.map Receipt.payload =
      (readAndWrite (ascii "a|b".toList) (ascii "c".toList)).entries.map Receipt.payload := by
    decide +kernel
  have hnodup : (((readAndWrite (ascii "a|b".toList) (ascii "c".toList)).entries.map
      Receipt.payload).map Sha256.sum256).Nodup := by
    decide +kernel
  rw [hmap]
  intro p hp q hq hpq
  exact List.inj_on_of_nodup_map hnodup (or_self_iff.1 hp) (or_self_iff.1 hq) hpq

end ReceiptLog

end SourceOS.Mount
