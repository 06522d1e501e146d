import Mathlib.Data.List.Perm.Subperm
import SourceOS.Mount.MountRun

/-!
# What tampering with a receipt log leaves visible

`Verify` against someone who edits the receipts of a log that a mounted file system has written, and
leaves its `last` as it is.

* **Receipts left out or reordered** (`altered_log_detected_iff`). The links catch everything except
  the loss of an end: an initial segment of the log is a chain like any other, and `Verify` does not
  compare the last hash with `last`.
* **Fields rewritten** (`field_change_detected_iff`). The digest is taken of the fields joined with
  `|`, nothing being escaped. A rewriting that keeps the joined text — a separator moved from one
  field into its neighbour — keeps the digest, and every other one is caught.
-/

namespace SourceOS.Mount

open Go

/-- The log after a run on a new mount. -/
def reachedLog (isPrint : ℕ → Bool) (B : Billy) (tree : B.Tree) (fs : B.Fs) (space : GoString)
    (lease : Option Lease) (calls : List Call) : ReceiptLog :=
  ((mount isPrint B).after (World.mounted tree fs space lease) calls).seam.receipts

theorem chained_reachedLog (isPrint : ℕ → Bool) (B : Billy) (tree : B.Tree) (fs : B.Fs)
    (space : GoString) (lease : Option Lease) (calls : List Call) :
    (reachedLog isPrint B tree fs space lease calls).Chained :=
  (grows_after _ calls).1 ReceiptLog.chained_empty

/-! ### Receipts left out or reordered -/

/-- In a chained log whose payloads do not collide, no tip recurs: a tip is the digest of a payload
that carries the number of its receipt. -/
theorem ReceiptLog.Chained.tip_inj {log : ReceiptLog} (h : log.Chained)
    (hinj : Set.InjOn Sha256.sum256 {p | p ∈ log.entries.map Receipt.payload}) {i j : ℕ}
    (hi : i ≤ log.all.length) (hj : j ≤ log.all.length)
    (heq : receiptChain.tip [] (log.all.take i) = receiptChain.tip [] (log.all.take j)) :
    i = j := by
  have htip : ∀ {k : ℕ} (hk : k < log.all.length), receiptChain.tip [] (log.all.take (k + 1)) =
      receiptChain.digest log.all[k].payload := by
    intro k hk
    rw [List.take_succ_eq_append_getElem hk, HashChain.tip_concat]
    exact (h.linked.hash_getElem hk).symm
  rcases i with _ | i
  · rcases j with _ | j
    · rfl
    · rw [htip hj] at heq
      exact absurd heq.symm (digest_ne_root _)
  · rcases j with _ | j
    · rw [htip hi] at heq
      exact absurd heq (digest_ne_root _)
    · rw [htip hi, htip hj] at heq
      have hpay : log.all[i].payload = log.all[j].payload :=
        hinj (List.mem_map_of_mem (List.getElem_mem hi)) (List.mem_map_of_mem (List.getElem_mem hj))
          (hexEncode_injective heq)
      have hseq := (payload_inj (h.linked.stem_prev hi) (h.linked.stem_prev hj) hpay).1
      rw [h.seq i hi, h.seq j hj] at hseq
      rw [hseq]

/-- **Lost or reordered receipts.** Of a log that a mounted file system has written, take some of
the receipts in any order. `Verify` returns an error exactly when what is left is not an initial
segment of the log. -/
theorem altered_log_detected_iff (isPrint : ℕ → Bool) (B : Billy) (tree : B.Tree) (fs : B.Fs)
    (space : GoString) (lease : Option Lease) (calls : List Call) {xs : List Receipt}
    (hxs : xs.Subperm (reachedLog isPrint B tree fs space lease calls).entries)
    (hinj : Set.InjOn Sha256.sum256
      {p | p ∈ (reachedLog isPrint B tree fs space lease calls).entries.map Receipt.payload}) :
    (∃ e, ReceiptLog.verify isPrint
      ⟨(reachedLog isPrint B tree fs space lease calls).last, xs⟩ = .error e) ↔
      ¬ xs <+: (reachedLog isPrint B tree fs space lease calls).entries := by
  have hlog := chained_reachedLog isPrint B tree fs space lease calls
  set log := reachedLog isPrint B tree fs space lease calls
  have hok : ReceiptLog.verify isPrint ⟨log.last, xs⟩ = .ok () ↔ xs <+: log.entries := by
    rw [ReceiptLog.verify_eq_ok_iff]
    constructor
    · intro hlinked
      exact hlinked.isPrefix_of_subset hlog.linked (fun x hx ↦ List.Subperm.subset hxs hx)
        fun i j hi hj ↦ hlog.tip_inj hinj hi hj
    · intro hpre
      rw [List.prefix_iff_eq_take.1 hpre]
      exact hlog.linked.take _
  rw [← hok]
  rcases ReceiptLog.verify isPrint ⟨log.last, xs⟩ with e | _
  · simp
  · simp

/-- A viewer reads a file and then tries to write one. -/
def readThenWrite : List Call :=
  [.at 0 (.open' (ascii "f".toList)), .at 0 (.create (ascii "g".toList))]

/-- The log of these two calls. -/
def viewerLog : ReceiptLog :=
  reachedLog (fun _ ↦ false) Memory.memory [([ascii "f".toList], .file [])] []
    (ascii "demo-space".toList) (some viewer) readThenWrite

/-- The first receipt lost: noticed. -/
theorem altered_log_detected_first :
    ∃ e, ReceiptLog.verify (fun _ ↦ false) ⟨viewerLog.last, viewerLog.entries.drop 1⟩ =
      .error e := by
  have hinj : ∀ p ∈ viewerLog.entries.map Receipt.payload,
      ∀ q ∈ viewerLog.entries.map Receipt.payload,
      Sha256.sum256 p = Sha256.sum256 q → p = q := by
    decide +kernel
  refine (altered_log_detected_iff (fun _ ↦ false) Memory.memory _ _ _ _ _
    (List.drop_sublist 1 viewerLog.entries).subperm
    fun p hp q hq h ↦ hinj p hp q hq h).2 ?_
  decide +kernel

/-- **The last receipt lost: not noticed.** What has gone is the refused attempt to write. -/
theorem lost_tail_unnoticed :
    viewerLog.entries.take 1 ≠ viewerLog.entries ∧
      (viewerLog.entries.take 1).Sublist viewerLog.entries ∧
      ReceiptLog.verify (fun _ ↦ false) ⟨viewerLog.last, viewerLog.entries.take 1⟩ = .ok () :=
  ⟨by decide +kernel, List.take_sublist _ _, by decide +kernel⟩

/-! ### Fields rewritten -/

/-- The free fields of a receipt, joined with the separator. -/
def Receipt.fields (r : Receipt) : GoString :=
  r.subject ++ bar :: (r.space ++ bar :: (r.op ++ bar :: (r.path ++ bar :: r.verdict)))

/-- Receipts with the same number, predecessor and time have one payload exactly when their other
fields join to one text. -/
theorem payload_eq_iff {r s : Receipt} (hseq : r.seq = s.seq) (hprev : r.prev = s.prev)
    (hts : r.ts = s.ts) : r.payload = s.payload ↔ r.fields = s.fields := by
  show formatUint r.seq ++ bar :: (r.prev ++ bar :: (r.ts.formatRFC3339 true ++
      bar :: r.fields)) =
    formatUint s.seq ++ bar :: (s.prev ++ bar :: (s.ts.formatRFC3339 true ++ bar :: s.fields)) ↔ _
  rw [hseq, hprev, hts]
  simp

/-- **A receipt's hash binds the joined text of its fields.** In a log that a mounted file system
has written, give one receipt another subject, space, class of access, path and verdict, and keep
its number, predecessor, time and hash. `Verify` returns an error exactly when the new five fields,
joined with `|`, are not the text that the old five were. -/
theorem field_change_detected_iff (isPrint : ℕ → Bool) (B : Billy) (tree : B.Tree) (fs : B.Fs)
    (space : GoString) (lease : Option Lease) (calls : List Call) {i : ℕ}
    (hi : i < (reachedLog isPrint B tree fs space lease calls).entries.length)
    (subject' space' : GoString) (op' : Op) (path' verdict' : GoString) :
    let log := reachedLog isPrint B tree fs space lease calls
    let r : Receipt := { log.entries[i] with
      subject := subject', space := space', op := op', path := path', verdict := verdict' }
    Set.InjOn Sha256.sum256 {log.entries[i].payload, r.payload} →
      ((∃ e, ReceiptLog.verify isPrint ⟨log.last, log.entries.set i r⟩ = .error e) ↔
        r.fields ≠ log.entries[i].fields) := by
  intro log r hinj
  have hlog : log.Chained := chained_reachedLog isPrint B tree fs space lease calls
  have hok : ReceiptLog.verify isPrint ⟨log.last, log.entries.set i r⟩ = .ok () ↔
      r.fields = log.entries[i].fields := by
    have hset : receiptChain.Linked [] (log.all.set i r) ↔
        receiptChain.digest r.payload = r.hash :=
      HashChain.linked_set hlog.linked hi rfl rfl
    rw [ReceiptLog.verify_eq_ok_iff, ← payload_eq_iff (r := r) (s := log.entries[i]) rfl rfl rfl]
    refine hset.trans ?_
    show hexEncode (Sha256.sum256 r.payload) = log.entries[i].hash ↔ _
    rw [← show hexEncode (Sha256.sum256 log.entries[i].payload) = log.entries[i].hash from
      hlog.linked.hash_getElem hi, hexEncode_injective.eq_iff]
    exact hinj.eq_iff (by simp) (by simp)
  rw [Ne, ← hok]
  rcases ReceiptLog.verify isPrint ⟨log.last, log.entries.set i r⟩ with e | _
  · simp
  · simp

/-- The log of one reading by the subject `a|b` in the space `c`. -/
def barLog : ReceiptLog :=
  reachedLog (fun _ ↦ false) Memory.memory [([ascii "f".toList], .file [])] [] (ascii "c".toList)
    (some (readOnlyLease (ascii "a|b".toList) (ascii "c".toList) []))
    [.at 0 (.open' (ascii "f".toList))]

/-- Another verdict: noticed. -/
theorem field_change_detected_verdict :
    ∃ e, ReceiptLog.verify (fun _ ↦ false) ⟨barLog.last, barLog.entries.set 0
      { barLog.entries.get ⟨0, by decide +kernel⟩ with
        subject := ascii "a|b".toList, space := ascii "c".toList, op := opRead,
        path := ascii "f".toList, verdict := ascii "deny".toList }⟩ = .error e := by
  refine (field_change_detected_iff (fun _ ↦ false) Memory.memory _ _ _ _ _
    (show 0 < barLog.entries.length by decide +kernel) _ _ _ _ _ ?_).2 (by decide +kernel)
  rintro p (rfl | rfl) q (rfl | rfl) h
  · rfl
  · exact absurd h (by decide +kernel)
  · exact absurd h (by decide +kernel)
  · rfl

/-- **A separator moved from the subject to the space: not noticed.** -/
theorem moved_separator_unnoticed :
    let r : Receipt := { barLog.entries.get ⟨0, by decide +kernel⟩ with
      subject := ascii "a".toList, space := ascii "b|c".toList }
    r ≠ barLog.entries.get ⟨0, by decide +kernel⟩ ∧
      ReceiptLog.verify (fun _ ↦ false) ⟨barLog.last, barLog.entries.set 0 r⟩ = .ok () :=
  ⟨by decide +kernel, by decide +kernel⟩

end SourceOS.Mount
