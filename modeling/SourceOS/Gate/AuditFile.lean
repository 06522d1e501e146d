import Mathlib.Logic.Function.Basic
import SourceOS.Foundation.SortedKeys
import SourceOS.Foundation.Strftime
import SourceOS.Foundation.TornLog
import SourceOS.Gate.Egress

/-!
# The files of the audit log

`AuditLog` of `audit.py`: a record becomes a line of JSON at the end of the file of its stream and
of the day. The clock is read twice, once for the day and once for the time of the record, and
writing may break off at any byte.

* **What can be read back** (`audit_file_reads_back`). The lines of a file are the records whose
  line was written whole, one for one and in order. A line reads back as its record unless it stands
  behind a torn one, and a torn line spoils one line at the most.
* **Rotation** (`audit_trail_reads_back`). While the clock does not go back, the files of a stream
  in the order of their names are one log, and this log is the audit log of `World`, record by
  record: `Egress` keeps as a list what is on the disk as text.
-/

namespace SourceOS.Gate

open Text Json LineReader TornLog

/-! ### `append` -/

/-- The place of an audit file, `root / "audit" / "events" / day / f"{stream}.ndjson"`. -/
structure AuditPath where
  day : Str
  stream : String
deriving DecidableEq

/-- How writing a line goes. -/
inductive Write
  /-- The line is written. -/
  | done
  /-- The directory cannot be made, or the file not be opened. -/
  | refused (e : BuiltinError)
  /-- So many bytes are written, and then it raises. -/
  | cut (n : ℕ) (e : BuiltinError)

/-- One call of `AuditLog.append`, with its two readings of the clock. -/
structure AppendCall where
  stream : String
  record : List (PyStr × Json PyChar)
  /-- The record is a dictionary of strings, integers, booleans, lists and dictionaries. -/
  plain : Plain (.obj record)
  /-- Its strings are in normal form, as all that come from a request are. -/
  tidy : Tidy (.obj record)
  /-- `now_iso_utc()` in `path_for`. -/
  pathNow : StructTime
  /-- `now_iso_utc()` in `append`. -/
  now : StructTime
  write : Write

/-- `"\n"`. -/
def lineFeed : UInt8 := 10

namespace AppendCall

variable (c : AppendCall)

/-- `path_for`. -/
def path : AuditPath :=
  ⟨c.pathNow.date, c.stream⟩

/-- `rec`, after `rec.setdefault("ts", now_iso_utc())`. -/
def entry : Json PyChar :=
  .obj (if PyStr.lit "ts" ∈ c.record.map Prod.fst then c.record
    else c.record ++ [(PyStr.lit "ts", .str c.now.isoformat)])

/-- `json.dumps(rec, sort_keys=True)`, encoded. -/
def line : List UInt8 :=
  utf8 (dumps (sortKeys c.entry))

/-- What the call writes of `line + "\n"`. -/
def written : List UInt8 :=
  match c.write with
  | .done => c.line ++ [lineFeed]
  | .refused _ => []
  | .cut n _ => (c.line ++ [lineFeed]).take n

/-- The exception, if the call raises. -/
def raises : Fault :=
  match c.write with
  | .done => none
  | .refused e | .cut _ e => some e

/-- The line is written whole. -/
def isWhole : Bool :=
  match c.write with
  | .done => true
  | .refused _ => false
  | .cut n _ => c.line.length < n

/-- What is written breaks off inside the line. -/
def tears : Bool :=
  !c.isWhole && !c.written.isEmpty

end AppendCall

/-- The audit files. -/
abbrev AuditFiles := AuditPath → Option (List UInt8)

namespace AuditFiles

/-- No audit file. -/
def empty : AuditFiles := fun _ ↦ none

/-- What a file holds. -/
def content (files : AuditFiles) (p : AuditPath) : List UInt8 :=
  (files p).getD []

/-- Bytes are added at the end of a file, which is made if it is not there. -/
def extend (files : AuditFiles) (p : AuditPath) (bytes : List UInt8) : AuditFiles :=
  Function.update files p (some (files.content p ++ bytes))

theorem content_extend (files : AuditFiles) (p q : AuditPath) (bytes : List UInt8) :
    (files.extend p bytes).content q = files.content q ++ if p = q then bytes else [] := by
  rw [content, extend]
  rcases eq_or_ne p q with rfl | hne
  · rw [Function.update_self, if_pos rfl]
    rfl
  · rw [Function.update_of_ne hne.symm, if_neg hne, List.append_nil]
    rfl

end AuditFiles

/-- `append`, one call after the other, by any number of processes. -/
def auditLog : Machine AuditFiles AppendCall Fault where
  step files c :=
    match c.write with
    | .refused _ => (files, c.raises)
    | .done | .cut _ _ => (files.extend c.path c.written, c.raises)

/-- What a line of a file reads as, by a reader without limits. -/
def readLine (py : Runtime) (l : List UInt8) : Option (Json PyChar) :=
  loads py.readFloat (decodeReplace l)

/-! ### One line -/

namespace AppendCall

variable (c : AppendCall)

theorem plain_entry : Plain c.entry := by
  rw [entry]
  split
  · exact c.plain
  · rename_i hts
    obtain ⟨hnodup, hmembers⟩ : (c.record.map Prod.fst).Nodup ∧ PlainMembers c.record := c.plain
    refine ⟨?_, plainMembers_iff.2 fun m hm ↦ ?_⟩
    · rw [List.map_append, List.nodup_append]
      refine ⟨hnodup, List.nodup_singleton _, fun a ha b hb hab ↦ hts ?_⟩
      rw [hab, List.mem_singleton.1 hb] at ha
      exact ha
    · rcases List.mem_append.1 hm with hm | hm
      · exact plainMembers_iff.1 hmembers m hm
      · rw [List.mem_singleton.1 hm]
        trivial

theorem tidy_entry : Tidy c.entry := by
  rw [entry]
  split
  · exact c.tidy
  · rename_i hts
    obtain ⟨hnodup, hmembers⟩ : (c.record.map Prod.fst).Nodup ∧ TidyMembers c.record := c.tidy
    have hentry := c.plain_entry
    rw [entry, if_neg hts] at hentry
    refine ⟨hentry.1, tidyMembers_iff.2 fun m hm ↦ ?_⟩
    rcases List.mem_append.1 hm with hm | hm
    · exact tidyMembers_iff.1 hmembers m hm
    · rw [List.mem_singleton.1 hm]
      exact ⟨PyStr.normal_ofStr _, PyStr.normal_ofStr _⟩

theorem lineFeed_notMem_line : lineFeed ∉ c.line :=
  newline_notMem_utf8 (printable_dumps _)

/-- **A line reads back as its record**, with the keys in order. -/
theorem readLine_line (py : Runtime) :
    readLine py (c.line ++ [lineFeed]) = some (sortKeys c.entry) := by
  have hbytes : c.line ++ [lineFeed] = utf8 (dumps (sortKeys c.entry) ++ ['\n']) := by
    rw [utf8, List.flatMap_append]
    rfl
  have hnormal : normal (sortKeys c.entry) = sortKeys c.entry :=
    normal_of_tidy (tidy_sortKeys c.tidy_entry)
  have hread := @read_dumps_append _ _ _ ⟨py.readFloat, none, none⟩ (sortKeys c.entry)
    (hnormal.symm ▸ plain_sortKeys c.plain_entry) (fits_unlimited py.readFloat 0 _) ['\n']
    (List.forall_mem_singleton.2 rfl)
  rw [readLine, hbytes, decodeReplace_utf8]
  rwa [hnormal] at hread

/-- What the call writes, as a piece of the file. -/
def piece : Piece UInt8 :=
  if c.isWhole then .whole c.line else .torn c.written

theorem bytes_piece : c.piece.bytes lineFeed = c.written := by
  rw [piece]
  split
  · rename_i hwhole
    rw [isWhole] at hwhole
    rw [written]
    split at hwhole
    · rfl
    · exact absurd hwhole (by simp)
    · rw [List.take_of_length_le]
      · rfl
      · have := of_decide_eq_true hwhole
        rw [List.length_append, List.length_singleton]
        omega
  · rfl

theorem lineFeed_notMem_piece : lineFeed ∉ c.piece.text := by
  rw [piece]
  split
  · exact c.lineFeed_notMem_line
  · rename_i hwhole
    rw [isWhole] at hwhole
    rw [Piece.text, written]
    split at hwhole
    · exact absurd rfl hwhole
    · exact List.not_mem_nil
    · rename_i n e hwrite
      have hle : n ≤ c.line.length := by simpa using hwhole
      rw [List.take_append_of_le_length hle]
      exact fun hmem ↦ c.lineFeed_notMem_line (List.mem_of_mem_take hmem)

theorem isTorn_piece : c.piece.isTorn = c.tears := by
  rw [piece, tears]
  rcases c.isWhole with _ | _ <;> rfl

end AppendCall

/-! ### One file -/

/-- **What a file holds** is what was written to it, in order. -/
theorem content_after (files : AuditFiles) (calls : List AppendCall) (p : AuditPath) :
    (auditLog.after files calls).content p =
      files.content p ++ (calls.filter fun c ↦ c.path = p).flatMap AppendCall.written := by
  induction calls generalizing files with
  | nil => rw [Machine.after_nil, List.filter_nil, List.flatMap_nil, List.append_nil]
  | cons c calls ih =>
    have hstep : (auditLog.step files c).1.content p =
        files.content p ++ if c.path = p then c.written else [] := by
      rcases hwrite : c.write with _ | e | ⟨n, e⟩
      · simp only [auditLog, hwrite, AuditFiles.content_extend]
      · simp [auditLog, hwrite, AppendCall.written]
      · simp only [auditLog, hwrite, AuditFiles.content_extend]
    rw [Machine.after_cons, ih, hstep, List.append_assoc]
    by_cases hp : c.path = p
    · rw [if_pos hp, List.filter_cons_of_pos (by simpa using hp), List.flatMap_cons]
    · rw [if_neg hp, List.filter_cons_of_neg (by simpa using hp), List.nil_append]

/-- The whole lines among the pieces that calls leave. -/
private theorem map_snd_pieces (calls : List AppendCall) :
    (mergedLines [] (calls.map AppendCall.piece)).map Prod.snd =
      (calls.filter AppendCall.isWhole).map AppendCall.line := by
  rw [map_snd_mergedLines, List.filterMap_map, ← List.filterMap_eq_map, List.filterMap_filter]
  refine List.filterMap_congr fun c _ ↦ ?_
  rw [Function.comp_apply, AppendCall.piece]
  rcases c.isWhole with _ | _ <;> rfl

/-- Pairs whose second components are known otherwise. -/
private theorem map_zip_fst {α β γ δ : Type*} (f : α → β → δ) (g : γ → β) :
    ∀ {ms : List (α × β)} {cs : List γ}, ms.map Prod.snd = cs.map g →
      ((ms.map Prod.fst).zip cs).map (fun x ↦ f x.1 (g x.2)) = ms.map fun m ↦ f m.1 m.2
  | [], [], _ => rfl
  | [], _ :: _, h => nomatch h
  | _ :: _, [], h => nomatch h
  | m :: ms, c :: cs, h => by
    obtain ⟨hhead, htail⟩ := List.cons.inj h
    rw [List.map_cons, List.zip_cons_cons, List.map_cons, map_zip_fst f g htail, List.map_cons,
      hhead]

/-- **What can be read back of an audit file.** After any run of appends, its lines are the records
whose line was written whole, one for one and in order, each behind what was torn before it. A line
with nothing torn before it reads back as its record; each torn line spoils one line at the most;
and what is in the file stays there. -/
theorem audit_file_reads_back (py : Runtime) (calls : List AppendCall) (p : AuditPath) :
    (∃ ls : List (List UInt8 × AppendCall),
      lines lineFeed ((auditLog.after .empty calls).content p) =
          ls.map (fun l ↦ l.1 ++ l.2.line ++ [lineFeed]) ∧
        ls.map Prod.snd = calls.filter (fun c ↦ c.path = p && c.isWhole) ∧
        (∀ l ∈ ls, l.1 = [] →
          readLine py (l.1 ++ l.2.line ++ [lineFeed]) = some (sortKeys l.2.entry)) ∧
        ls.countP (fun l ↦ !l.1.isEmpty) ≤ calls.countP fun c ↦ c.path = p && c.tears) ∧
      ∀ more, (auditLog.after .empty calls).content p <+:
        (auditLog.after .empty (calls ++ more)).content p := by
  set here := calls.filter fun c ↦ c.path = p
  set merged := mergedLines [] (here.map AppendCall.piece)
  have hcontent : (auditLog.after .empty calls).content p =
      [] ++ (here.map AppendCall.piece).flatMap (Piece.bytes lineFeed) := by
    rw [content_after, List.flatMap_map]
    exact congrArg _ (List.flatMap_congr fun c _ ↦ c.bytes_piece.symm)
  have hlines := @lines_flatMap_bytes _ _ lineFeed (here.map AppendCall.piece) (fun q hq ↦ by
      obtain ⟨c, -, rfl⟩ := List.mem_map.1 hq
      exact c.lineFeed_notMem_piece) [] List.not_mem_nil
  have hwhole : calls.filter (fun c ↦ c.path = p && c.isWhole) =
      here.filter AppendCall.isWhole := by
    rw [List.filter_filter]
    exact List.filter_congr fun c _ ↦ Bool.and_comm ..
  have hsnd : merged.map Prod.snd = (here.filter AppendCall.isWhole).map AppendCall.line :=
    map_snd_pieces here
  have hlen : (merged.map Prod.fst).length = (here.filter AppendCall.isWhole).length := by
    rw [List.length_map, ← List.length_map (f := Prod.snd), hsnd, List.length_map]
  refine ⟨⟨(merged.map Prod.fst).zip (here.filter AppendCall.isWhole), ?_, ?_, ?_, ?_⟩, ?_⟩
  · rw [hcontent, hlines, map_zip_fst (fun t b ↦ t ++ b ++ [lineFeed]) AppendCall.line hsnd]
  · rw [hwhole, List.map_snd_zip hlen.symm.le]
  · rintro ⟨t, c⟩ - rfl
    exact c.readLine_line py
  · -- what was torn is counted among the pieces
    have hcount := countP_spoilt_le (here.map AppendCall.piece) []
    have hfst : ((merged.map Prod.fst).zip (here.filter AppendCall.isWhole)).countP
        (fun l ↦ !l.1.isEmpty) = merged.countP fun l ↦ !l.1.isEmpty := by
      have h := List.map_fst_zip hlen.le
      calc _ = (((merged.map Prod.fst).zip (here.filter AppendCall.isWhole)).map Prod.fst).countP
              (fun t ↦ !t.isEmpty) := by rw [List.countP_map]; rfl
        _ = _ := by rw [h, List.countP_map]; rfl
    rw [hfst]
    refine hcount.trans (le_of_eq ?_)
    rw [List.isEmpty_nil, if_pos rfl, Nat.zero_add, List.countP_map, List.countP_filter]
    refine List.countP_congr fun c _ ↦ ?_
    rw [Function.comp_apply, c.isTorn_piece, Bool.and_comm]
  · intro more
    rw [content_after, content_after, List.filter_append, List.flatMap_append, ← List.append_assoc]
    exact List.prefix_append _ _

/-! ### The files of a stream, and the audit log of the world -/

/-- The call, as the world sees it. -/
def AppendCall.auditEnv (c : AppendCall) : AuditEnv :=
  ⟨c.now.isoformat, c.raises⟩

/-- The same calls on the world. -/
def World.afterAppends {κ : Type} (w : World κ) (calls : List AppendCall) : World κ :=
  calls.foldl (fun w c ↦ ((auditAppend c.auditEnv c.stream c.record).run w).2) w

/-- What a call puts on the audit log of the world. -/
def AppendCall.logged (c : AppendCall) : Str × Json PyChar :=
  (c.stream.toList, .obj (c.record ++ [(PyStr.lit "ts", .str c.now.isoformat)]))

/-- The audit log of the world has the calls that do not raise. -/
theorem audit_afterAppends {κ : Type} (w : World κ) (calls : List AppendCall) :
    (w.afterAppends calls).audit =
      w.audit ++ (calls.filter fun c ↦ c.raises.isNone).map AppendCall.logged := by
  induction calls generalizing w with
  | nil => rw [World.afterAppends, List.foldl_nil, List.filter_nil, List.map_nil, List.append_nil]
  | cons c calls ih =>
    have hstep : (((auditAppend c.auditEnv c.stream c.record).run w).2).audit =
        w.audit ++ if c.raises.isNone then [c.logged] else [] := by
      unfold Effect.run auditAppend
      rcases hraises : c.raises with _ | e
      · simp [AppendCall.auditEnv, hraises, Fault.check, AppendCall.logged]
      · simp [AppendCall.auditEnv, hraises, Fault.check]
    rw [World.afterAppends, List.foldl_cons]
    refine (ih _).trans ?_
    rw [hstep, List.append_assoc]
    rcases hraises : c.raises.isNone with _ | _
    · rw [List.filter_cons_of_neg (by simp [hraises]), if_neg Bool.false_ne_true, List.nil_append]
    · rw [List.filter_cons_of_pos (by simpa using hraises), if_pos rfl, List.map_cons,
        List.singleton_append]

/-- What is written where no write breaks off. -/
theorem flatMap_written {calls : List AppendCall}
    (hwrite : ∀ c ∈ calls, ∀ n e, c.write ≠ .cut n e) :
    calls.flatMap AppendCall.written =
      ((calls.filter fun c ↦ c.raises.isNone).map fun c ↦ c.line ++ [lineFeed]).flatten := by
  induction calls with
  | nil => rfl
  | cons c calls ih =>
    rw [List.flatMap_cons, ih fun d hd ↦ hwrite d (List.mem_cons_of_mem _ hd)]
    rcases hw : c.write with _ | e | ⟨n, e⟩
    · rw [List.filter_cons_of_pos (by simp [AppendCall.raises, hw]), AppendCall.written, hw,
        List.map_cons, List.flatten_cons]
    · rw [List.filter_cons_of_neg (by simp [AppendCall.raises, hw]), AppendCall.written, hw,
        List.nil_append]
    · exact absurd hw (hwrite c List.mem_cons_self n e)

/-- **Rotation.** While the clock does not go back between the calls, and no write breaks off, the
files of a stream, in the order of their days, are one log: it reads back, line by line, as the
records of that stream on the audit log of the world after the same calls. -/
theorem audit_trail_reads_back (py : Runtime) {κ : Type} (w : World κ) (calls : List AppendCall)
    (stream : String) (days : List Str)
    (hclock : calls.Pairwise fun c d ↦ ¬ d.pathNow < c.pathNow)
    (hwrite : ∀ c ∈ calls, ∀ n e, c.write ≠ .cut n e)
    (hts : ∀ c ∈ calls, PyStr.lit "ts" ∉ c.record.map Prod.fst)
    (hdays : days.Pairwise (· < ·)) (hcover : ∀ c ∈ calls, c.pathNow.date ∈ days) :
    (lines lineFeed
        (days.flatMap fun day ↦ (auditLog.after .empty calls).content ⟨day, stream⟩)).map
        (readLine py) =
      (((({ w with audit := [] } : World κ).afterAppends calls).audit.filter
        fun e ↦ e.1 = stream.toList).map fun e ↦ some (sortKeys e.2)) := by
  set ofStream := calls.filter fun c ↦ c.stream = stream
  have hsub : ∀ c ∈ ofStream, c ∈ calls := fun c hc ↦ List.mem_of_mem_filter hc
  -- a file has the calls of its day
  have hfile : ∀ day, (auditLog.after .empty calls).content ⟨day, stream⟩ =
      (ofStream.filter fun c ↦ c.pathNow.date = day).flatMap AppendCall.written := by
    intro day
    rw [content_after, List.filter_filter]
    refine congrArg (List.flatMap AppendCall.written) (List.filter_congr fun c _ ↦ ?_)
    simp [AppendCall.path]
  -- and the days are the whole stream
  have hall : (days.flatMap fun day ↦ (auditLog.after .empty calls).content ⟨day, stream⟩) =
      ofStream.flatMap AppendCall.written := by
    have hrank : days.flatMap (fun day ↦ ofStream.filter fun c ↦ c.pathNow.date = day) = ofStream :=
      flatMap_filter_rank (fun c : AppendCall ↦ c.pathNow.date) hdays
        ((hclock.filter _).imp StructTime.date_le_date) fun c hc ↦ hcover c (hsub c hc)
    calc _ = days.flatMap fun day ↦
            (ofStream.filter fun c ↦ c.pathNow.date = day).flatMap AppendCall.written :=
          List.flatMap_congr fun day _ ↦ hfile day
      _ = (days.flatMap fun day ↦ ofStream.filter fun c ↦ c.pathNow.date = day).flatMap
            AppendCall.written := List.flatMap_assoc.symm
      _ = _ := by rw [hrank]
  have hlogged : ∀ c ∈ ofStream,
      readLine py (c.line ++ [lineFeed]) = some (sortKeys c.logged.2) := by
    intro c hc
    rw [c.readLine_line, AppendCall.entry, if_neg (hts c (hsub c hc))]
    rfl
  have hsplit := @lines_flatten_append _ _ lineFeed
    ((ofStream.filter fun c ↦ c.raises.isNone).map fun c ↦ c.line ++ [lineFeed])
    (fun l hl ↦ by
      obtain ⟨c, -, rfl⟩ := List.mem_map.1 hl
      exact ⟨c.line, c.lineFeed_notMem_line, rfl⟩) []
  rw [List.append_nil] at hsplit
  have hstream : ((({ w with audit := [] } : World κ).afterAppends calls).audit.filter
      fun e ↦ e.1 = stream.toList) =
        (ofStream.filter fun c ↦ c.raises.isNone).map AppendCall.logged := by
    rw [audit_afterAppends, List.nil_append, List.filter_map, List.filter_filter,
      List.filter_filter]
    refine congrArg _ (List.filter_congr fun c _ ↦ ?_)
    simp [AppendCall.logged, String.toList_inj, Bool.and_comm]
  rw [hall, flatMap_written fun c hc ↦ hwrite c (hsub c hc), hsplit, hstream, List.map_append,
    List.map_map, List.map_map]
  refine (List.append_nil _).trans (List.map_congr_left fun c hc ↦ ?_)
  exact hlogged c (List.mem_of_mem_filter hc)

/-- The append of an action. -/
private def appendAt (action : String) (pathNow now : StructTime) : AppendCall where
  stream := "gate.egress"
  record := [("action".toList, .str action.toList)]
  plain := ⟨List.nodup_singleton _, trivial, trivial⟩
  tidy := ⟨List.nodup_singleton _, PyStr.normal_ofStr _, PyStr.normal_ofStr _, trivial⟩
  pathNow := pathNow
  now := now
  write := .done

/-- Just before midnight. -/
private def beforeMidnight : StructTime :=
  ⟨2023, 2, 11, 23, 59, 59, by decide, by decide, by decide, by decide, by decide, by decide⟩

/-- The midnight after it. -/
private def nextMidnight : StructTime :=
  .midnight 2023 2 12 (by decide) (by decide) (by decide)

/-- Midnight passes between the two readings of the clock: the first record is in the file of its
day, and its time is of the next day. -/
theorem audit_trail_around_midnight :
    (lines lineFeed (["2023-02-11".toList, "2023-02-12".toList].flatMap fun day ↦
        (auditLog.after .empty [appendAt "apply" beforeMidnight nextMidnight,
          appendAt "verify" nextMidnight nextMidnight]).content ⟨day, "gate.egress"⟩)).map
        (readLine .ascii) =
      [some (.obj [("action".toList, .str "apply".toList),
          ("ts".toList, .str "2023-02-12T00:00:00Z".toList)]),
        some (.obj [("action".toList, .str "verify".toList),
          ("ts".toList, .str "2023-02-12T00:00:00Z".toList)])] :=
  (audit_trail_reads_back .ascii ⟨Db.empty, (), []⟩ _ "gate.egress" _ (by decide)
    (by simp [appendAt]) (by decide) (by decide) (by decide)).trans rfl

end SourceOS.Gate
