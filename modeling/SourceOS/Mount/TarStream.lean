import SourceOS.Mount.Replicate

/-!
# Receiving any stream

`DevReplicator.Receive` of `backend/replicate.go` on whatever a peer sends. What `tar.Reader` finds
in a stream is whole entries and then an end: `io.EOF`, an error in place of the next header, or a
header whose content breaks off. The names are as they stand in the stream.

* **Where it writes.** `Touched` is what `Receive` creates or truncates: everything it changes
  (`stat_of_not_touched`). A target is the *cleaned* path of destination and name, so a name with
  enough `..` leads out of the destination; `receive_stays_inside_iff` says when everything that is
  touched is inside, exactly.
* **A stream that is cut off.** A reader reports `io.ErrUnexpectedEOF` inside an entry but `io.EOF`
  between two of them, with or without the two blocks that mark the end, and at `io.EOF` `Receive`
  returns nil. So a version that is cut off between its files is received without an error:
  `cut_stream_refused_iff`.
-/

namespace SourceOS.Mount

open Go Filepath Os

/-! ### Streams -/

/-- The errors of `tar.Reader`. -/
inductive ReadErr where
  /-- `io.ErrUnexpectedEOF`. -/
  | unexpectedEOF
  /-- `tar.ErrHeader`, or an error of the reader below. -/
  | other (text : GoString)
deriving DecidableEq

/-- The errors of `Receive`. -/
inductive ReceiveErr where
  /-- Of a call. -/
  | os (err : Errno)
  /-- Of the reader. -/
  | read (err : ReadErr)
deriving DecidableEq

/-- How a stream ends. -/
inductive TarEnd where
  /-- `Next` returns `io.EOF`. -/
  | eof
  /-- `Next` returns another error. -/
  | next (err : ReadErr)
  /-- A header is read, and then reading its content breaks off. -/
  | content (hdr : TarEntry) (err : ReadErr)
deriving DecidableEq

/-- What `tar.Reader` finds in a stream of bytes. -/
structure TarStream where
  /-- The whole entries. -/
  entries : List TarEntry
  /-- The end. -/
  ending : TarEnd
deriving DecidableEq

/-- The entries whose files `Receive` is to make: the whole ones, and one that breaks off. -/
def TarStream.opened (s : TarStream) : List TarEntry :=
  s.entries ++ match s.ending with
    | .content hdr _ => [hdr]
    | _ => []

namespace DevReplicator

/-- The file of an entry, with the directories it is in. -/
def makeEntry (p : Process) (dst : Location) (hdr : TarEntry) : Effect Errno Disk Unit :=
  put p 0o444 (target dst hdr.name) hdr.content

/-- The end of `Receive`. -/
def finish (p : Process) (dst : Location) : TarEnd → Effect ReceiveErr Disk Unit
  | .eof => pure ()
  | .next err => Effect.raise (.read err)
  | .content hdr err =>
    (makeEntry p dst hdr).mapError .os >>= fun _ ↦ Effect.raise (.read err)

/-- `Receive` of any stream. -/
def receiveStream (p : Process) (dst : Location) (s : TarStream) : Effect ReceiveErr Disk Unit :=
  (receive p dst s.entries).mapError .os >>= fun _ ↦ finish p dst s.ending

/-! ### What is touched -/

section Touched

variable (p : Process) (dst : Location)

/-- What is created or truncated for an entry: what is there afterwards and was not before, and the
file of the entry if it was opened. -/
def Touches (hdr : TarEntry) (d : Disk) (y : Location) : Prop :=
  (d.stat y = none ∧ ((makeEntry p dst hdr).run d).2.stat y ≠ none) ∨
    (y = target dst hdr.name ∧ ((makeEntry p dst hdr).run d).1 = .ok ())

/-- What is created or truncated for entries in a row, up to the first that fails. -/
def Touched : List TarEntry → Disk → Location → Prop
  | [], _, _ => False
  | hdr :: es, d, y => Touches p dst hdr d y ∨
      ((makeEntry p dst hdr).run d).1 = .ok () ∧ Touched es ((makeEntry p dst hdr).run d).2 y

variable {p dst} {d : Disk} {hdr : TarEntry}

/-- **What an entry touches**, by what is there before: the directories that can be made on the way
to its target, and the target if it can be opened. -/
theorem touches_iff {y : Location} :
    Touches p dst hdr d y ↔ Makes d (target dst hdr.name).tail y ∨
      (y = target dst hdr.name ∧ Opens p d (target dst hdr.name)) := by
  obtain ⟨r, d', hrun, hok, hthere, hrest⟩ := put_run p 0o444 (target dst hdr.name) hdr.content d
  rw [Touches, makeEntry, hrun]
  constructor
  · rintro (⟨hnone, hsome⟩ | ⟨rfl, rfl⟩)
    · by_contra hneither
      obtain ⟨hmakes, hopens⟩ := not_or.1 hneither
      exact hsome (((hrest y).2 hmakes fun hy h ↦ hopens ⟨hy, h⟩).trans hnone)
    · exact Or.inr ⟨rfl, hok.1 rfl⟩
  · rintro (hmakes | ⟨rfl, hopens⟩)
    · refine Or.inl ⟨hmakes.2.1, ?_⟩
      rw [(hrest y).1 hmakes]
      exact Option.some_ne_none _
    · exact Or.inr ⟨rfl, hok.2 hopens⟩

/-- What an entry does not touch stays as it is. -/
theorem stat_of_not_touches {y : Location} (h : ¬ Touches p dst hdr d y) :
    ((makeEntry p dst hdr).run d).2.stat y = d.stat y := by
  rw [touches_iff, not_or, not_and] at h
  obtain ⟨r, d', hrun, -, -, hrest⟩ := put_run p 0o444 (target dst hdr.name) hdr.content d
  rw [makeEntry, hrun]
  exact (hrest y).2 h.1 h.2

/-- `Receive` of one entry and more. -/
theorem receive_cons (hdr : TarEntry) (es : List TarEntry) :
    receive p dst (hdr :: es) = makeEntry p dst hdr >>= fun _ ↦ receive p dst es := rfl

/-- What entries in a row touch is touched by the first ones or, after these were made, by the
others. -/
theorem touched_append {es fs : List TarEntry} {y : Location} :
    Touched p dst (es ++ fs) d y ↔ Touched p dst es d y ∨
      ∃ e, (receive p dst es).run d = (.ok (), e) ∧ Touched p dst fs e y := by
  induction es generalizing d with
  | nil =>
    refine ⟨fun h ↦ Or.inr ⟨d, rfl, h⟩, ?_⟩
    rintro (h | ⟨e, hrun, h⟩)
    · exact absurd h id
    · obtain rfl : d = e := (Prod.mk.inj hrun).2
      exact h
  | cons hdr es ih =>
    rw [List.cons_append, Touched, Touched, ih, or_assoc, receive_cons]
    refine or_congr_right ?_
    rcases hrun : (makeEntry p dst hdr).run d with ⟨err | ⟨⟩, d₁⟩
    · simp [Effect.run_bind_of_error hrun]
    · simp [Effect.run_bind_of_ok hrun]

/-- What entries in a row do not touch stays as it is. -/
theorem stat_receive_of_not_touched {es : List TarEntry} {y : Location}
    (h : ¬ Touched p dst es d y) : ((receive p dst es).run d).2.stat y = d.stat y := by
  induction es generalizing d with
  | nil => rfl
  | cons hdr es ih =>
    rw [Touched, not_or, not_and] at h
    have hfirst := stat_of_not_touches h.1
    rcases hrun : (makeEntry p dst hdr).run d with ⟨_ | ⟨⟩, d₁⟩
    · rw [receive_cons, Effect.run_bind_of_error hrun]
      rwa [hrun] at hfirst
    · rw [hrun] at h hfirst
      rw [receive_cons, Effect.run_bind_of_ok hrun, ih (h.2 rfl), hfirst]

/-! ### Staying inside -/

/-- No directory is missing on the way to a place that could be made. -/
def Settled (d : Disk) (x : Location) : Prop :=
  ∀ y, ¬ Makes d x y

/-- An entry with this target stays inside the destination: the target is inside and nothing has to
be made above the destination; or it is outside, but cannot be opened, nor has anything to be made
for it. -/
def Confined (p : Process) (d : Disk) (dst x : Location) : Prop :=
  if dst <:+ x then Settled d dst.tail else Settled d x.tail ∧ ¬ Opens p d x

/-- What is above a place is above what is below it. -/
theorem tail_suffix_tail {x y : Location} (h : x <:+ y) : x.tail <:+ y.tail := by
  obtain ⟨s, rfl⟩ := h
  rcases s with _ | ⟨c, s⟩
  · exact List.suffix_refl _
  · exact (List.tail_suffix x).trans (List.suffix_append s x)

/-- **One entry stays inside** exactly if it is confined. -/
theorem touches_inside_iff :
    (∀ y, Touches p dst hdr d y → dst <:+ y) ↔ Confined p d dst (target dst hdr.name) := by
  simp only [touches_iff]
  generalize target dst hdr.name = x
  rw [Confined]
  split
  case isTrue hin =>
    constructor
    · rintro h y ⟨hy, hnone, hroom⟩
      have hyx : y <:+ x.tail := hy.trans (tail_suffix_tail hin)
      have hback := (h y (Or.inl ⟨hyx, hnone, hroom⟩)).length_le.trans hy.length_le
      rw [List.length_tail] at hback
      obtain rfl : dst = [] := List.length_eq_zero_iff.1 (by omega)
      rw [List.suffix_nil.1 hy] at hnone
      exact absurd hnone (by simp)
    · rintro hsettled y (⟨hy, hnone, hroom⟩ | ⟨rfl, -⟩)
      · rcases List.suffix_or_suffix_of_suffix hin (hy.trans (List.tail_suffix x)) with h | h
        · exact h
        · rcases dst with _ | ⟨c, dir⟩
          · exact List.nil_suffix
          · rcases List.suffix_cons_iff.1 h with rfl | h
            · exact List.suffix_refl _
            · exact absurd ⟨h, hnone, hroom⟩ (hsettled y)
      · exact hin
  case isFalse hout =>
    constructor
    · refine fun h ↦ ⟨fun y hmakes ↦ hout ?_, fun hopens ↦ hout (h x (Or.inr ⟨rfl, hopens⟩))⟩
      exact (h y (Or.inl hmakes)).trans (hmakes.1.trans (List.tail_suffix x))
    · rintro ⟨hsettled, hclosed⟩ y (hmakes | ⟨-, hopens⟩)
      · exact absurd hmakes (hsettled y)
      · exact absurd hopens hclosed

/-- Entries in a row stay inside exactly if each that is come to is confined. -/
theorem touched_inside_iff {es : List TarEntry} :
    (∀ y, Touched p dst es d y → dst <:+ y) ↔
      ∀ before hdr rest e, es = before ++ hdr :: rest →
        (receive p dst before).run d = (.ok (), e) → Confined p e dst (target dst hdr.name) := by
  induction es generalizing d with
  | nil =>
    exact iff_of_true (fun y h ↦ absurd h id) fun before hdr rest e h ↦ absurd h (by simp)
  | cons hdr es ih =>
    simp only [Touched, or_imp, forall_and]
    rw [touches_inside_iff]
    constructor
    · rintro ⟨hfirst, hlater⟩ before hdr' rest e heq hrun
      rcases before with _ | ⟨b, before⟩
      · obtain ⟨rfl, -⟩ := List.cons.inj heq
        obtain rfl : d = e := (Prod.mk.inj hrun).2
        exact hfirst
      · obtain ⟨rfl, rfl⟩ := List.cons.inj heq
        rw [receive_cons] at hrun
        obtain ⟨_, d₁, hmake, hrun⟩ := Effect.exists_of_run_bind_ok hrun
        rw [hmake] at hlater
        exact ih.1 (fun y hy ↦ hlater y ⟨rfl, hy⟩) before hdr' rest e rfl hrun
    · intro h
      refine ⟨h [] hdr es d rfl rfl, fun y hy ↦ ?_⟩
      refine ih.2 (fun before hdr' rest e heq hrun ↦ ?_) y hy.2
      refine h (hdr :: before) hdr' rest e (by rw [heq]; rfl) ?_
      rw [receive_cons, Effect.run_bind_of_ok (Effect.run_eq_of_result hy.1)]
      exact hrun

end Touched

variable (p : Process) (dst : Location) (s : TarStream) (d : Disk)

/-- **`Receive` changes nothing but what it touches**, whether it returns or not. -/
theorem stat_of_not_touched {y : Location} (h : ¬ Touched p dst s.opened d y) :
    ((receiveStream p dst s).run d).2.stat y = d.stat y := by
  obtain ⟨es, ending⟩ := s
  rw [TarStream.opened, touched_append, not_or] at h
  have hfirst := stat_receive_of_not_touched h.1
  have hmap := Effect.run_mapError ReceiveErr.os (receive p dst es) d
  rcases hrun : (receive p dst es).run d with ⟨err | ⟨⟩, e⟩
  · rw [hrun] at hmap hfirst
    rw [receiveStream, Effect.run_bind_of_error hmap]
    exact hfirst
  · rw [hrun] at hmap hfirst
    rw [receiveStream, Effect.run_bind_of_ok hmap]
    rcases ending with _ | err | ⟨hdr, err⟩
    · exact hfirst
    · exact hfirst
    · -- The file of the entry that breaks off is made before the error.
      have hlast : ¬ Touches p dst hdr e y := fun hy ↦ h.2 ⟨e, hrun, Or.inl hy⟩
      have hstate : ((finish p dst (.content hdr err)).run e).2 =
          ((makeEntry p dst hdr).run e).2 :=
        @Effect.run_bind_snd _ _ _ _ _ (fun d ↦ d) _ _ (fun _ ↦ Effect.Frames.raise _) e
      rw [hstate]
      exact (stat_of_not_touches hlast).trans hfirst

/-- **Where `Receive` writes.** Everything it creates or truncates is inside the destination exactly
if each entry that it comes to is confined, in the state in which it comes to it. -/
theorem receive_stays_inside_iff :
    (∀ y, Touched p dst s.opened d y → dst <:+ y) ↔
      ∀ before hdr rest e, s.opened = before ++ hdr :: rest →
        (receive p dst before).run d = (.ok (), e) → Confined p e dst (target dst hdr.name) :=
  touched_inside_iff

/-- An entry whose target is inside a destination that is there is confined. -/
theorem confined_of_inside {x : Location} (hdst : d.stat dst = some .dir) (hx : dst <:+ x) :
    Confined p d dst x := by
  rw [Confined, if_pos hx]
  rcases dst with _ | ⟨c, dir⟩
  · exact not_makes_of_stat d.stat_nil
  · exact not_makes_of_stat (Disk.stat_tail hdst).2

variable {p dst s d}

/-- **Names that stay inside suffice**, for a destination that is there. -/
theorem touched_inside_of_names (hdst : d.stat dst = some .dir)
    (hnames : ∀ hdr ∈ s.opened, dst <:+ target dst hdr.name) :
    ∀ y, Touched p dst s.opened d y → dst <:+ y := by
  refine (receive_stays_inside_iff p dst s d).2 fun before hdr rest e heq hrun ↦ ?_
  have hgrows := grows_receive p dst before d
  rw [hrun] at hgrows
  refine confined_of_inside p dst e (hgrows.dir dst hdst) (hnames hdr ?_)
  rw [heq]
  exact List.mem_append_right _ List.mem_cons_self

/-- An entry named `../x`. -/
def escapingEntry : TarEntry :=
  ⟨ascii "../x".toList, 0o644, [0x78]⟩

/-- Received under `n`, the entry makes a file `x` beside it, and `Receive` returns nil. -/
theorem receive_escapes :
    let s : TarStream := ⟨[escapingEntry], .eof⟩
    ((receiveStream sampleProcess (samplePlace "n") s).run sampleNode).1 = .ok () ∧
      Touched sampleProcess (samplePlace "n") s.opened sampleNode (samplePlace "x") ∧
      ¬ samplePlace "n" <:+ samplePlace "x" := by
  intro s
  exact ⟨by decide +kernel, Or.inl (Or.inr (by decide +kernel)), by decide⟩

end DevReplicator

/-! ### Streams that are cut off -/

/-- How long the parts of an archive are. -/
structure TarFormat where
  /-- The header of an entry, in bytes. -/
  headerSize : TarEntry → ℕ
  /-- There is one. -/
  headerSize_pos : ∀ e, 0 < headerSize e
  /-- The padding behind the content. -/
  paddingSize : TarEntry → ℕ
  /-- Whether an input that ends in the padding ends inside the entry; otherwise it ends at its
  boundary. -/
  paddingInside : Bool
  /-- Each of the two blocks that mark the end of the archive. -/
  blockSize : ℕ

namespace TarFormat

variable (F : TarFormat)

/-- The bytes of an entry up to the end of its content. -/
def contentEnd (e : TarEntry) : ℕ :=
  F.headerSize e + e.content.length

/-- The bytes of an entry. -/
def size (e : TarEntry) : ℕ :=
  F.contentEnd e + F.paddingSize e

/-- The bytes of an entry that an input may not end within. -/
def extent (e : TarEntry) : ℕ :=
  if F.paddingInside then F.size e else F.contentEnd e

/-- Where the archive goes on after the entries. -/
def offset (es : List TarEntry) : ℕ :=
  (es.map F.size).sum

/-- **What a reader finds in the first `n` bytes** of the archive of the entries: whole entries, and
then `io.EOF` at a boundary and `io.ErrUnexpectedEOF` inside an entry or inside one of the blocks at
the end. -/
def cut : List TarEntry → ℕ → TarStream
  | [], n =>
    if n = 0 ∨ n = F.blockSize ∨ 2 * F.blockSize ≤ n then ⟨[], .eof⟩
    else ⟨[], .next .unexpectedEOF⟩
  | e :: es, n =>
    if n = 0 then ⟨[], .eof⟩
    else if n < F.headerSize e then ⟨[], .next .unexpectedEOF⟩
    else if n < F.contentEnd e then
      ⟨[], .content { e with content := e.content.take (n - F.headerSize e) } .unexpectedEOF⟩
    else if n < F.extent e then ⟨[e], .next .unexpectedEOF⟩
    else ⟨e :: (cut es (n - F.size e)).entries, (cut es (n - F.size e)).ending⟩

/-- The first `n` bytes end inside an entry. -/
def Inside (es : List TarEntry) (n : ℕ) : Prop :=
  ∃ before e after, es = before ++ e :: after ∧ F.offset before < n ∧
    n < F.offset before + F.extent e

/-- The first `n` bytes have all entries and end inside one of the blocks at the end. -/
def InMarker (es : List TarEntry) (n : ℕ) : Prop :=
  F.offset es < n ∧ n < F.offset es + 2 * F.blockSize ∧ n ≠ F.offset es + F.blockSize

/-- The first `n` bytes do not have the whole content of every entry. -/
def Lacks (es : List TarEntry) (n : ℕ) : Prop :=
  ∃ before e after, es = before ++ e :: after ∧ n < F.offset before + F.contentEnd e

variable {F}

theorem contentEnd_le_extent (e : TarEntry) : F.contentEnd e ≤ F.extent e := by
  rw [extent, size]
  split
  · exact Nat.le_add_right _ _
  · exact le_rfl

theorem extent_le_size (e : TarEntry) : F.extent e ≤ F.size e := by
  rw [extent, size]
  split
  · exact le_rfl
  · exact Nat.le_add_right _ _

theorem offset_cons (e : TarEntry) (es : List TarEntry) :
    F.offset (e :: es) = F.size e + F.offset es := by
  rw [offset, List.map_cons, List.sum_cons, offset]

/-- To end inside an entry is to end inside the first or inside a later one. -/
theorem inside_cons {e : TarEntry} {es : List TarEntry} {n : ℕ} :
    F.Inside (e :: es) n ↔ (0 < n ∧ n < F.extent e) ∨ F.Inside es (n - F.size e) := by
  constructor
  · rintro ⟨before, f, after, heq, hlow, hhigh⟩
    rcases before with _ | ⟨b, before⟩
    · obtain ⟨rfl, rfl⟩ := List.cons.inj heq
      exact Or.inl ⟨hlow, by simpa [offset] using hhigh⟩
    · obtain ⟨rfl, rfl⟩ := List.cons.inj heq
      rw [offset_cons] at hlow hhigh
      exact Or.inr ⟨before, f, after, rfl, by omega, by omega⟩
  · rintro (⟨hlow, hhigh⟩ | ⟨before, f, after, rfl, hlow, hhigh⟩)
    · exact ⟨[], e, es, rfl, hlow, by simpa [offset] using hhigh⟩
    · refine ⟨e :: before, f, after, rfl, ?_, ?_⟩ <;>
      · rw [offset_cons]
        omega

theorem inMarker_cons {e : TarEntry} {es : List TarEntry} {n : ℕ} :
    F.InMarker (e :: es) n ↔ F.InMarker es (n - F.size e) := by
  rw [InMarker, InMarker, offset_cons]
  omega

/-- What lacks a content ends before the marker. -/
theorem Lacks.not_inMarker {es : List TarEntry} {n : ℕ} (h : F.Lacks es n) :
    ¬ F.InMarker es n := by
  rintro ⟨hlow, -⟩
  obtain ⟨before, e, after, rfl, hn⟩ := h
  have hsize := (F.contentEnd_le_extent e).trans (F.extent_le_size e)
  have hoffset : F.offset (before ++ e :: after) =
      F.offset before + (F.size e + F.offset after) := by
    rw [← offset_cons, offset, List.map_append, List.sum_append, offset, offset]
  omega

/-- **A reader takes an input for complete** unless it ends inside an entry or inside the marker. -/
theorem ending_cut_eq_eof_iff {es : List TarEntry} {n : ℕ} :
    (F.cut es n).ending = .eof ↔ ¬ (F.Inside es n ∨ F.InMarker es n) := by
  induction es generalizing n with
  | nil =>
    have hnone : ¬ F.Inside [] n := fun ⟨_, _, _, h, _⟩ ↦ absurd h (by simp)
    rw [or_iff_right hnone, InMarker, cut, show F.offset [] = 0 from rfl]
    split
    · exact iff_of_true rfl (by omega)
    · exact iff_of_false (by simp) (not_not.2 (by omega))
  | cons e es ih =>
    have hheader := F.headerSize_pos e
    have hcontent : F.headerSize e ≤ F.contentEnd e := Nat.le_add_right _ _
    have hextent := F.contentEnd_le_extent e
    have hsize := F.extent_le_size e
    rw [cut, inside_cons, inMarker_cons, or_assoc]
    by_cases hzero : n = 0
    · have hlater : ¬ F.Inside es (n - F.size e) := fun ⟨_, _, _, _, hlow, _⟩ ↦ by omega
      have hmarker : ¬ F.InMarker es (n - F.size e) := fun ⟨hlow, _⟩ ↦ by omega
      rw [if_pos hzero]
      exact iff_of_true rfl (not_or.2 ⟨by omega, not_or.2 ⟨hlater, hmarker⟩⟩)
    by_cases hn : n < F.extent e
    · have hin : 0 < n ∧ n < F.extent e := ⟨by omega, hn⟩
      refine iff_of_false ?_ (not_not.2 (Or.inl hin))
      rw [if_neg hzero]
      split
      · simp
      · split
        · simp
        · simp
    · rw [if_neg hzero, if_neg (by omega), if_neg (by omega), if_neg hn, ih,
        or_iff_right fun h : 0 < n ∧ n < F.extent e ↦ hn h.2]

/-- What a reader finds of whole entries is the beginning of what was written. -/
theorem entries_cut_prefix (es : List TarEntry) (n : ℕ) : (F.cut es n).entries <+: es := by
  induction es generalizing n with
  | nil =>
    rw [cut]
    split
    · exact List.nil_prefix
    · exact List.nil_prefix
  | cons e es ih =>
    rw [cut]
    split
    · exact List.nil_prefix
    split
    · exact List.nil_prefix
    split
    · exact List.nil_prefix
    split
    · exact List.prefix_iff_eq_append.2 rfl
    · exact List.prefix_cons_inj e |>.2 (ih _)

end TarFormat

namespace DevReplicator

variable {p q : Process} {dst : Location} {t : Disk}

/-- `Receive` returns an error at any end but `io.EOF`. -/
theorem receiveStream_error_of_ending {s : TarStream} (h : s.ending ≠ .eof) :
    ∃ err, ((receiveStream q dst s).run t).1 = .error err := by
  rw [receiveStream]
  rcases Effect.bind_cases ((receive q dst s.entries).mapError .os)
    (fun _ ↦ finish q dst s.ending) t with ⟨err, t', -, hrun⟩ | ⟨-, t', -, hrun⟩
  · exact ⟨err, by rw [hrun]⟩
  · rw [hrun]
    rcases hend : s.ending with _ | err | ⟨hdr, err⟩
    · exact absurd hend h
    · exact ⟨_, rfl⟩
    · rw [finish]
      rcases Effect.bind_cases ((makeEntry q dst hdr).mapError ReceiveErr.os)
        (fun _ ↦ Effect.raise (ReceiveErr.read err)) t' with ⟨err', u, -, hlast⟩ | ⟨-, u, -, hlast⟩
      · exact ⟨err', by rw [hlast]⟩
      · exact ⟨_, by rw [hlast]; rfl⟩

/-- At `io.EOF` it returns what making the files returns. -/
theorem receiveStream_eof (es : List TarEntry) :
    (receiveStream q dst ⟨es, .eof⟩).run t = ((receive q dst es).mapError .os).run t := by
  rcases hrun : ((receive q dst es).mapError ReceiveErr.os).run t with ⟨err | ⟨⟩, t'⟩
  · exact Effect.run_bind_of_error hrun
  · exact Effect.run_bind_of_ok hrun

/-- What is received without an error is so up to any point. -/
theorem receive_ok_of_prefix {es fs : List TarEntry} (hpre : es <+: fs) {t' : Disk}
    (h : (receive q dst fs).run t = (.ok (), t')) : ((receive q dst es).run t).1 = .ok () := by
  obtain ⟨gs, rfl⟩ := hpre
  induction es generalizing t with
  | nil => rfl
  | cons hdr es ih =>
    rw [List.cons_append, receive_cons] at h
    obtain ⟨_, t₁, hmake, hrest⟩ := Effect.exists_of_run_bind_ok h
    rw [receive_cons, Effect.run_bind_of_ok hmake]
    exact ih hrest

/-- **A stream that is cut off.** A version was frozen and sent completely, and the first `n` bytes
of it are received. `Receive` returns an error wherever they end inside an entry; and, into an empty
directory, nowhere else but inside the marker at the end, before which no content is lacking. -/
theorem cut_stream_refused_iff {d d₀ : Disk} {root ref : Location} (hfroze : Froze p d root ref d₀)
    {s : Process} {parent : GoString} {stream : List TarEntry}
    (hsend : (send s d₀ parent ref).run [] = (.ok (), stream)) (F : TarFormat) (n : ℕ) :
    (F.Inside stream n → ∀ q t dst,
      ∃ err, ((receiveStream q dst (F.cut stream n)).run t).1 = .error err) ∧
    (∀ q t dst, EmptyDir t dst →
      ((∃ err, ((receiveStream q dst (F.cut stream n)).run t).1 = .error err) ↔
        F.Inside stream n ∨ F.InMarker stream n)) ∧
    (F.Lacks stream n → ¬ F.InMarker stream n) := by
  have hinside : F.Inside stream n ∨ F.InMarker stream n → ∀ q t dst,
      ∃ err, ((receiveStream q dst (F.cut stream n)).run t).1 = .error err :=
    fun h q t dst ↦ receiveStream_error_of_ending fun heof ↦
      TarFormat.ending_cut_eq_eof_iff.1 heof h
  refine ⟨fun h ↦ hinside (Or.inl h), fun q t dst hdst ↦ ⟨fun ⟨err, herr⟩ ↦ ?_,
    fun h ↦ hinside h q t dst⟩, TarFormat.Lacks.not_inMarker⟩
  by_contra hout
  obtain ⟨t', hwhole, -⟩ := receive_spec (q := q) hfroze.isVersion.dir hdst hsend
  have hok := receive_ok_of_prefix (TarFormat.entries_cut_prefix (F := F) stream n) hwhole
  have hcut : F.cut stream n = ⟨(F.cut stream n).entries, .eof⟩ := by
    rw [← TarFormat.ending_cut_eq_eof_iff.2 hout]
  rw [hcut, receiveStream_eof, Effect.run_mapError, hok] at herr
  exact absurd herr (by simp [Except.mapError])

end DevReplicator

/-- Headers of 512 bytes, and contents padded to a multiple of that. -/
def ustar : TarFormat where
  headerSize _ := 512
  headerSize_pos _ := by decide
  paddingSize e := (512 - e.content.length % 512) % 512
  paddingInside := false
  blockSize := 512

/-- The tree of the sample was frozen. -/
theorem froze_sample :
    Froze sampleProcess sampleNode (samplePlace "w") (samplePlace "v") frozenNode :=
  ⟨by decide +kernel, by decide +kernel, by decide +kernel,
    Effect.run_eq_of_result (by decide +kernel)⟩

/-- The version of the sample is sent completely. -/
theorem send_sample :
    (DevReplicator.send sampleProcess frozenNode [] (samplePlace "v")).run [] =
      (.ok (), sentFrom frozenNode (samplePlace "v")) :=
  Effect.run_eq_of_result (by decide +kernel)

theorem emptyDir_sample : EmptyDir sampleNode (samplePlace "m") :=
  EmptyDir.of_entries (by decide +kernel) (by decide +kernel)

/-- The two files of the sample, as they are sent. -/
def sampleEntries : TarEntry × TarEntry :=
  (⟨ascii "a".toList, 0o444, [0x78]⟩, ⟨ascii "s/b".toList, 0o444, [0x79]⟩)

theorem sentFrom_sample : sentFrom frozenNode (samplePlace "v") =
    [sampleEntries.1] ++ sampleEntries.2 :: [] := by
  decide +kernel

/-- Cut off within the header of the second file, the sample is refused. -/
theorem cut_stream_refused_sample :
    ∃ err, ((DevReplicator.receiveStream sampleProcess (samplePlace "m")
      (ustar.cut (sentFrom frozenNode (samplePlace "v")) 1100)).run sampleNode).1 = .error err := by
  have hcut := DevReplicator.cut_stream_refused_iff froze_sample send_sample ustar 1100
  exact (hcut.2.1 sampleProcess sampleNode (samplePlace "m") emptyDir_sample).2
    (Or.inl ⟨_, _, _, sentFrom_sample, by decide, by decide⟩)

/-- **Cut off between its two files, the version is received without an error**, and the second file
is not there. -/
theorem cut_stream_accepted :
    let stream := sentFrom frozenNode (samplePlace "v")
    let received := (DevReplicator.receiveStream sampleProcess (samplePlace "m")
      (ustar.cut stream 1024)).run sampleNode
    Froze sampleProcess sampleNode (samplePlace "w") (samplePlace "v") frozenNode ∧
      (DevReplicator.send sampleProcess frozenNode [] (samplePlace "v")).run [] =
        (.ok (), stream) ∧
      ustar.Lacks stream 1024 ∧ received.1 = .ok () ∧
      received.2.stat (target (samplePlace "m") sampleEntries.2.name) = none :=
  ⟨froze_sample, send_sample, ⟨_, _, _, sentFrom_sample, by decide⟩, by decide +kernel,
    by decide +kernel⟩

end SourceOS.Mount
