import Mathlib.Data.List.Perm.Basic
import Mathlib.Data.List.Sort
import Mathlib.Data.Set.Function
import SourceOS.Foundation.Go
import SourceOS.Foundation.Lines
import SourceOS.Foundation.Sha256

/-!
# The content hash of a working tree

`hashTree` of `backend/dev.go`: the walk of a working tree collects, for each file, its relative
path, its mode and the digest of its content; the entries are sorted by path, written one to a line,
and the text is digested. The result names the version that is frozen. A file is what is not a
directory. It is opened and read, so a symbolic link to a regular file is one, with the content of
that file and a mode that says that it is a link; reading any other link fails.

* The order of the walk does not matter (`ents_eq_of_perm`): different files have different paths,
  so the sorted entries are determined by the files.
* The text is a listing in the sense of `LineFormat`. A path may contain the separators of the
  format — it is any bytes but NUL — so what the text determines is the entries *up to regrouping*.
  `hashTree_eq_iff_unless_regrouped` says when the hash tells two trees apart, exactly;
  `ents_eq_of_newline_notMem` is the case of paths without a newline, in which it always does.
-/

namespace SourceOS.Mount

open Go Sha256

/-! ### Working trees -/

/-- A file of a working tree. -/
structure File where
  /-- The path relative to the root. -/
  rel : GoString
  /-- The mode, an `os.FileMode`. -/
  mode : UInt32
  /-- What is read when the path is opened. -/
  content : List UInt8
deriving DecidableEq

/-- `os.ModeType`: directory, symbolic link, named pipe, socket, device, character device and
irregular file. -/
def modeType : UInt32 :=
  0x8f280000

/-- `FileMode.IsRegular`, of the mode of a file. -/
def File.IsRegular (f : File) : Prop :=
  f.mode &&& modeType = 0

instance (f : File) : Decidable f.IsRegular :=
  inferInstanceAs (Decidable (_ = _))

/-- What a walk comes past. -/
inductive Item where
  /-- A directory below the root. -/
  | dir (rel : GoString)
  /-- A file. -/
  | file (f : File)
deriving DecidableEq

/-- The file at an item, if it is one. -/
def Item.file? : Item → Option File
  | .dir _ => none
  | .file f => some f

/-- A relative path: no NUL, and slashes only between components. -/
def IsRel (p : GoString) : Prop :=
  0 ∉ p ∧ [] ∉ p.splitOn 0x2f

instance (p : GoString) : Decidable (IsRel p) :=
  inferInstanceAs (Decidable (_ ∧ _))

/-- A working tree, in the order in which it is walked. -/
structure WorkTree where
  /-- What is below the root. -/
  walk : List Item
  /-- Different files have different paths. -/
  nodup : ((walk.filterMap Item.file?).map File.rel).Nodup
  /-- The paths are relative ones. -/
  isRel : ∀ f ∈ walk.filterMap Item.file?, IsRel f.rel

namespace WorkTree

/-- The files. -/
def files (T : WorkTree) : List File :=
  T.walk.filterMap Item.file?

theorem nodup_files (T : WorkTree) : T.files.Nodup :=
  T.nodup.of_map _

end WorkTree

/-! ### The entries -/

/-- The `ent` of `hashTree`: path, mode and digest of the content. -/
abbrev Ent := GoString × UInt32 × List UInt8

/-- The entry of a file. -/
def ent (f : File) : Ent :=
  (f.rel, f.mode, sum256 f.content)

/-- The order of the entries, by path. -/
def ByRel (e f : Ent) : Prop :=
  e.1 ≤ f.1

instance : DecidableRel ByRel := fun e f ↦ inferInstanceAs (Decidable (e.1 ≤ f.1))

instance : IsTrans Ent ByRel := ⟨fun _ _ _ h h' ↦ List.le_trans h h'⟩

instance : Std.Total ByRel := ⟨fun e f ↦ List.le_total e.1 f.1⟩

/-- The entries of a tree, sorted by path. -/
def ents (T : WorkTree) : List Ent :=
  (T.files.map ent).insertionSort ByRel

theorem perm_ents (T : WorkTree) : (ents T).Perm (T.files.map ent) :=
  List.perm_insertionSort ByRel _

/-- **The order of the walk does not matter.** -/
theorem ents_eq_of_perm {T U : WorkTree} (h : T.files.Perm U.files) : ents T = ents U := by
  have hperm : (ents T).Perm (ents U) := (perm_ents T).trans ((h.map ent).trans (perm_ents U).symm)
  refine hperm.eq_of_pairwise (fun e f he hf hef hfe ↦ ?_)
    (List.pairwise_insertionSort ByRel _) (List.pairwise_insertionSort ByRel _)
  -- Two entries of one path come from one file.
  obtain ⟨x, hx, rfl⟩ := List.mem_map.1 ((perm_ents T).mem_iff.1 he)
  obtain ⟨y, hy, rfl⟩ := List.mem_map.1 ((perm_ents U).mem_iff.1 hf)
  have hrel : x.rel = y.rel := List.le_antisymm hef hfe
  rw [List.inj_on_of_nodup_map U.nodup (h.mem_iff.1 hx) hy hrel]

/-! ### The listing -/

/-- The mode and the digest, as they follow the path. -/
def entFields (k : UInt32 × List UInt8) : GoString :=
  bar :: formatOctal k.1.toNat ++ bar :: hexEncode k.2

/-- The format `%s|%o|%s` with a newline at the end. -/
def entFormat : LineFormat UInt8 (UInt32 × List UInt8) where
  terminator := newline
  fields := entFields
  terminator_notMem k := by
    have hbar : newline ≠ bar := by decide
    rw [entFields, List.cons_append, List.mem_cons, List.mem_append, List.mem_cons]
    rintro (h | h | h | h)
    · exact hbar h
    · exact newline_notMem_formatOctal _ h
    · exact hbar h
    · exact newline_notMem_hexEncode _ h
  fields_inj {x y k l} h := by
    rw [entFields, entFields, ← List.append_assoc, ← List.append_assoc] at h
    obtain ⟨hfront, hsum⟩ :=
      append_bar_inj_right (bar_notMem_hexEncode _) (bar_notMem_hexEncode _) h
    obtain ⟨hrel, hmode⟩ :=
      append_bar_inj_right (bar_notMem_formatOctal _) (bar_notMem_formatOctal _) hfront
    have hmode := UInt32.toNat_inj.1 (formatOctal_injective hmode)
    exact ⟨hrel, Prod.ext hmode (hexEncode_injective hsum)⟩

/-- The text that is digested. -/
def treeText (T : WorkTree) : List UInt8 :=
  entFormat.listing (ents T)

/-- `hashTree`. -/
def hashTree (T : WorkTree) : GoString :=
  hexEncode (sum256 (treeText T))

/-- **The same files have the same hash**, in whatever order they are walked. -/
theorem hashTree_eq_of_perm {T U : WorkTree} (h : T.files.Perm U.files) :
    hashTree T = hashTree U := by
  rw [hashTree, hashTree, treeText, treeText, ents_eq_of_perm h]

/-- Everything that is digested on the way: the contents, and the text of the entries. -/
def WorkTree.hashed (T : WorkTree) : List (List UInt8) :=
  treeText T :: T.files.map File.content

/-- The entries of two trees are written alike but are not the same: somewhere a path spells the
whole line of an entry of the other tree and goes on. -/
def Regrouped (T U : WorkTree) : Prop :=
  entFormat.Regroups (ents T) (ents U) ∧ ents T ≠ ents U

section Collisions

variable {T U : WorkTree} (hsum : Set.InjOn sum256 {t | t ∈ T.hashed ∨ t ∈ U.hashed})

include hsum

/-- Trees of the same entries have the same files. -/
theorem perm_files_of_ents_eq (h : ents T = ents U) : T.files.Perm U.files := by
  have hperm : (T.files.map ent).Perm (U.files.map ent) := by
    rw [← (perm_ents T).congr_left, h]
    exact perm_ents U
  have hinj : ∀ x ∈ T.files, ∀ y ∈ U.files, ent x = ent y → x = y := by
    rintro ⟨rel, mode, content⟩ hx ⟨rel', mode', content'⟩ hy hxy
    obtain ⟨hrel, hrest⟩ := Prod.mk.inj hxy
    obtain ⟨hmode, hdigest⟩ := Prod.mk.inj hrest
    have hcontent := hsum (Or.inl (List.mem_cons_of_mem _ (List.mem_map_of_mem hx)))
      (Or.inr (List.mem_cons_of_mem _ (List.mem_map_of_mem hy))) hdigest
    exact File.mk.injEq .. ▸ ⟨hrel, hmode, hcontent⟩
  refine (List.perm_ext_iff_of_nodup T.nodup_files U.nodup_files).2 fun f ↦
    ⟨fun hf ↦ ?_, fun hf ↦ ?_⟩
  · obtain ⟨g, hg, hfg⟩ := List.mem_map.1 (hperm.mem_iff.1 (List.mem_map_of_mem hf))
    rwa [hinj f hf g hg hfg.symm]
  · obtain ⟨g, hg, hfg⟩ := List.mem_map.1 (hperm.mem_iff.2 (List.mem_map_of_mem hf))
    rwa [← hinj g hg f hf hfg]

/-- Trees of the same hash have the same text. -/
theorem regroups_of_hashTree_eq (h : hashTree T = hashTree U) :
    entFormat.Regroups (ents T) (ents U) :=
  LineFormat.listing_eq_iff_regroups.1 (hsum (Or.inl List.mem_cons_self)
    (Or.inr List.mem_cons_self) (hexEncode_injective h))

/-- **Without newlines in the paths the hash names the files.** -/
theorem perm_files_of_newline_notMem (hT : ∀ f ∈ T.files, newline ∉ f.rel)
    (hU : ∀ f ∈ U.files, newline ∉ f.rel) (h : hashTree T = hashTree U) :
    T.files.Perm U.files := by
  have hents : ∀ {V : WorkTree}, (∀ f ∈ V.files, newline ∉ f.rel) →
      ∀ e ∈ ents V, entFormat.terminator ∉ e.1 := by
    intro V hV e he
    obtain ⟨f, hf, rfl⟩ := List.mem_map.1 ((perm_ents V).mem_iff.1 he)
    exact hV f hf
  exact perm_files_of_ents_eq hsum
    ((regroups_of_hashTree_eq hsum h).eq_of_notMem (hents hT) (hents hU))

end Collisions

/-- **What the hash tells apart.** The same files have the same hash, in whatever order they are
walked; and the same hash means the same files exactly when the entries are not regrouped. -/
theorem hashTree_eq_iff_unless_regrouped (T U : WorkTree)
    (hsum : Set.InjOn sum256 {t | t ∈ T.hashed ∨ t ∈ U.hashed}) :
    (T.files.Perm U.files → hashTree T = hashTree U) ∧
    ((hashTree T = hashTree U → T.files.Perm U.files) ↔ ¬ Regrouped T U) := by
  refine ⟨hashTree_eq_of_perm, fun h hgroup ↦ ?_, fun h heq ↦ ?_⟩
  · obtain ⟨hregroups, hne⟩ := hgroup
    have hhash : hashTree T = hashTree U := by
      rw [hashTree, hashTree, treeText, treeText, hregroups.listing_eq]
    exact hne (ents_eq_of_perm (h hhash))
  · by_contra hperm
    refine h ⟨regroups_of_hashTree_eq hsum heq, fun hents ↦ ?_⟩
    exact hperm (perm_files_of_ents_eq hsum hents)

/-- A tree of two files, `a` and `b`. -/
def twoFiles : WorkTree where
  walk := [.file ⟨ascii "a".toList, 0o644, [0x78]⟩, .file ⟨ascii "b".toList, 0o644, [0x79]⟩]
  nodup := by decide
  isRel := by decide

/-- The same tree, walked the other way round. -/
def twoFilesBack : WorkTree where
  walk := [.file ⟨ascii "b".toList, 0o644, [0x79]⟩, .file ⟨ascii "a".toList, 0o644, [0x78]⟩]
  nodup := by decide
  isRel := by decide

/-- A tree of one file, whose name spells the entry of `a` and goes on with `b`. -/
def oneFile : WorkTree where
  walk := [.file ⟨entFormat.line (ent ⟨ascii "a".toList, 0o644, [0x78]⟩) ++ ascii "b".toList,
    0o644, [0x79]⟩]
  nodup := List.nodup_singleton _
  isRel := by decide +kernel

/-- The texts of the two files do not collide. -/
theorem injOn_twoFiles {S : Set (List UInt8)} (hS : ∀ t ∈ S, t ∈ twoFiles.hashed) :
    Set.InjOn sum256 S := by
  have hnodup : (twoFiles.hashed.map sum256).Nodup := by decide +kernel
  exact fun s hs t ht hst ↦ List.inj_on_of_nodup_map hnodup (hS s hs) (hS t ht) hst

theorem mem_hashed_of_twoFilesBack {t : List UInt8} (ht : t ∈ twoFilesBack.hashed) :
    t ∈ twoFiles.hashed := by
  have hperm : twoFilesBack.files.Perm twoFiles.files := List.Perm.swap _ _ _
  rcases List.mem_cons.1 ht with rfl | ht
  · rw [treeText, ents_eq_of_perm hperm]
    exact List.mem_cons_self
  · exact List.mem_cons_of_mem _ ((hperm.map _).mem_iff.1 ht)

/-- The order of two files, at work. -/
theorem hashTree_twoFilesBack : hashTree twoFiles = hashTree twoFilesBack ∧
    ¬ Regrouped twoFiles twoFilesBack := by
  obtain ⟨hperm, hiff⟩ := hashTree_eq_iff_unless_regrouped twoFiles twoFilesBack
    (injOn_twoFiles fun t ht ↦ ht.elim id mem_hashed_of_twoFilesBack)
  have hfiles : twoFiles.files.Perm twoFilesBack.files := List.Perm.swap _ _ _
  exact ⟨hperm hfiles, hiff.1 fun _ ↦ hfiles⟩

/-- **Two trees, one version.** The tree of the files `a` and `b` and the tree of the one file whose
name spells the first entry have the same hash. No digest collides: the texts are the same. -/
theorem hashTree_twoFiles_eq_oneFile :
    Set.InjOn sum256 {t | t ∈ twoFiles.hashed ∨ t ∈ oneFile.hashed} ∧
      hashTree twoFiles = hashTree oneFile ∧ ¬ twoFiles.files.Perm oneFile.files := by
  have htext : treeText oneFile = treeText twoFiles := by decide +kernel
  refine ⟨injOn_twoFiles fun t ht ↦ ht.elim id fun ht ↦ ?_, ?_, fun h ↦ ?_⟩
  · rcases List.mem_cons.1 ht with rfl | ht
    · rw [htext]
      exact List.mem_cons_self
    · obtain rfl : t = [0x79] := List.mem_singleton.1 ht
      simp [WorkTree.hashed, WorkTree.files, twoFiles, Item.file?]
  · rw [hashTree, hashTree, htext]
  · exact absurd h.length_eq (by decide)

end SourceOS.Mount
