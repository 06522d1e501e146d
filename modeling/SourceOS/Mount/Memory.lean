import Mathlib.Data.List.Infix
import SourceOS.Mount.InceptionFS

/-!
# A backend in memory

A file system in the manner of go-billy's `memfs`: a tree is a finite map from paths to nodes, a
path is the list of its components, and a file system is the path its names start from. It is a
`Billy` on which calls can be run, and it keeps the promises that results about every backend ask
for (`readsPurely`; `get_openAt` and `get_removeAt` say where it changes the tree). Symbolic links
are stored and read, not followed.

Two habits of the original matter elsewhere: a file that is created brings the missing directories
above it into being, and a directory that is renamed takes everything below it along.
-/

namespace SourceOS.Mount.Memory

open Go

/-- A path: the names from the root of the tree down. -/
abbrev Path := List GoString

/-- What stands at a path. -/
inductive Node where
  /-- A directory. -/
  | dir
  /-- A file with its content. -/
  | file (content : List UInt8)
  /-- A symbolic link. -/
  | link (target : GoString)
deriving DecidableEq

/-- A finite map from paths to nodes. -/
abbrev Tree := List (Path × Node)

/-- The node at a path; the root itself is not in the map. -/
def get (t : Tree) (p : Path) : Option Node :=
  (t.find? fun e ↦ e.1 = p).map Prod.snd

/-- The entry of a path; the root is a directory in every tree. -/
def entry (t : Tree) (p : Path) : Option Node :=
  if p = [] then some .dir else get t p

/-- A node put at a path. -/
def put (t : Tree) (p : Path) (n : Node) : Tree :=
  (p, n) :: t.filter fun e ↦ e.1 ≠ p

/-- A path cleared. -/
def delete (t : Tree) (p : Path) : Tree :=
  t.filter fun e ↦ e.1 ≠ p

/-- A directory where there is nothing yet. -/
def ensureDir (t : Tree) (p : Path) : Tree :=
  if p = [] ∨ get t p ≠ none then t else put t p .dir

/-- The directories above a path, made where they are missing. -/
def createParents (t : Tree) (p : Path) : Tree :=
  p.dropLast.inits.foldl ensureDir t

theorem get_put (t : Tree) (p q : Path) (n : Node) :
    get (put t p n) q = if q = p then some n else get t q := by
  rw [get, put, List.find?_cons]
  by_cases h : q = p
  · simp [h]
  · rw [if_neg h]
    simp only [Ne.symm h, decide_false]
    rw [List.find?_filter, get]
    congr 2
    funext e
    by_cases he : e.1 = q
    · simp [he, h]
    · simp [he]

theorem get_delete (t : Tree) (p q : Path) :
    get (delete t p) q = if q = p then none else get t q := by
  rw [get, delete, List.find?_filter, get]
  by_cases h : q = p
  · simp [h]
  · rw [if_neg h]
    congr 2
    funext e
    by_cases he : e.1 = q
    · simp [he, h]
    · simp [he]

/-- Making directories changes nothing but those that were missing. -/
theorem get_foldl_ensureDir {ds : List Path} {t : Tree} {q : Path}
    (h : get (ds.foldl ensureDir t) q ≠ get t q) : q ∈ ds ∧ get t q = none := by
  induction ds generalizing t with
  | nil => exact absurd rfl h
  | cons d ds ih =>
    rw [List.foldl_cons] at h
    by_cases hd : d = [] ∨ get t d ≠ none
    · rw [ensureDir, if_pos hd] at h
      obtain ⟨hmem, hnone⟩ := ih h
      exact ⟨List.mem_cons_of_mem _ hmem, hnone⟩
    · obtain ⟨-, hnone⟩ := not_or.1 hd
      rw [ensureDir, if_neg hd] at h
      by_cases hq : q = d
      · exact ⟨by rw [hq]; exact List.mem_cons_self, by rw [hq]; exact not_not.1 hnone⟩
      · have hput : get (put t d .dir) q = get t q := by
          rw [get_put, if_neg hq]
        obtain ⟨hmem, hq'⟩ := ih (t := put t d .dir) (by rwa [hput])
        exact ⟨List.mem_cons_of_mem _ hmem, hput ▸ hq'⟩

theorem get_createParents {t : Tree} {p q : Path} (h : get (createParents t p) q ≠ get t q) :
    q <+: p ∧ get t q = none := by
  obtain ⟨hmem, hnone⟩ := get_foldl_ensureDir h
  exact ⟨(List.mem_inits _ _).1 hmem |>.trans (List.dropLast_prefix p), hnone⟩

/-! ### Names -/

/-- The components of a name, with the dots worked off; `none` if it leaves the file system. -/
def clean (rooted : Bool) : Path → List GoString → Option Path
  | acc, [] => some acc.reverse
  | acc, c :: cs =>
    if c = [] ∨ c = [0x2e] then clean rooted acc cs
    else if c = [0x2e, 0x2e] then
      match acc with
      | _ :: acc => clean rooted acc cs
      | [] => if rooted then clean rooted [] cs else none
    else clean rooted (c :: acc) cs

/-- The path a name denotes on a file system. -/
def resolve (fs : Path) (name : GoString) : Except GoString Path :=
  match clean (name.head? = some 0x2f) [] (name.splitOn 0x2f) with
  | none => .error (ascii "chroot boundary crossed".toList)
  | some p => .ok (fs ++ p)

/-- A path as a name. -/
def spell (p : Path) : GoString :=
  0x2f :: [0x2f].intercalate p

/-! ### The methods -/

/-- The texts of the errors. -/
def notExist : GoString := ascii "file does not exist".toList

/-- The text of the other error. -/
def exist : GoString := ascii "file already exists".toList

/-- A method that looks at a path. -/
def inspect {α : Type} (fs : Path) (name : GoString) (look : Tree → Path → Except GoString α) :
    Effect GoString Tree α := fun t ↦
  ((resolve fs name).bind (look t), t)

/-- A method that changes the tree at a path. -/
def modify {α : Type} (fs : Path) (name : GoString)
    (change : Path → Effect GoString Tree α) : Effect GoString Tree α := do
  let p ← Effect.ofExcept (resolve fs name)
  change p

/-- `OpenFile` at a path. -/
def openAt (name : GoString) (flag : Flag) (p : Path) : Effect GoString Tree Path := fun t ↦
  match get t p with
  | none =>
    if flag &&& oCreate = 0 then (.error notExist, t)
    else (.ok p, put (createParents t p) p (.file []))
  | some (.file _) => (.ok p, if flag &&& oTrunc = 0 then t else put t p (.file []))
  | some _ => (.error (ascii "cannot open directory: ".toList ++ name), t)

/-- The node at a path that has one. -/
def lookup (t : Tree) (p : Path) : Except GoString Node :=
  if p = [] then .ok .dir else (get t p).elim (.error notExist) .ok

/-- A new entry at a path with nothing in it. -/
def createAt (n : Node) (p : Path) : Effect GoString Tree Unit := fun t ↦
  match get t p with
  | none => (.ok (), put (createParents t p) p n)
  | some _ => (.error exist, t)

/-- `Rename` from path to path: the entry, and all that lies below it. -/
def renameAt (old new : Path) : Effect GoString Tree Unit := fun t ↦
  if get t old = none then (.error notExist, t)
  else
    let moved := t.filter fun e ↦ old.isPrefixOf e.1
    let kept := (t.filter fun e ↦ !old.isPrefixOf e.1)
    (.ok (), (moved.map fun e ↦ (new ++ e.1.drop old.length, e.2)).foldl
      (fun t e ↦ put t e.1 e.2) (createParents kept new))

/-- `Remove` at a path: a directory only when nothing is in it. -/
def removeAt (p : Path) : Effect GoString Tree Unit := fun t ↦
  if get t p = none then (.error notExist, t)
  else if t.any fun e ↦ p.isPrefixOf e.1 && e.1 != p then
    (.error (ascii "dir contains files".toList), t)
  else (.ok (), delete t p)

/-- The backend. A file is known by its path, and what `Stat` tells is the node. -/
def memory : Billy where
  Tree := Tree
  Fs := Path
  File := Path
  FileInfo := Node
  create fs name := modify fs name (openAt name (oRdwr ||| oCreate ||| oTrunc))
  open' fs name := modify fs name (openAt name 0)
  openFile fs name flag _ := modify fs name (openAt name flag)
  stat fs name := inspect fs name lookup
  rename fs old new := modify fs old fun p ↦ modify fs new fun q ↦ renameAt p q
  remove fs name := modify fs name removeAt
  join _ elem := [0x2f].intercalate elem
  tempFile fs dir pre := modify fs (dir ++ 0x2f :: (pre ++ ascii "0".toList))
    (openAt dir (oRdwr ||| oCreate))
  readDir fs name := inspect fs name fun t p ↦
    .ok ((t.filter fun e ↦ e.1.dropLast = p ∧ e.1 ≠ []).map Prod.snd)
  mkdirAll fs name _ := modify fs name fun p t ↦
    match get t p with
    | none => (.ok (), ensureDir (createParents t p) p)
    | some .dir => (.ok (), t)
    | some _ => (.error exist, t)
  lstat fs name := inspect fs name lookup
  symlink fs target name := modify fs name (createAt (.link target))
  readlink fs name := inspect fs name fun t p ↦
    match get t p with
    | some (.link target) => .ok target
    | _ => .error notExist
  chroot fs name := inspect fs name fun _ p ↦ .ok p
  root fs := spell fs

/-! ### The promises -/

/-- A flag among those `OpenFile` tests for is not set where the test finds none. -/
theorem and_eq_zero_of_not_asksToWrite {flag bit : Flag} (h : asksToWrite flag = false)
    (hbit : (oWronly ||| oRdwr ||| oCreate ||| oAppend ||| oTrunc) &&& bit = bit) :
    flag &&& bit = 0 := by
  have hmask : flag &&& (oWronly ||| oRdwr ||| oCreate ||| oAppend ||| oTrunc) = 0 := by
    simpa [asksToWrite] using h
  rw [← hbit, ← BitVec.and_assoc, hmask]
  exact BitVec.zero_and

theorem frames_modify {α : Type} {change : Path → Effect GoString Tree α}
    (h : ∀ p, Effect.Frames id (change p)) (fs : Path) (name : GoString) :
    Effect.Frames id (modify fs name change) :=
  Effect.Frames.bind (Effect.Frames.ofExcept _) h

/-- Opening without `O_CREATE` and `O_TRUNC` leaves the tree as it is. -/
theorem frames_openAt {flag : Flag} (hc : flag &&& oCreate = 0) (ht : flag &&& oTrunc = 0)
    (name : GoString) (p : Path) : Effect.Frames id (openAt name flag p) := by
  intro t
  show (openAt name flag p t).2 = t
  unfold openAt
  split
  · rw [if_pos hc]
  · rw [if_pos ht]
  · rfl

/-- **The reading methods read.** -/
theorem readsPurely : memory.ReadsPurely where
  open' fs name := frames_modify (frames_openAt (by decide) (by decide) name) fs name
  openFile fs name flag _ h := frames_modify (frames_openAt
    (and_eq_zero_of_not_asksToWrite h (by decide)) (and_eq_zero_of_not_asksToWrite h (by decide))
    name) fs name
  stat _ _ _ := rfl
  lstat _ _ _ := rfl
  readDir _ _ _ := rfl
  readlink _ _ _ := rfl
  chroot _ _ _ := rfl

/-- A method that changed the tree got as far as its path. -/
theorem resolve_of_modify {α : Type} {fs : Path} {name : GoString}
    {change : Path → Effect GoString Tree α} {t : Tree} {q : Path}
    (h : get ((modify fs name change).run t).2 q ≠ get t q) :
    ∃ p, resolve fs name = .ok p ∧ get ((change p).run t).2 q ≠ get t q := by
  rw [modify] at h
  rcases hres : resolve fs name with e | p
  · rw [hres, Effect.run_bind_of_error (Effect.run_ofExcept _ _)] at h
    exact absurd rfl h
  · rw [hres, Effect.run_bind_of_ok (Effect.run_ofExcept _ _)] at h
    exact ⟨p, rfl, h⟩

/-- Opening changes the entry of the path, and of the missing directories above it. -/
theorem get_openAt {name : GoString} {flag : Flag} {p q : Path} {t : Tree}
    (h : get ((openAt name flag p).run t).2 q ≠ get t q) :
    q = p ∨ q <+: p ∧ get t q = none := by
  by_cases hq : q = p
  · exact Or.inl hq
  · refine Or.inr (get_createParents ?_)
    have hrun : get ((openAt name flag p).run t).2 q = get (createParents t p) q ∨
        get ((openAt name flag p).run t).2 q = get t q := by
      show get (openAt name flag p t).2 q = _ ∨ get (openAt name flag p t).2 q = _
      unfold openAt
      split
      · split
        · exact Or.inr rfl
        · exact Or.inl (by rw [get_put, if_neg hq])
      · split
        · exact Or.inr rfl
        · exact Or.inr (by rw [get_put, if_neg hq])
      · exact Or.inr rfl
    rcases hrun with hrun | hrun
    · rwa [← hrun]
    · exact absurd hrun h

/-- Removing changes the entry of the path. -/
theorem get_removeAt {p q : Path} {t : Tree} (h : get ((removeAt p).run t).2 q ≠ get t q) :
    q = p := by
  by_contra hq
  refine h ?_
  show get (removeAt p t).2 q = _
  unfold removeAt
  split
  · rfl
  · split
    · rfl
    · rw [get_delete, if_neg hq]

end SourceOS.Mount.Memory
