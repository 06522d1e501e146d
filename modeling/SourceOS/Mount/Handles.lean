import SourceOS.Mount.MountRun

/-!
# File handles

What `Open`, `OpenFile` and `Create` return is the backend's own `billy.File`: the membrane has had
its say when the call is made, and reading and writing the handle later does not come back to it.

* `Files` is what handles add to a backend: what a file holds, what a handle gives to a reader and
  what writing to it does. `Files.ByFlags` is the promise that handles are what the flags ask for.
* `exec_opens` says what an opening call returns: it was allowed as one class of access, writing or
  reading, and the handle is the one that the backend opened with the caller's flag.
* `Memory.handled` is the backend in memory with handles that remember their flag. It keeps the
  promise (`Memory.byFlags`).
-/

namespace SourceOS.Mount

open Go

variable {B : Billy} {α : Type} {isPrint : ℕ → Bool} {f : InceptionFS B} {now : Clock}

/-! ### Flags -/

/-- `os.O_RDONLY`. -/
def oRdonly : Flag := 0x0

/-- `os.O_EXCL`. -/
def oExcl : Flag := 0x80

/-- `syscall.O_ACCMODE`, the bits that hold the access mode. -/
def oAccmode : Flag := 0x3

/-- The access mode of a handle that can be read. -/
def opensToRead (flag : Flag) : Bool :=
  flag &&& oAccmode == oRdonly || flag &&& oAccmode == oRdwr

/-- What is opened is empty: it is truncated, or it has to be new. -/
def opensEmpty (flag : Flag) : Bool :=
  flag &&& oTrunc != 0 || (flag &&& oCreate != 0 && flag &&& oExcl != 0)

/-! ### Handles -/

/-- The methods that open a file of a backend, with the flag each of them opens it with. `Open` and
`Create` are documented as special cases of `OpenFile`. -/
def Billy.opens (B : Billy) (fs : B.Fs) :
    Method → Option (GoString × Flag × Effect GoString B.Tree B.File)
  | .open' filename => some (filename, oRdonly, B.open' fs filename)
  | .create filename => some (filename, oRdwr ||| oCreate ||| oTrunc, B.create fs filename)
  | .openFile filename flag perm => some (filename, flag, B.openFile fs filename flag perm)
  | _ => none

/-- What handles add to a backend. -/
structure Files (B : Billy) where
  /-- What the file under a name holds, if there is one. -/
  content : B.Fs → GoString → B.Tree → Option (List UInt8)
  /-- What a handle gives to a reader, if it can be read. -/
  read : B.File → B.Tree → Option (List UInt8)
  /-- `Write`. -/
  write : B.File → List UInt8 → Effect GoString B.Tree ℕ

/-- **Handles are what the flags ask for.** Nothing is promised of the access mode that is neither
of the three. -/
structure Files.ByFlags (F : Files B) : Prop where
  /-- A handle for writing cannot be read. -/
  writeOnly : ∀ {fs m filename flag x t file t'}, B.opens fs m = some (filename, flag, x) →
    Effect.run x t = (.ok file, t') → flag &&& oAccmode = oWronly → F.read file t' = none
  /-- In a file that is new or emptied there is nothing to read. -/
  empty : ∀ {fs m filename flag x t file t'}, B.opens fs m = some (filename, flag, x) →
    Effect.run x t = (.ok file, t') → opensEmpty flag = true →
    ∀ c, F.read file t' = some c → c = []
  /-- A handle gives nothing but what the file held. -/
  only : ∀ {fs m filename flag x t file t' c}, B.opens fs m = some (filename, flag, x) →
    Effect.run x t = (.ok file, t') → F.read file t' = some c →
    c = [] ∨ F.content fs filename t = some c
  /-- A handle for reading gives what the file held. -/
  reads : ∀ {fs m filename flag x t file t' c}, B.opens fs m = some (filename, flag, x) →
    Effect.run x t = (.ok file, t') → opensToRead flag = true → opensEmpty flag = false →
    F.content fs filename t = some c → F.read file t' = some c
  /-- A handle for reading cannot be written. -/
  readOnly : ∀ {fs m filename flag x t file t'}, B.opens fs m = some (filename, flag, x) →
    Effect.run x t = (.ok file, t') → flag &&& oAccmode = oRdonly →
    ∀ data, Effect.Frames id (F.write file data)

/-! ### What a governed call returns -/

/-- A gated method that returned was allowed, and returned what the backend did. -/
theorem InceptionFS.gated_ok {op : Op} {path : GoString} {m : Method}
    {x : Effect GoString B.Tree α} {s t : Seam B} {a : α}
    (h : (f.gated isPrint now op path m x).run s = (.ok a, t)) :
    check isPrint now.checked f.lease f.space op path = .ok () ∧
      x.run s.tree = (.ok a, t.tree) := by
  rcases f.gated_cases op path m x s with ⟨reason, -, hrun⟩ | ⟨hcheck, hrun⟩
  · rw [hrun] at h
    exact absurd (congrArg Prod.fst h) (by simp)
  · rw [hrun] at h
    have hresult : (x.run s.tree).1 = .ok a := congrArg Prod.fst h
    have htree : (x.run s.tree).2 = t.tree := congrArg (fun p ↦ p.2.tree) h
    exact ⟨hcheck, Prod.ext hresult htree⟩

/-- A sequence that only dresses up a result returned what its first half did. -/
theorem ok_of_value {x : Effect GoString (Seam B) α} {k : α → Value B} {s t : Seam B} {v : Value B}
    (h : (x >>= fun a ↦ pure (k a)).run s = (.ok v, t)) :
    ∃ a, x.run s = (.ok a, t) ∧ v = k a := by
  rcases Effect.bind_cases x (fun a ↦ pure (k a)) s with ⟨e, s', -, hbind⟩ | ⟨a, s', hx, hbind⟩
  · rw [hbind] at h
    exact absurd (congrArg Prod.fst h) (by simp)
  · rw [hbind] at h
    obtain ⟨hv, hs⟩ := Prod.mk.inj h
    exact ⟨a, by rw [hx, hs], (Except.ok.inj hv).symm⟩

/-- **What an opening call returns**: the membrane allowed it, and the handle is the one that the
backend opened. -/
theorem exec_opens {m : Method} {filename : GoString} {flag : Flag}
    {x : Effect GoString B.Tree B.File} {s t : Seam B} {v : Value B}
    (hm : B.opens f.filesystem m = some (filename, flag, x))
    (h : (f.exec isPrint now m).run s = (.ok v, t)) :
    check isPrint now.checked f.lease f.space
        (if m.mutates then opWrite else opRead) filename = .ok () ∧
      ∃ file, v = .file file ∧ x.run s.tree = (.ok file, t.tree) := by
  cases m with
  | open' name =>
    obtain ⟨rfl, rfl, rfl⟩ := by simpa [Billy.opens] using hm
    obtain ⟨file, hrun, rfl⟩ := ok_of_value h
    obtain ⟨hcheck, hfile⟩ := InceptionFS.gated_ok hrun
    exact ⟨hcheck, file, rfl, hfile⟩
  | create name =>
    obtain ⟨rfl, rfl, rfl⟩ := by simpa [Billy.opens] using hm
    obtain ⟨file, hrun, rfl⟩ := ok_of_value h
    obtain ⟨hcheck, hfile⟩ := InceptionFS.gated_ok hrun
    exact ⟨hcheck, file, rfl, hfile⟩
  | openFile name flag' perm =>
    obtain ⟨rfl, rfl, rfl⟩ := by simpa [Billy.opens] using hm
    obtain ⟨file, hrun, rfl⟩ := ok_of_value h
    obtain ⟨hcheck, hfile⟩ := InceptionFS.gated_ok hrun
    exact ⟨hcheck, file, rfl, hfile⟩
  | _ => exact absurd hm (by simp [Billy.opens])

/-- A governed method that returned was allowed. -/
theorem exec_ok_of_asks {m : Method} {op : Op} {path : GoString} {s t : Seam B} {v : Value B}
    (hm : m.asks = some (op, path)) (h : (f.exec isPrint now m).run s = (.ok v, t)) :
    check isPrint now.checked f.lease f.space op path = .ok () := by
  cases m with
  | chroot path =>
    obtain ⟨rfl, rfl⟩ := Prod.mk.inj (Option.some.inj hm)
    obtain ⟨g, hg, -⟩ := ok_of_value h
    rcases @InceptionFS.gated_cases _ _ isPrint f now opList path (.chroot path)
      (B.chroot f.filesystem path) s with ⟨reason, -, hrun⟩ | ⟨hcheck, -⟩
    · rw [InceptionFS.chroot, Effect.run_bind_of_error hrun] at hg
      exact absurd (congrArg Prod.fst hg) (by simp)
    · exact hcheck
  | join elem => exact absurd hm (by simp [Method.asks])
  | root => exact absurd hm (by simp [Method.asks])
  | tempFile dir pre => exact absurd hm (by simp [Method.asks])
  | mkdirAll filename perm => exact absurd hm (by simp [Method.asks])
  | symlink target link => exact absurd hm (by simp [Method.asks])
  | readlink link => exact absurd hm (by simp [Method.asks])
  | _ =>
    obtain ⟨rfl, rfl⟩ := Prod.mk.inj (Option.some.inj hm)
    obtain ⟨a, hrun, -⟩ := ok_of_value h
    exact (InceptionFS.gated_ok hrun).1

/-! ### A backend in memory, with handles -/

namespace Memory

/-- Opening at a path, where `O_EXCL` asks that a file to be created is not there yet. -/
def openNewAt (name : GoString) (flag : Flag) (p : Path) : Effect GoString Tree Path := fun t ↦
  if flag &&& oCreate ≠ 0 ∧ flag &&& oExcl ≠ 0 ∧ get t p ≠ none then (.error exist, t)
  else openAt name flag p t

/-- Opening a name; the handle remembers the flag. -/
def openHandle (fs : Path) (name : GoString) (flag : Flag) :
    Effect GoString Tree (Path × Flag) := do
  let p ← modify fs name (openNewAt name flag)
  return (p, flag)

/-- The backend in memory with handles that know what they were opened for. -/
def handled : Billy :=
  { memory with
    File := Path × Flag
    create := fun fs name ↦ openHandle fs name (oRdwr ||| oCreate ||| oTrunc)
    open' := fun fs name ↦ openHandle fs name oRdonly
    openFile := fun fs name flag _ ↦ openHandle fs name flag
    tempFile := fun fs dir pre ↦ openHandle fs (dir ++ 0x2f :: (pre ++ ascii "0".toList))
      (oRdwr ||| oCreate ||| oExcl) }

/-- What the file at a path holds. -/
def contentAt (t : Tree) (p : Path) : Option (List UInt8) :=
  match get t p with
  | some (.file c) => some c
  | _ => none

/-- Reading a file from its start. -/
def readHandle (file : Path × Flag) (t : Tree) : Option (List UInt8) :=
  if file.2 &&& oAccmode = oWronly then none else contentAt t file.1

/-- Writing at the end of a file. -/
def writeHandle (file : Path × Flag) (data : List UInt8) : Effect GoString Tree ℕ := fun t ↦
  if file.2 &&& oAccmode = oRdonly then (.error (ascii "write not supported".toList), t)
  else
    match contentAt t file.1 with
    | some c => (.ok data.length, put t file.1 (.file (c ++ data)))
    | none => (.error notExist, t)

/-- The handles of the backend in memory. -/
def files : Files handled where
  content fs name t := (resolve fs name).toOption.bind (contentAt t)
  read := readHandle
  write := writeHandle

theorem contentAt_put (t : Tree) (p : Path) (c : List UInt8) :
    contentAt (put t p (.file c)) p = some c := by
  rw [contentAt, get_put, if_pos rfl]

/-- **What opening a path does**, where it succeeds: an empty file if the flag asks for one, and
otherwise the file as it was. -/
theorem openNewAt_ok {name : GoString} {flag : Flag} {p q : Path} {t t' : Tree}
    (h : (openNewAt name flag p).run t = (.ok q, t')) :
    q = p ∧ (opensEmpty flag = true → contentAt t' p = some []) ∧
      (opensEmpty flag = false → ∀ c, contentAt t p = some c → contentAt t' p = some c) ∧
      (contentAt t' p = some [] ∨ contentAt t' p = contentAt t p) := by
  have hrun : (if flag &&& oCreate ≠ 0 ∧ flag &&& oExcl ≠ 0 ∧ get t p ≠ none then (.error exist, t)
    else openAt name flag p t) = (.ok q, t') := h
  split at hrun
  · exact absurd (congrArg Prod.fst hrun) (by simp)
  · rename_i hnew
    rw [openAt] at hrun
    rcases hget : get t p with _ | _ | c | target
    · rw [hget] at hrun hnew
      simp only at hrun
      split at hrun
      · exact absurd (congrArg Prod.fst hrun) (by simp)
      · obtain ⟨hq, rfl⟩ := Prod.mk.inj hrun
        refine ⟨(Except.ok.inj hq).symm, fun _ ↦ contentAt_put _ _ _, fun _ c hc ↦ ?_,
          Or.inl (contentAt_put _ _ _)⟩
        rw [contentAt, hget] at hc
        exact absurd hc (by simp)
    · rw [hget] at hrun
      exact absurd (congrArg Prod.fst hrun) (by simp)
    · rw [hget] at hrun hnew
      simp only at hrun
      obtain ⟨hq, rfl⟩ := Prod.mk.inj hrun
      refine ⟨(Except.ok.inj hq).symm, fun hempty ↦ ?_, fun hkept c' hc' ↦ ?_, ?_⟩
      · -- An existing file that is to be empty is truncated: it cannot be one that has to be new.
        have htrunc : flag &&& oTrunc ≠ 0 := by
          rcases Bool.or_eq_true_iff.1 hempty with htrunc | hexcl
          · simpa using htrunc
          · obtain ⟨hcreate, hexcl⟩ : flag &&& oCreate ≠ 0 ∧ flag &&& oExcl ≠ 0 := by
              simpa using hexcl
            exact absurd ⟨hcreate, hexcl, by simp⟩ hnew
        rw [if_neg htrunc]
        exact contentAt_put _ _ _
      · have htrunc : flag &&& oTrunc = 0 := by
          simpa using (Bool.or_eq_false_iff.1 hkept).1
        rw [if_pos htrunc]
        exact hc'
      · split
        · exact Or.inr rfl
        · exact Or.inl (contentAt_put _ _ _)
    · rw [hget] at hrun
      exact absurd (congrArg Prod.fst hrun) (by simp)

theorem openHandle_ok {fs : Path} {name : GoString} {flag : Flag} {t t' : Tree}
    {file : Path × Flag} (h : (openHandle fs name flag).run t = (.ok file, t')) :
    file.2 = flag ∧ resolve fs name = .ok file.1 ∧
      (opensEmpty flag = true → contentAt t' file.1 = some []) ∧
      (opensEmpty flag = false → ∀ c, contentAt t file.1 = some c →
        contentAt t' file.1 = some c) ∧
      (contentAt t' file.1 = some [] ∨ contentAt t' file.1 = contentAt t file.1) := by
  rw [openHandle, modify] at h
  rcases hres : resolve fs name with e | p
  · rw [hres, Effect.run_bind_of_error (Effect.run_bind_of_error (Effect.run_ofExcept _ _))] at h
    exact absurd (congrArg Prod.fst h) (by simp)
  · rw [hres] at h
    rcases hopen : (openNewAt name flag p).run t with ⟨e | q, t''⟩
    · rw [Effect.run_bind_of_error
        ((Effect.run_bind_of_ok (Effect.run_ofExcept _ _)).trans hopen)] at h
      exact absurd (congrArg Prod.fst h) (by simp)
    · rw [Effect.run_bind_of_ok
        ((Effect.run_bind_of_ok (Effect.run_ofExcept _ _)).trans hopen)] at h
      obtain ⟨hfile, rfl⟩ := Prod.mk.inj h
      obtain rfl := Except.ok.inj hfile
      obtain ⟨rfl, hempty, hkept, honly⟩ := openNewAt_ok hopen
      exact ⟨rfl, rfl, hempty, hkept, honly⟩

/-- Every way of opening a file is `openHandle` with the flag it stands for. -/
theorem opens_handled {fs : Path} {m : Method} {filename : GoString} {flag : Flag}
    {x : Effect GoString Tree (Path × Flag)} (h : handled.opens fs m = some (filename, flag, x)) :
    x = openHandle fs filename flag := by
  cases m with
  | open' name =>
    obtain ⟨rfl, rfl, rfl⟩ := by simpa [Billy.opens] using h
    rfl
  | create name =>
    obtain ⟨rfl, rfl, rfl⟩ := by simpa [Billy.opens] using h
    rfl
  | openFile name flag' perm =>
    obtain ⟨rfl, rfl, rfl⟩ := by simpa [Billy.opens] using h
    rfl
  | _ => exact absurd h (by simp [Billy.opens])

theorem readHandle_of_writeOnly {file : Path × Flag} (h : file.2 &&& oAccmode = oWronly)
    (t : Tree) : readHandle file t = none := by
  rw [readHandle, if_pos h]

theorem contentAt_of_readHandle {file : Path × Flag} {t : Tree} {c : List UInt8}
    (h : readHandle file t = some c) : contentAt t file.1 = some c := by
  rw [readHandle] at h
  split at h
  · exact absurd h (by simp)
  · exact h

theorem readHandle_of_opensToRead {file : Path × Flag} (h : opensToRead file.2 = true)
    {t : Tree} {c : List UInt8} (hc : contentAt t file.1 = some c) :
    readHandle file t = some c := by
  rw [readHandle, if_neg, hc]
  intro hwrite
  rw [opensToRead, hwrite] at h
  exact absurd h (by decide)

theorem frames_writeHandle {file : Path × Flag} (h : file.2 &&& oAccmode = oRdonly)
    (data : List UInt8) : Effect.Frames id (writeHandle file data) := by
  intro t
  show (writeHandle file data t).2 = t
  rw [writeHandle, if_pos h]

/-- **The handles are what the flags ask for.** -/
theorem byFlags : files.ByFlags where
  writeOnly {fs m filename flag x t file t'} hm h hmode := by
    rw [opens_handled hm] at h
    obtain ⟨hflag, -⟩ := openHandle_ok h
    exact readHandle_of_writeOnly (by rw [hflag, hmode]) t'
  empty {fs m filename flag x t file t'} hm h hempty c hc := by
    rw [opens_handled hm] at h
    obtain ⟨-, -, hnew, -⟩ := openHandle_ok h
    exact Option.some.inj ((contentAt_of_readHandle hc).symm.trans (hnew hempty))
  only {fs m filename flag x t file t' c} hm h hread := by
    rw [opens_handled hm] at h
    obtain ⟨-, hres, -, -, honly⟩ := openHandle_ok h
    have hc := contentAt_of_readHandle hread
    refine honly.imp (fun hempty ↦ Option.some.inj (hc.symm.trans hempty)) fun hsame ↦ ?_
    show (resolve fs filename).toOption.bind (contentAt t) = some c
    rw [hres]
    exact hsame.symm.trans hc
  reads {fs m filename flag x t file t' c} hm h hmode hkept hc := by
    rw [opens_handled hm] at h
    obtain ⟨hflag, hres, -, hold, -⟩ := openHandle_ok h
    have hc' : (resolve fs filename).toOption.bind (contentAt t) = some c := hc
    rw [hres] at hc'
    exact readHandle_of_opensToRead (by rw [hflag, hmode]) (hold hkept c hc')
  readOnly {fs m filename flag x t file t'} hm h hmode data := by
    rw [opens_handled hm] at h
    obtain ⟨hflag, -⟩ := openHandle_ok h
    exact frames_writeHandle (by rw [hflag, hmode]) data

end Memory

end SourceOS.Mount
