import SourceOS.Foundation.Go

/-!
# Joining paths

`filepath.Join` of two elements on a system whose separator is `/`: the elements with a separator
between them, cleaned of empty elements, of `.`, and of `..` together with what it takes back.

Cleaning reads from the front, so an element that is a plain name stays at the end whatever comes
before it (`cleanParts_concat`), and **a directory joined with different names gives different
paths** (`join_inj`).
-/

namespace SourceOS.Go.Filepath

/-- The elements that are left, from those seen so far, the last one first. -/
def cleanParts (rooted : Bool) : List GoString → List GoString → List GoString
  | acc, [] => acc.reverse
  | acc, c :: cs =>
    if c = [] ∨ c = [0x2e] then cleanParts rooted acc cs
    else if c = [0x2e, 0x2e] then
      match acc with
      | a :: acc' =>
        -- Leading `..` are not taken back by another one.
        if a = [0x2e, 0x2e] then cleanParts rooted (c :: acc) cs else cleanParts rooted acc' cs
      | [] => if rooted then cleanParts rooted [] cs else cleanParts rooted [c] cs
    else cleanParts rooted (c :: acc) cs

/-- `filepath.Clean`. -/
def clean (path : GoString) : GoString :=
  let rooted : Bool := path.head? = some 0x2f
  let out := (if rooted then [0x2f] else []) ++
    [0x2f].intercalate (cleanParts rooted [] (path.splitOn 0x2f))
  if out = [] then [0x2e] else out

/-- `filepath.Join` of two elements: the empty ones are left out. -/
def join (dir name : GoString) : GoString :=
  if dir ≠ [] then clean (dir ++ 0x2f :: name) else if name ≠ [] then clean name else []

/-- A plain name: what a directory entry can be called. -/
def IsName (c : GoString) : Prop :=
  c ≠ [] ∧ c ≠ [0x2e] ∧ c ≠ [0x2e, 0x2e] ∧ 0x2f ∉ c

/-- A plain name stays where it is. -/
theorem cleanParts_concat {rooted : Bool} {c : GoString} (hc : IsName c) (acc cs : List GoString) :
    cleanParts rooted acc (cs ++ [c]) = cleanParts rooted acc cs ++ [c] := by
  obtain ⟨hnil, hdot, hdots, -⟩ := hc
  induction cs generalizing acc with
  | nil => simp [cleanParts, hnil, hdot, hdots]
  | cons d cs ih =>
    rw [List.cons_append, cleanParts.eq_def, cleanParts.eq_def]
    simp only [ih]
    split
    · rfl
    · split
      · split
        · split <;> rfl
        · split <;> rfl
      · rfl

/-- Plain names stay where they are, whatever comes after them. -/
theorem cleanParts_append_of_names {rooted : Bool} {acc cs : List GoString}
    (hcs : ∀ c ∈ cs, IsName c) (rest : List GoString) :
    cleanParts rooted acc (cs ++ rest) = cleanParts rooted (cs.reverse ++ acc) rest := by
  induction cs generalizing acc with
  | nil => rfl
  | cons c cs ih =>
    obtain ⟨hnil, hdot, hdots, -⟩ := hcs c List.mem_cons_self
    rw [List.cons_append, cleanParts.eq_def]
    simp only [if_neg (not_or.2 ⟨hnil, hdot⟩), if_neg hdots]
    rw [ih fun d hd ↦ hcs d (List.mem_cons_of_mem _ hd), List.reverse_cons, List.append_assoc]
    rfl

private theorem intercalate_cons_concat (sep b c : GoString) (cs : List GoString) :
    sep.intercalate (b :: cs ++ [c]) = b ++ sep ++ sep.intercalate (cs ++ [c]) := by
  rcases cs with _ | ⟨d, cs⟩
  · simp [List.intercalate]
  · simp [List.intercalate, List.intersperse]

/-- What is in a joined text is in one of the elements, or in a separator. -/
theorem mem_intercalate {sep : GoString} {b : UInt8} {cs : List GoString}
    (h : b ∈ sep.intercalate cs) : b ∈ sep ∨ ∃ c ∈ cs, b ∈ c := by
  induction cs with
  | nil => exact absurd h List.not_mem_nil
  | cons c cs ih =>
    rcases eq_or_ne cs [] with rfl | hne
    · rw [List.intercalate_singleton] at h
      exact Or.inr ⟨c, List.mem_cons_self, h⟩
    · rw [List.intercalate_cons_of_ne_nil hne, List.mem_append, List.mem_append] at h
      rcases h with (h | h) | h
      · exact Or.inr ⟨c, List.mem_cons_self, h⟩
      · exact Or.inl h
      · exact (ih h).imp_right fun ⟨d, hd, hb⟩ ↦ ⟨d, List.mem_cons_of_mem _ hd, hb⟩

/-- What stands last between separators is determined. -/
theorem intercalate_concat_inj {sep : GoString} {cs : List GoString} {c d : GoString}
    (h : sep.intercalate (cs ++ [c]) = sep.intercalate (cs ++ [d])) : c = d := by
  induction cs with
  | nil => simpa [List.intercalate] using h
  | cons b cs ih =>
    rw [intercalate_cons_concat, intercalate_cons_concat] at h
    exact ih (List.append_cancel_left h)

theorem intercalate_concat_ne_nil {sep : GoString} (cs : List GoString) {c : GoString}
    (hc : c ≠ []) : sep.intercalate (cs ++ [c]) ≠ [] := by
  induction cs with
  | nil => simpa [List.intercalate] using hc
  | cons b cs ih =>
    rw [intercalate_cons_concat]
    exact List.append_ne_nil_of_right_ne_nil _ ih

/-- A name joined to a directory is the last element of the path. -/
theorem join_eq {dir c : GoString} (hdir : dir ≠ []) (hc : IsName c) :
    join dir c = (if dir.head? = some 0x2f then [0x2f] else []) ++ [0x2f].intercalate
      (cleanParts (decide (dir.head? = some 0x2f)) [] (dir.splitOn 0x2f) ++ [c]) := by
  have hhead : (dir ++ 0x2f :: c).head? = dir.head? := List.head?_append_of_ne_nil _ hdir
  rw [join, if_pos hdir, clean, hhead, List.splitOn_append_cons_self,
    List.splitOn_eq_singleton hc.2.2.2, cleanParts_concat hc]
  simp only [decide_eq_true_eq]
  rw [if_neg]
  intro hnil
  exact intercalate_concat_ne_nil _ hc.1 (List.append_eq_nil_iff.1 hnil).2

/-- **Different names give different paths.** -/
theorem join_inj {dir c d : GoString} (hc : IsName c) (hd : IsName d)
    (h : join dir c = join dir d) : c = d := by
  by_cases hdir : dir = []
  · subst hdir
    have hname : ∀ {e : GoString}, IsName e → join [] e = e := by
      intro e he
      have hhead : e.head? ≠ some 0x2f := fun h ↦ he.2.2.2 (List.mem_of_mem_head? h)
      have hparts : cleanParts false [] [e] = [e] := cleanParts_concat he [] []
      rw [join, if_neg (not_not.2 rfl), if_pos he.1, clean, List.splitOn_eq_singleton he.2.2.2]
      simp [hhead, hparts, List.intercalate, he.1]
    rwa [hname hc, hname hd] at h
  · rw [join_eq hdir hc, join_eq hdir hd] at h
    exact intercalate_concat_inj (List.append_cancel_left h)

end SourceOS.Go.Filepath
