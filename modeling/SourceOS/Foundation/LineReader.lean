import Mathlib.Data.List.TakeWhile

/-!
# Reading a stream line by line

A reader collects what arrives and hands it out line by line, each line with its terminator, as
`StreamReader.readline` does: `readline` says what it does with the bytes it holds. A line that is
longer than the limit is not handed out, whether its end has arrived or not.

`lines` are the complete lines of a stream. A stream that begins with lines has these first
(`lines_flatten_append`), so what a reader has handed out and what it still holds determine the
lines of everything that arrived.
-/

namespace SourceOS

namespace LineReader

variable {α : Type*} [DecidableEq α] (nl : α)

/-- One complete line. -/
def IsLine (l : List α) : Prop :=
  ∃ body, nl ∉ body ∧ l = body ++ [nl]

/-- The complete lines of a stream, each with its terminator. -/
def lines : List α → List (List α)
  | [] => []
  | x :: s =>
    if x = nl then [x] :: lines s
    else
      match lines s with
      | [] => []
      | l :: ls => (x :: l) :: ls

/-- What one call of `readline` comes to. -/
inductive Readline (α : Type*)
  /-- It waits: there is neither a whole line nor the end of the stream. -/
  | pending
  /-- A line with its terminator, or what is left at the end of the stream; and what it still
  holds. -/
  | line (l rest : List α)
  /-- It raises, since the line is too long; and what it still holds. -/
  | overrun (rest : List α)

/-- `readline`, on what has arrived and not been handed out. -/
def readline (limit : ℕ) (eof : Bool) (buffer : List α) : Readline α :=
  let body := buffer.takeWhile (· ≠ nl)
  let rest := buffer.dropWhile (· ≠ nl)
  if limit < body.length then .overrun rest.tail
  else
    match rest with
    | x :: rest => .line (body ++ [x]) rest
    | [] => if eof then .line body [] else .pending

variable {nl}

/-- A stream either has no complete line or begins with one. -/
theorem notMem_or_exists_line (s : List α) :
    nl ∉ s ∨ ∃ body rest, nl ∉ body ∧ s = body ++ nl :: rest := by
  by_cases h : nl ∈ s
  · obtain ⟨body, rest, rfl, hbody⟩ := List.eq_append_cons_of_mem h
    exact Or.inr ⟨body, rest, hbody, rfl⟩
  · exact Or.inl h

/-- The first line of a stream, and where the others begin. -/
theorem lines_append_cons {body : List α} (h : nl ∉ body) (rest : List α) :
    lines nl (body ++ nl :: rest) = (body ++ [nl]) :: lines nl rest := by
  induction body with
  | nil => simp [lines]
  | cons x body ih =>
    obtain ⟨hx, hbody⟩ := List.ne_and_not_mem_of_not_mem_cons h
    rw [List.cons_append, lines, if_neg (Ne.symm hx), ih hbody]
    rfl

theorem lines_eq_nil_iff {s : List α} : lines nl s = [] ↔ nl ∉ s := by
  constructor
  · intro h hmem
    obtain ⟨body, rest, rfl, hbody⟩ := List.eq_append_cons_of_mem hmem
    rw [lines_append_cons hbody] at h
    exact List.cons_ne_nil _ _ h
  · intro h
    induction s with
    | nil => rfl
    | cons x s ih =>
      obtain ⟨hx, hs⟩ := List.ne_and_not_mem_of_not_mem_cons h
      rw [lines, if_neg (Ne.symm hx), ih hs]

/-- **A stream that begins with lines has these first.** -/
theorem lines_flatten_append {ls : List (List α)} (h : ∀ l ∈ ls, IsLine nl l) (rest : List α) :
    lines nl (ls.flatten ++ rest) = ls ++ lines nl rest := by
  induction ls with
  | nil => rfl
  | cons l ls ih =>
    obtain ⟨body, hbody, rfl⟩ := h l List.mem_cons_self
    rw [List.flatten_cons, List.append_assoc, List.append_assoc, List.singleton_append,
      lines_append_cons hbody, ih fun l hl ↦ h l (List.mem_cons_of_mem _ hl), List.cons_append]

/-- What stands before the first terminator. -/
theorem takeWhile_body {body : List α} (h : nl ∉ body) (rest : List α) :
    (body ++ nl :: rest).takeWhile (· ≠ nl) = body ∧
      (body ++ nl :: rest).dropWhile (· ≠ nl) = nl :: rest := by
  have hbody : ∀ x ∈ body, decide (x ≠ nl) = true := fun x hx ↦
    decide_eq_true fun hxnl ↦ h (hxnl ▸ hx)
  rw [List.takeWhile_append_of_pos hbody, List.dropWhile_append_of_pos hbody]
  simp

theorem takeWhile_of_notMem {s : List α} (h : nl ∉ s) :
    s.takeWhile (· ≠ nl) = s ∧ s.dropWhile (· ≠ nl) = [] := by
  have hs : ∀ x ∈ s, decide (x ≠ nl) = true := fun x hx ↦
    decide_eq_true fun hxnl ↦ h (hxnl ▸ hx)
  exact ⟨List.takeWhile_eq_self_iff.2 hs, List.dropWhile_eq_nil_iff.2 hs⟩

/-- A line that is short enough is handed out. -/
theorem readline_line {limit : ℕ} {body : List α} (h : nl ∉ body) (hlen : body.length ≤ limit)
    (eof : Bool) (rest : List α) :
    readline nl limit eof (body ++ nl :: rest) = .line (body ++ [nl]) rest := by
  obtain ⟨htake, hdrop⟩ := takeWhile_body h rest
  simp only [readline, htake, hdrop, if_neg (Nat.not_lt.2 hlen)]

/-- Without a complete line the reader waits for more, or hands out what is left. -/
theorem readline_of_notMem {limit : ℕ} {s : List α} (h : nl ∉ s) (hlen : s.length ≤ limit)
    (eof : Bool) : readline nl limit eof s = if eof then .line s [] else .pending := by
  obtain ⟨htake, hdrop⟩ := takeWhile_of_notMem h
  simp only [readline, htake, hdrop, if_neg (Nat.not_lt.2 hlen)]

/-- A line that is too long makes it raise. -/
theorem readline_overrun {limit : ℕ} {s : List α} (h : limit < (s.takeWhile (· ≠ nl)).length)
    (eof : Bool) : readline nl limit eof s = .overrun (s.dropWhile (· ≠ nl)).tail := by
  simp only [readline, if_pos h]

/-- **What a reader does before the end of the stream**: it hands out the first line, waits, or
raises. -/
theorem readline_cases (limit : ℕ) (s : List α) :
    (∃ body rest, nl ∉ body ∧ body.length ≤ limit ∧ s = body ++ nl :: rest ∧
        readline nl limit false s = .line (body ++ [nl]) rest) ∨
      (nl ∉ s ∧ s.length ≤ limit ∧ readline nl limit false s = .pending) ∨
      (limit < (s.takeWhile (· ≠ nl)).length ∧
        ∃ rest, readline nl limit false s = .overrun rest) := by
  by_cases hlong : limit < (s.takeWhile (· ≠ nl)).length
  · exact Or.inr (Or.inr ⟨hlong, _, readline_overrun hlong false⟩)
  rcases @notMem_or_exists_line _ _ nl s with h | ⟨body, rest, h, rfl⟩
  · rw [(takeWhile_of_notMem h).1, Nat.not_lt] at hlong
    exact Or.inr (Or.inl ⟨h, hlong, readline_of_notMem h hlong false⟩)
  · rw [(takeWhile_body h rest).1, Nat.not_lt] at hlong
    exact Or.inl ⟨body, rest, h, hlong, rfl, readline_line h hlong false rest⟩

end LineReader

end SourceOS
