import SourceOS.Foundation.SortedKeys

/-!
# A JSON document in a file

`json.dumps` with `indent=2` and `sort_keys=True`, followed by a line break: the form in which
programs keep a document that people may look at. Every item and every member has a line of its own,
indented by its level; an empty list and an empty object are written without a line break.

This is one more text of the value with its keys in order (`writes_dumpsIndent`), so the file reads
back as that value (`loads_fileText`), which has **the same members under the same keys**.
-/

namespace SourceOS

namespace Json

/-- A line break, and the indentation of a level. -/
def newline (level : ℕ) : Str :=
  '\n' :: List.replicate (2 * level) ' '

theorem blank_newline (level : ℕ) : Blank (newline level) := by
  intro c hc
  rcases List.mem_cons.1 hc with rfl | hc
  · rfl
  · rw [List.eq_of_mem_replicate hc]
    rfl

mutual

/-- `json.dumps` with `indent=2`, for a value at a level. -/
def dumpsIndent : ℕ → Json → Str
  | _, .arr [] => ['[', ']']
  | level, .arr (x :: xs) =>
    '[' :: (newline (level + 1) ++ (dumpsIndent (level + 1) x ++ dumpsIndentItems level xs))
  | _, .obj [] => ['\x7b', '\x7d']
  | level, .obj ((k, v) :: ms) =>
    '\x7b' :: (newline (level + 1) ++
      (dumpsStr k ++ ':' :: ' ' :: (dumpsIndent (level + 1) v ++ dumpsIndentMembers level ms)))
  | _, .null => dumps (.null : Json)
  | _, .bool b => dumps (.bool b : Json)
  | _, .int n => dumps (.int n : Json)
  | _, .float x => dumps (.float x : Json)
  | _, .str s => dumps (.str s : Json)

/-- The items after the first, for an array at a level. -/
def dumpsIndentItems : ℕ → List Json → Str
  | level, [] => newline level ++ [']']
  | level, x :: xs =>
    ',' :: (newline (level + 1) ++ (dumpsIndent (level + 1) x ++ dumpsIndentItems level xs))

/-- The members after the first, for an object at a level. -/
def dumpsIndentMembers : ℕ → List (Str × Json) → Str
  | level, [] => newline level ++ ['\x7d']
  | level, (k, v) :: ms =>
    ',' :: (newline (level + 1) ++
      (dumpsStr k ++ ':' :: ' ' :: (dumpsIndent (level + 1) v ++ dumpsIndentMembers level ms)))

end

/-- `json.dumps(obj, indent=2, sort_keys=True) + "\n"`. -/
def fileText (j : Json) : Str :=
  dumpsIndent 0 (sortKeys j) ++ ['\n']

/-- A key with its colon and the value after it. -/
theorem dumpsStr_append (k r : Str) :
    dumpsStr k ++ ':' :: ' ' :: r =
      '"' :: (k.flatMap escape ++ '"' :: ([] ++ ':' :: ([' '] ++ r))) := by
  simp [dumpsStr]

mutual

/-- **An indented text** is a text of the value. -/
theorem writes_dumpsIndent : ∀ (level : ℕ) {j : Json}, Plain j →
    Writes escape j (dumpsIndent level j)
  | _, .null, _ => .null
  | _, .bool true, _ => .ofTrue
  | _, .bool false, _ => .ofFalse
  | _, .int n, _ => .int n
  | _, .float _, h => absurd h (by simp [Plain])
  | _, .str s, _ => .str s
  -- between empty brackets nothing is written, not even a line break
  | _, .arr [], _ => .nil blank_nil
  | level, .arr (_ :: _), h =>
    .arr (blank_newline (level + 1))
      (writesItems_dumpsIndent level h.2 (writes_dumpsIndent (level + 1) h.1))
  | _, .obj [], _ => .empty blank_nil
  | level, .obj ((k, _) :: _), h =>
    .obj (blank_newline (level + 1))
      (writesMembers_dumpsIndent level h.2.2 k (writes_dumpsIndent (level + 1) h.2.1))

theorem writesItems_dumpsIndent (level : ℕ) : ∀ {xs : List Json}, PlainItems xs →
    ∀ {x : Json} {t : Str}, Writes escape x t →
      WritesItems escape (x :: xs) (t ++ dumpsIndentItems level xs)
  | [], _, _, _, hx => .last hx (blank_newline level)
  | _ :: _, h, _, _, hx =>
    .cons hx blank_nil (blank_newline (level + 1))
      (writesItems_dumpsIndent level h.2 (writes_dumpsIndent (level + 1) h.1))

theorem writesMembers_dumpsIndent (level : ℕ) : ∀ {ms : List (Str × Json)}, PlainMembers ms →
    ∀ (k : Str) {v : Json} {t : Str}, Writes escape v t →
      WritesMembers escape ((k, v) :: ms)
        (dumpsStr k ++ ':' :: ' ' :: (t ++ dumpsIndentMembers level ms))
  | [], _, k, _, _, hv => by
    rw [dumpsStr_append]
    exact .last blank_nil blank_space hv (blank_newline level)
  | (k', _) :: _, h, k, _, _, hv => by
    rw [dumpsStr_append]
    exact .cons blank_nil blank_space hv blank_nil (blank_newline (level + 1))
      (writesMembers_dumpsIndent level h.2 k' (writes_dumpsIndent (level + 1) h.1))

end

/-- **A document is read back from its file**, with its keys in order. -/
theorem loads_fileText (rf : Str → PyFloat) {j : Json} (hj : Plain j) :
    loads rf (fileText j) = some (sortKeys j) :=
  loads_of_writes rf legible_escape (writes_dumpsIndent 0 (plain_sortKeys hj))
    (plain_sortKeys hj) blank_nil (List.forall_mem_singleton.2 rfl)

example : fileText (.obj [(['b'], .arr []), (['a'], .arr [.int 1, .null])]) =
    "\x7b\n  \"a\": [\n    1,\n    null\n  ],\n  \"b\": []\n\x7d\n".toList := by
  decide +kernel

end Json

end SourceOS
