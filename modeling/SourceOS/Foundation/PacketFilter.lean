import Mathlib.Data.List.Basic

/-!
# Chains of rules

A packet filter goes through the rules of a chain in order: the first rule all of whose conditions
hold of the packet decides, and the policy of the chain decides where none does. Packets are of any
type.

Where the rules accept and the policy drops, what passes is what some rule is about
(`ClosedChain.verdict_eq_accept_iff`), so the order of the rules does not matter.
-/

namespace SourceOS.PacketFilter

/-- What is done with a packet. -/
inductive Verdict
  | accept
  | drop
deriving DecidableEq

variable {α : Type*}

/-- A rule: the conditions on a packet, and what is done with a packet that meets them all. -/
structure Rule (α : Type*) where
  conditions : List (α → Bool)
  verdict : Verdict

/-- The rule is about the packet. -/
def Rule.fits (r : Rule α) (a : α) : Bool :=
  r.conditions.all fun c ↦ c a

/-- A chain. -/
structure Chain (α : Type*) where
  rules : List (Rule α)
  policy : Verdict

/-- What a chain does with a packet. -/
def Chain.verdict (c : Chain α) (a : α) : Verdict :=
  match c.rules.find? fun r ↦ r.fits a with
  | some r => r.verdict
  | none => c.policy

/-- A chain that lets through what its rules name, and nothing else. -/
structure ClosedChain (α : Type*) extends Chain α where
  accepts : ∀ r ∈ rules, r.verdict = .accept
  drops : policy = .drop

namespace ClosedChain

/-- **What passes** is what some rule is about. -/
theorem verdict_eq_accept_iff (c : ClosedChain α) (a : α) :
    c.verdict a = .accept ↔ ∃ r ∈ c.rules, r.fits a = true := by
  rcases hfind : c.rules.find? fun r ↦ r.fits a with _ | r
  · have hdrop : c.verdict a = .drop := by
      simp only [Chain.verdict, hfind, c.drops]
    rw [hdrop]
    refine iff_of_false (by simp) ?_
    intro ⟨r, hr, hfits⟩
    exact List.find?_eq_none.1 hfind r hr hfits
  · have hmem := List.mem_of_find?_eq_some hfind
    have hfits := List.find?_some hfind
    have haccept : c.verdict a = .accept := by
      simp only [Chain.verdict, hfind, c.accepts r hmem]
    exact iff_of_true haccept ⟨r, hmem, hfits⟩

end ClosedChain

end SourceOS.PacketFilter
