/-
Literals that follow from a question, and clauses without what they deny.

A clause that comes down to a single literal makes that literal a fact:
whoever satisfies the question makes it true. The opposite of a fact can
be left out of every clause (`Consequence.strip`), which in turn may come
down to a single literal, or to none at all.
-/
import SatSession.Search.Consequence

namespace SatSession

/-- Literals that follow from a question. -/
structure Facts (q : Query) where
  /-- By the slots of literals, whether it is known to follow. -/
  known : Array Bool
  follows : ∀ l, known[litSlot l]?.getD false = true →
    ∀ a, q.SatisfiedBy a → litHolds a l = true

/-- Literals have slots of their own. -/
theorem litSlot_injective {l m : Int} (h : litSlot l = litSlot m) :
    l = m := by
  unfold litSlot at h
  split at h <;> split at h <;> omega

namespace Facts

variable {q : Query}

/-- No facts yet, with room for the variables below a bound. -/
def none (bound : Nat) : Facts q where
  known := Array.replicate (2 * bound) false
  follows l h := by
    rw [Array.getElem?_replicate] at h
    split at h <;> cases h

/-- Whether a literal is known to follow. -/
def has (facts : Facts q) (l : Int) : Bool :=
  facts.known[litSlot l]?.getD false

/-- Adds the literal of a clause that has a single one. -/
def add (facts : Facts q) (c : Consequence q) : Facts q :=
  match h : c.literals with
  | [l] =>
      { known := facts.known.setIfInBounds (litSlot l) true
        follows := by
          intro m hm a ha
          rw [Array.getElem?_setIfInBounds] at hm
          split at hm
          · rename_i hslot
            have hl := c.follows a ha
            rw [h, litSlot_injective hslot] at hl
            simpa [clauseHolds] using hl
          · exact facts.follows m hm a ha }
  | _ => facts

end Facts

namespace Consequence

variable {q : Query}

/-- A clause without the literals that are known to be false. -/
def strip (c : Consequence q) (facts : Facts q) : Consequence q where
  literals := c.literals.filter fun l => l == 0 || !facts.has (-l)
  follows a ha := by
    obtain ⟨l, hl, htrue⟩ := clauseHolds_iff.1 (c.follows a ha)
    refine clauseHolds_iff.2 ⟨l, List.mem_filter.2 ⟨hl, ?_⟩, htrue⟩
    by_cases hzero : l = 0
    · simp [hzero]
    · have hhas : facts.has (-l) = false := by
        rw [← Bool.not_eq_true]
        intro hhas
        have hneg := litHolds_neg (by omega) (facts.follows _ hhas a ha)
        rw [Int.neg_neg, htrue] at hneg
        cases hneg
      simp [hhas]

/-- Whether a clause has a literal that is known to be true. -/
def isSettled (c : Consequence q) (facts : Facts q) : Bool :=
  c.literals.any facts.has

end Consequence

end SatSession
