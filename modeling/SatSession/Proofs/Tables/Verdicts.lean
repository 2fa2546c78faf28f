/-
What the verdict of a sound search says of the clauses kept.

The formulas that the search is given and the clauses that the engine was
told are the same (`Keeps.asserted`), and all literals are about variables
that the engine knows, so the verdict can be read as one about total lists
over these variables (`verdict_means`). A variable that no clause speaks
about is in the lists like any other.
-/
import SatSession.Proofs.Models
import SatSession.Proofs.Tables.Searching

namespace SatSession

/-- What a verdict says of some clauses over some variables, if the
search was under a limit. -/
def Verdict.Means (n : Nat) (clauses : List (List Int)) (limit : Nat) :
    Verdict → Prop
  | .sat a => Satisfies (signedList a n) clauses
  | .unsat => ∀ s, Total n s → ¬ Satisfies s clauses
  | .unknown => 0 < limit

namespace TableEngine

variable {e : TableEngine} {h : Heap} {clauses : List (List Int)} {d : Draft}

/-- What is asked of an assignment are the closed clauses, whatever is
open. -/
theorem Keeps.satisfiedBy_iff_holds (hk : Keeps d e h) {a : Assignment}
    {limit : Nat} :
    Query.SatisfiedBy ⟨e.asserted.toList, e.varCount, limit⟩ a
      ↔ ∀ c ∈ d.closed, clauseHolds a c = true := by
  unfold Query.SatisfiedBy
  simp only [hk.asserted, List.forall_mem_map, Formula.holds_ofClause]

/-- An assignment satisfies what is asked of it if its list satisfies the
clauses. -/
theorem Keeps.satisfiedBy_iff (hk : Keeps { closed := clauses } e h)
    {a : Assignment} {limit : Nat} :
    Query.SatisfiedBy ⟨e.asserted.toList, e.varCount, limit⟩ a
      ↔ Satisfies (signedList a e.varCount) clauses := by
  rw [hk.satisfiedBy_iff_holds]
  unfold Satisfies
  refine forall₂_congr fun c hc => clauseHolds_iff_mem fun l hl => ?_
  have hadmitted := hk.admitted c (List.mem_append_left _ hc) l hl
  exact ⟨hadmitted.nonzero, hadmitted.exists_var⟩

/-- The verdict of a sound search is right about the clauses kept. -/
theorem Keeps.verdict_means (hk : Keeps { closed := clauses } e h)
    (hsound : e.search.Sound) (limit : Nat) :
    (e.verdict limit).Means e.varCount clauses limit := by
  cases hverdict : e.verdict limit with
  | sat a => exact hk.satisfiedBy_iff.mp (hsound.satisfied hverdict)
  | unsat =>
      intro s hs hsat
      obtain ⟨a, rfl⟩ := hs.exists_eq
      exact hsound.denied hverdict a (hk.satisfiedBy_iff.mpr hsat)
  | unknown => exact hsound.limited hverdict

/-- A search is limited only where a limit was set. -/
theorem limit_pos {limit : Int} (h : 0 < limitInForce limit (-1)) :
    0 < limit := by
  unfold limitInForce smallestPositive at h
  by_cases hlimit : 0 < limit
  · exact hlimit
  · simp [hlimit] at h

end TableEngine

end SatSession
