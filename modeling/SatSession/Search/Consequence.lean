/-
Clauses that follow from a question, as their type says.

Every assignment that satisfies the question satisfies a consequence of
it. The clauses of the question are consequences, and so is the resolvent
of two consequences; a search that builds its clauses in no other way
needs no further argument when it ends with the empty one
(`not_satisfiedBy_of_empty`).

The literals of a consequence stand in the order of their variables, each
once, so that two clauses are joined in one pass. Nothing depends on that
order but the length of the result.
-/
import SatSession.Search

namespace SatSession

-- ==================================================== ordered literals

/-- The place of a literal in the order of literals. -/
def litSlot (l : Int) : Nat :=
  2 * l.natAbs + if l < 0 then 1 else 0

/-- The literals of two clauses, in order if those were. -/
def mergeLiterals : List Int → List Int → List Int
  | [], d => d
  | c, [] => c
  | l :: c, m :: d =>
      if l = m then l :: mergeLiterals c d
      else if litSlot l < litSlot m then l :: mergeLiterals c (m :: d)
      else m :: mergeLiterals (l :: c) d
termination_by c d => c.length + d.length

theorem mem_mergeLiterals {c d : List Int} {x : Int} :
    x ∈ mergeLiterals c d ↔ x ∈ c ∨ x ∈ d := by
  fun_induction mergeLiterals c d with
  | case1 d => simp
  | case2 c => simp
  | case3 c m d ih => grind
  | case4 l c m d _ _ ih => grind
  | case5 l c m d _ _ ih => grind

/-- Whether literals are in order, each once. -/
def isOrdered : List Int → Bool
  | l :: m :: rest => litSlot l < litSlot m && isOrdered (m :: rest)
  | _ => true

/-- The literals of a clause in order, each once. Most clauses come in
order already. -/
def orderLiterals (clause : List Int) : List Int :=
  if isOrdered clause then clause
  else (clause.mergeSort fun l m => decide (litSlot l ≤ litSlot m)).foldr
    (fun l ordered => mergeLiterals [l] ordered) []

theorem mem_orderLiterals {clause : List Int} {x : Int} :
    x ∈ orderLiterals clause ↔ x ∈ clause := by
  have key : ∀ ls : List Int,
      x ∈ ls.foldr (fun l ordered => mergeLiterals [l] ordered) []
        ↔ x ∈ ls := by
    intro ls
    induction ls with
    | nil => simp
    | cons l ls ih =>
        rw [List.foldr_cons, mem_mergeLiterals, ih, List.mem_cons]
        simp
  unfold orderLiterals
  split
  · rfl
  · rw [key, List.mem_mergeSort]

-- ======================================================= consequences

/-- A clause that follows from a question. -/
structure Consequence (q : Query) where
  literals : List Int
  follows : ∀ a, q.SatisfiedBy a → clauseHolds a literals = true

theorem clauseHolds_iff {a : Assignment} {clause : List Int} :
    clauseHolds a clause = true ↔ ∃ l ∈ clause, litHolds a l = true := by
  simp [clauseHolds, List.any_eq_true]

/-- A literal other than zero and its opposite are never both true. -/
theorem litHolds_neg {a : Assignment} {l : Int} (hl : l ≠ 0)
    (h : litHolds a l = true) : litHolds a (-l) = false := by
  unfold litHolds at *
  rw [Int.natAbs_neg]
  by_cases hpos : 0 < l
  · have : ¬ 0 < -l := by omega
    simp_all
  · have : 0 < -l := by omega
    simp_all

namespace Consequence

variable {q : Query}

/-- The clause that a formula of the question asks for. -/
def ofFormula (f : Formula) (hf : f ∈ q.formulas) : Consequence q where
  literals := orderLiterals f.literals
  follows a ha := by
    have h := ha f hf
    rw [Formula.holds_eq, clauseHolds_iff] at h
    obtain ⟨l, hl, htrue⟩ := h
    exact clauseHolds_iff.2 ⟨l, mem_orderLiterals.2 hl, htrue⟩

/-- All clauses of the question. -/
def all (q : Query) : List (Consequence q) :=
  q.formulas.attach.map fun ⟨f, hf⟩ => ofFormula f hf

/-- The resolvent of a clause with the opposite of a literal and one with
the literal. Zero has no opposite, and nothing is resolved upon it. -/
def resolve (l : Int) (c d : Consequence q) : Consequence q :=
  if hl : l = 0 then c
  else
    { literals := mergeLiterals (c.literals.filter (· != -l))
        (d.literals.filter (· != l))
      follows := by
        intro a ha
        obtain ⟨m, hm, hmtrue⟩ := clauseHolds_iff.1 (c.follows a ha)
        obtain ⟨n, hn, hntrue⟩ := clauseHolds_iff.1 (d.follows a ha)
        rw [clauseHolds_iff]
        by_cases hml : m = -l
        · -- the opposite is true, so the second clause has another one
          refine ⟨n, mem_mergeLiterals.2 (Or.inr ?_), hntrue⟩
          have hne : n ≠ l := by
            rintro rfl
            have := litHolds_neg hl hntrue
            rw [← hml, hmtrue] at this
            cases this
          exact List.mem_filter.2 ⟨hn, by simpa using hne⟩
        · exact ⟨m, mem_mergeLiterals.2 (Or.inl
            (List.mem_filter.2 ⟨hm, by simpa using hml⟩)), hmtrue⟩ }

/-- Where the empty clause follows, nothing satisfies the question. -/
theorem not_satisfiedBy_of_empty (c : Consequence q)
    (hc : c.literals = []) (a : Assignment) : ¬ q.SatisfiedBy a := by
  intro ha
  have h := c.follows a ha
  rw [hc] at h
  cases h

end Consequence

end SatSession
