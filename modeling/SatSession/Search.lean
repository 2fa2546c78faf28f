/-
What an engine asks of a search, and which answers can be trusted.

A search is given formulas, the number of variables and a limit on its
effort, zero for none. It answers with an assignment, or that there is
none, or, under a limit, that it gave up. It may answer the same question
differently at different times, so it is also told how many questions it
was asked before.
-/
import SatSession.Formula

namespace SatSession

/-- A question to a search. -/
structure Query where
  formulas : List Formula
  varCount : Nat
  /-- The limit on the effort; zero is no limit. -/
  limit : Nat

/-- The answer of a search. -/
inductive Verdict where
  | sat (a : Assignment)
  | unsat
  | unknown

/-- A search: its answer to the question asked as the `count`-th one,
counted from zero. -/
abbrev Search := (count : Nat) → Query → Verdict

/-- An assignment that satisfies all formulas of a question. -/
def Query.SatisfiedBy (q : Query) (a : Assignment) : Prop :=
  ∀ f ∈ q.formulas, f.holds a = true

/-- A search whose answers can be trusted: an assignment it gives is one,
it denies only what has none, and it gives up only under a limit. -/
structure Search.Sound (s : Search) : Prop where
  satisfied : ∀ {count q a}, s count q = .sat a → q.SatisfiedBy a
  denied : ∀ {count q}, s count q = .unsat → ∀ a, ¬ q.SatisfiedBy a
  limited : ∀ {count q}, s count q = .unknown → 0 < q.limit

end SatSession
