/-
A search that tries the assignments one after the other.

It decides the variables that a question speaks about in all ways until
an assignment satisfies the question. It is hopeless for more than a
handful of variables and right for any number of them
(`model_satisfies`, `no_model`), so it stands behind a search that is
fast and may give up.
-/
import SatSession.Search

namespace SatSession.Exhaustive

-- ========================================================= assignments

/-- An assignment with one variable decided. -/
def decided (a : Assignment) (v : Nat) (b : Bool) : Assignment :=
  fun i => if i = v then b else a i

/-- The first assignment that passes a test among those that differ from
a given one only in the listed variables. -/
def firstPassing (test : Assignment → Bool) :
    List Nat → Assignment → Option Assignment
  | [], a => if test a then some a else none
  | v :: rest, a =>
      match firstPassing test rest (decided a v true) with
      | some b => some b
      | none => firstPassing test rest (decided a v false)

theorem firstPassing_passes {test : Assignment → Bool} {vs : List Nat}
    {a b : Assignment} (h : firstPassing test vs a = some b) :
    test b = true := by
  induction vs generalizing a with
  | nil =>
      unfold firstPassing at h
      split at h
      · cases h
        assumption
      · cases h
  | cons v rest ih =>
      unfold firstPassing at h
      split at h
      · rename_i heq
        cases h
        exact ih heq
      · exact ih h

/-- When none passes, none passes that agrees with the given one outside
the listed variables. -/
theorem firstPassing_eq_none {test : Assignment → Bool} {vs : List Nat}
    {a : Assignment} (h : firstPassing test vs a = none) (b : Assignment)
    (hb : ∀ i, i ∉ vs → b i = a i) : test b = false := by
  induction vs generalizing a with
  | nil =>
      have hba : b = a := funext fun i => hb i List.not_mem_nil
      unfold firstPassing at h
      split at h
      · cases h
      · rename_i hfalse
        rw [hba]
        exact Bool.eq_false_iff.2 hfalse
  | cons v rest ih =>
      unfold firstPassing at h
      split at h
      · cases h
      · rename_i htrue
        have outside (c : Bool) (hv : b v = c) (i : Nat) (hi : i ∉ rest) :
            b i = decided a v c i := by
          unfold decided
          by_cases hiv : i = v
          · rw [if_pos hiv, hiv, hv]
          · rw [if_neg hiv]
            exact hb i (by simp [hiv, hi])
        cases hv : b v with
        | true => exact ih htrue (outside true hv)
        | false => exact ih h (outside false hv)

-- =========================================================== questions

/-- Whether an assignment satisfies a question. -/
def satisfies (q : Query) (a : Assignment) : Bool :=
  q.formulas.all fun f => f.holds a

theorem satisfies_iff {q : Query} {a : Assignment} :
    satisfies q a = true ↔ q.SatisfiedBy a := by
  simp [satisfies, Query.SatisfiedBy, List.all_eq_true]

/-- The variables that a question speaks about. -/
def variablesOf (q : Query) : List Nat :=
  q.formulas.flatMap fun f => f.literals.map Int.natAbs

/-- A question cannot tell two assignments apart that agree on its
variables. -/
theorem satisfies_congr {q : Query} {a b : Assignment}
    (h : ∀ i ∈ variablesOf q, a i = b i) : satisfies q a = satisfies q b := by
  have onFormula (f : Formula) (hf : f ∈ q.formulas) :
      f.holds a = f.holds b := by
    rw [Formula.holds_eq, Formula.holds_eq]
    unfold clauseHolds
    have onLiteral (l : Int) (hl : l ∈ f.literals) :
        litHolds a l = litHolds b l := by
      have := h l.natAbs (List.mem_flatMap.2
        ⟨f, hf, List.mem_map.2 ⟨l, hl, rfl⟩⟩)
      simp [litHolds, this]
    rw [Bool.eq_iff_iff, List.any_eq_true, List.any_eq_true]
    constructor
    · rintro ⟨l, hl, ht⟩
      exact ⟨l, hl, by rw [← onLiteral l hl]; exact ht⟩
    · rintro ⟨l, hl, ht⟩
      exact ⟨l, hl, by rw [onLiteral l hl]; exact ht⟩
  unfold satisfies
  rw [Bool.eq_iff_iff, List.all_eq_true, List.all_eq_true]
  constructor
  · intro ht f hf
    rw [← onFormula f hf]
    exact ht f hf
  · intro ht f hf
    rw [onFormula f hf]
    exact ht f hf

/-- An assignment that satisfies a question, if there is one. -/
def model? (q : Query) : Option Assignment :=
  firstPassing (satisfies q) (variablesOf q) fun _ => false

theorem model_satisfies {q : Query} {a : Assignment}
    (h : model? q = some a) : q.SatisfiedBy a :=
  satisfies_iff.1 (firstPassing_passes h)

theorem no_model {q : Query} (h : model? q = none) (a : Assignment) :
    ¬ q.SatisfiedBy a := by
  intro ha
  let b : Assignment := fun i => if i ∈ variablesOf q then a i else false
  have hab : satisfies q a = satisfies q b :=
    satisfies_congr fun i hi => by simp [b, hi]
  have hb : satisfies q b = false :=
    firstPassing_eq_none h b fun i hi => by simp [b, hi]
  rw [satisfies_iff.2 ha, hb] at hab
  cases hab

end SatSession.Exhaustive
