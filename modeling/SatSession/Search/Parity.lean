/-
Parities that a question asks for, and what follows from their sums.

Clauses over the same variables may together say no more and no less than
whether an even or an odd number of these variables is true. Two such
parities add up to one over the variables that only one of them speaks
about, and a few sums can show what no search by cases would find in
time: that the question asks for an odd number of no variables at all
(`not_satisfiedBy_of_isContradictory`).

A parity carries the argument that it follows from the question in its
type, as a consequence does. The elimination keeps parities whose first
variables differ, and takes the first variable out of each new one for as
long as another one begins with it.
-/
import SatSession.Search.Consequence

namespace SatSession

-- ============================================================ parities

/-- Whether an odd number of some variables is true. -/
def parityOf (a : Assignment) : List Nat → Bool
  | [] => false
  | v :: rest => a v ^^ parityOf a rest

/-- The variables that only one of two ordered lists holds. -/
def symmetricDifference : List Nat → List Nat → List Nat
  | [], d => d
  | c, [] => c
  | v :: c, w :: d =>
      if v = w then symmetricDifference c d
      else if v < w then v :: symmetricDifference c (w :: d)
      else w :: symmetricDifference (v :: c) d
termination_by c d => c.length + d.length

theorem parityOf_symmetricDifference (a : Assignment) (c d : List Nat) :
    parityOf a (symmetricDifference c d) = (parityOf a c ^^ parityOf a d) := by
  fun_induction symmetricDifference c d with
  | case1 d => simp [parityOf]
  | case2 c => simp [parityOf]
  | case3 c v d ih =>
      rw [ih]
      simp only [parityOf]
      cases a v <;> cases parityOf a c <;> cases parityOf a d <;> rfl
  | case4 v c w d _ _ ih =>
      simp only [parityOf] at ih ⊢
      rw [ih]
      cases a v <;> cases a w <;> cases parityOf a c <;>
        cases parityOf a d <;> rfl
  | case5 v c w d _ _ ih =>
      simp only [parityOf] at ih ⊢
      rw [ih]
      cases a v <;> cases a w <;> cases parityOf a c <;>
        cases parityOf a d <;> rfl

/-- The clauses that ask for a parity of some variables. -/
def spelled : List Nat → (odd : Bool) → List (List Int)
  | [], odd => if odd then [[]] else []
  | v :: rest, odd =>
      (spelled rest odd).map ((v : Int) :: ·)
        ++ (spelled rest (!odd)).map (-(v : Int) :: ·)

/-- Who satisfies the clauses has the parity. -/
theorem parityOf_of_spelled {a : Assignment} {vs : List Nat} {odd : Bool}
    (hpos : ∀ v ∈ vs, v ≠ 0)
    (h : ∀ c ∈ spelled vs odd, clauseHolds a c = true) :
    parityOf a vs = odd := by
  induction vs generalizing odd with
  | nil =>
      cases odd with
      | false => rfl
      | true => exact absurd (h [] (by simp [spelled])) (by simp [clauseHolds])
  | cons v rest ih =>
      have hv : v ≠ 0 := hpos v List.mem_cons_self
      have hrest : ∀ w ∈ rest, w ≠ 0 := fun w hw =>
        hpos w (List.mem_cons_of_mem _ hw)
      have hlit : litHolds a (v : Int) = a v := by
        simp [litHolds, Nat.pos_of_ne_zero hv]
      have hneg : litHolds a (-(v : Int)) = !a v := by
        simp [litHolds]
      simp only [parityOf]
      cases hav : a v with
      | false =>
          have : parityOf a rest = odd := ih hrest fun c hc => by
            have := h ((v : Int) :: c) (by
              simp only [spelled, List.mem_append, List.mem_map]
              exact Or.inl ⟨c, hc, rfl⟩)
            simpa [clauseHolds, hlit, hav] using this
          rw [this]
          cases odd <;> rfl
      | true =>
          have : parityOf a rest = !odd := ih hrest fun c hc => by
            have := h (-(v : Int) :: c) (by
              simp only [spelled, List.mem_append, List.mem_map]
              exact Or.inr ⟨c, hc, rfl⟩)
            simpa [clauseHolds, hneg, hav] using this
          rw [this]
          cases odd <;> rfl

-- ========================================================== following

/-- A parity that follows from a question. -/
structure Parity (q : Query) where
  members : List Nat
  odd : Bool
  follows : ∀ a, q.SatisfiedBy a → parityOf a members = odd

namespace Parity

variable {q : Query}

/-- The sum of two parities. -/
def add (c d : Parity q) : Parity q where
  members := symmetricDifference c.members d.members
  odd := c.odd ^^ d.odd
  follows a ha := by
    rw [parityOf_symmetricDifference, c.follows a ha, d.follows a ha]

/-- Whether clauses, by their ordered literals, ask for a parity. -/
def isSpelled (group : List (Consequence q)) (vs : List Nat)
    (odd : Bool) : Bool :=
  vs.all (· != 0)
    && (spelled vs odd).all fun c => group.any fun d => d.literals == c

/-- The parity that some clauses ask for, if they do. -/
def ofGroup? (group : List (Consequence q)) (vs : List Nat) (odd : Bool) :
    Option (Parity q) :=
  if h : isSpelled group vs odd = true then
    some
      { members := vs
        odd := odd
        follows := by
          intro a ha
          unfold isSpelled at h
          rw [Bool.and_eq_true, List.all_eq_true, List.all_eq_true] at h
          refine parityOf_of_spelled
            (fun v hv => by simpa using h.1 v hv) fun c hc => ?_
          obtain ⟨d, _, hd⟩ := List.any_eq_true.1 (h.2 c hc)
          rw [← beq_iff_eq.1 hd]
          exact d.follows a ha }
  else none

-- ========================================================= elimination

/-- The variables of a clause. -/
def membersOf (c : Consequence q) : List Nat :=
  c.literals.map Int.natAbs

/-- The order in which clauses over the same variables come together. -/
def before : List Nat → List Nat → Bool
  | [], _ => true
  | _ :: _, [] => false
  | v :: c, w :: d => v < w || (v == w && before c d)

/-- Longer clauses are not looked at: there would have to be too many of
them for one parity. -/
def longest : Nat := 6

/-- The parities that the clauses of a question ask for. -/
def ofQuery (q : Query) : List (Parity q) :=
  let short := (Consequence.all q).filter fun c =>
    (c.literals.drop longest).isEmpty
  let sorted := short.mergeSort fun c d => before (membersOf c) (membersOf d)
  let groups := sorted.splitBy fun c d => membersOf c == membersOf d
  groups.flatMap fun group =>
    match group with
    | [] => []
    | c :: _ =>
        (ofGroup? group (membersOf c) false).toList
          ++ (ofGroup? group (membersOf c) true).toList

/-- Takes the first variable out of a parity for as long as one of the
rows begins with it. -/
def reduce (rows : Array (Option (Parity q))) :
    (steps : Nat) → Parity q → Parity q
  | 0, c => c
  | steps + 1, c =>
      match c.members with
      | [] => c
      | v :: _ =>
          match rows[v]?.getD none with
          | none => c
          | some row => reduce rows steps (c.add row)

/-- Goes through parities and keeps each as a row under its first
variable; ends with the first one that has no variable left and asks for
an odd number of them. -/
def eliminate : List (Parity q) → Array (Option (Parity q)) →
    Option (Parity q)
  | [], _ => none
  | c :: rest, rows =>
      let c := reduce rows rows.size c
      match c.members with
      | [] => if c.odd then some c else eliminate rest rows
      | v :: _ => eliminate rest (rows.setIfInBounds v (some c))

/-- Whether the parities of a question contradict each other. -/
def isContradictory (q : Query) : Bool :=
  let parities := ofQuery q
  let top := parities.foldl (fun n c => c.members.foldl max n) 0
  match eliminate parities (Array.replicate (top + 1) none) with
  | some c => c.members.isEmpty && c.odd
  | none => false

/-- A contradiction among the parities means that nothing satisfies the
question. -/
theorem not_satisfiedBy_of_isContradictory
    (h : isContradictory q = true) (a : Assignment) :
    ¬ q.SatisfiedBy a := by
  intro ha
  unfold isContradictory at h
  simp only at h
  split at h
  · rename_i c _
    rw [Bool.and_eq_true, List.isEmpty_iff] at h
    have := c.follows a ha
    rw [h.1, h.2] at this
    cases this
  · cases h

end Parity

end SatSession
