/-
How solutions are shown and told apart.

Which assignment an engine finds is its own affair, so two runs are
compared through views that do not depend on the choice: the solutions
in ascending order without repetitions, or of each solution only its
length and whether it is valid. A solution is valid for a clause set if
it decides the variables one by one from the first on and makes a literal
of each clause true.
-/
import SatSession.Solution

namespace SatSession

-- ======================================================== comparison

/-- Whether two solutions have the same literals. -/
def Solution.same : Solution → Solution → Bool
  | [], [] => true
  | a :: s, b :: t => a.same b && Solution.same s t
  | _, _ => false

/-- The order of solutions: by the first literals that differ, and a
solution comes before its continuations. -/
def Solution.before : Solution → Solution → Bool
  | _, [] => false
  | [], _ :: _ => true
  | a :: s, b :: t =>
      if a.same b then Solution.before s t
      else match a.lt b with
        | .ok less => less
        | .error _ => false

namespace Solution

/-- Solutions in ascending order. -/
def sorted (solutions : List Solution) : List Solution :=
  solutions.mergeSort fun s t => !t.before s

/-- Whether a solution is among others. -/
def among (s : Solution) (others : List Solution) : Bool :=
  others.any s.same

/-- Solutions without repetitions; the first of each kind stays. -/
def distinct (solutions : List Solution) : List Solution :=
  (solutions.foldl
    (fun kept s => if s.among kept then kept else s :: kept) []).reverse

-- ========================================================== validity

/-- A clause set as its solutions are checked against it: the literals
may be any values, and count by what they equal. -/
abbrev Clauses := List (List Value)

/-- Whether the literals decide the variables one by one from the given
one on. -/
def decidesFrom : Nat → Solution → Bool
  | _, [] => true
  | i, v :: rest =>
      (v.same (.int i) || v.same (.int (-i))) && decidesFrom (i + 1) rest

/-- Whether a literal stands in a solution that decides the variables one
by one: a whole number can only stand at the place of its variable. -/
def hasLiteral (s : Array Value) (l : Value) : Bool :=
  match l.whole? with
  | some n => (s[n.natAbs - 1]?.map l.same).getD false
  | none => s.any l.same

/-- Whether a solution makes a literal of a clause true. -/
def satisfies (s : Array Value) (clause : List Value) : Bool :=
  clause.any (hasLiteral s)

/-- Whether a solution is valid for a clause set. -/
def isValid (clauses : Clauses) (s : Solution) : Bool :=
  decidesFrom 1 s
    && (let entries := s.toArray
        clauses.all (satisfies entries))

-- ============================================================= views

/-- Which view of solutions is wanted. -/
inductive View where
  /-- The literals, several solutions in ascending order. -/
  | sorted
  /-- The literals, several solutions as they came. -/
  | raw
  /-- The length and the validity alone. -/
  | shape
  deriving DecidableEq, Repr

/-- A solution as it is shown. -/
inductive Shown where
  | literals (s : Solution)
  | shape (length : Nat) (valid : Bool)

/-- Shows a solution of a clause set. -/
def shown (view : View) (clauses : Clauses) (s : Solution) : Shown :=
  match view with
  | .shape => .shape s.length (isValid clauses s)
  | .sorted | .raw => .literals s

/-- Shows several solutions of a clause set. -/
def shownAll (view : View) (clauses : Clauses)
    (solutions : List Solution) : List Shown :=
  let ordered := if view = .raw then solutions else Solution.sorted solutions
  ordered.map (shown view clauses)

end Solution

/-- The items of a clause. -/
def Clause.literals (clause : Value) : List Value :=
  match clause.items? with
  | some items => items.toList
  | none => []

/-- The clauses of a clause set that has been loaded. -/
def Clause.known (clauses : Value) : Solution.Clauses :=
  (Clause.literals clauses).map Clause.literals

end SatSession
