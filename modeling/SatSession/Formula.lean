/-
Formulas over numbered variables, and when an assignment satisfies them.

A literal is a whole number other than zero: `i` asks for variable `i` to
be true, `-i` for it to be false. A clause asks for one of its literals,
so the empty clause cannot be satisfied. What an engine hands to the
search is a formula per clause, and the shape of the formula depends on
the number of literals.
-/

namespace SatSession

/-- An assignment of truth values to all variables. -/
abbrev Assignment := Nat → Bool

/-- Whether an assignment makes a literal true. -/
def litHolds (a : Assignment) (literal : Int) : Bool :=
  if 0 < literal then a literal.natAbs else !a literal.natAbs

/-- Whether an assignment satisfies a clause. -/
def clauseHolds (a : Assignment) (clause : List Int) : Bool :=
  clause.any (litHolds a)

/-- A formula handed to the search. -/
inductive Formula where
  | falsum
  | literal (l : Int)
  | disjunction (literals : List Int)
  deriving DecidableEq, Repr

namespace Formula

/-- The formula for a clause. -/
def ofClause : List Int → Formula
  | [] => .falsum
  | [l] => .literal l
  | literals => .disjunction literals

/-- The literals that a formula asks one of. -/
def literals : Formula → List Int
  | .falsum => []
  | .literal l => [l]
  | .disjunction ls => ls

/-- Whether an assignment satisfies a formula. -/
def holds (a : Assignment) : Formula → Bool
  | .falsum => false
  | .literal l => litHolds a l
  | .disjunction ls => ls.any (litHolds a)

@[simp] theorem literals_ofClause (clause : List Int) :
    (ofClause clause).literals = clause := by
  match clause with
  | [] => rfl
  | [_] => rfl
  | _ :: _ :: _ => rfl

/-- The shape of the formula does not matter: it asks what the clause
asks. -/
@[simp] theorem holds_ofClause (a : Assignment) (clause : List Int) :
    (ofClause clause).holds a = clauseHolds a clause := by
  match clause with
  | [] => rfl
  | [l] => simp [ofClause, holds, clauseHolds]
  | _ :: _ :: _ => rfl

/-- A formula asks what the clause of its literals asks. -/
theorem holds_eq (a : Assignment) (f : Formula) :
    f.holds a = clauseHolds a f.literals := by
  cases f <;> simp [holds, clauseHolds, literals]

end Formula

end SatSession
