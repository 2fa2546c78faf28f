/-
Checking clause data and loading it into an engine.

A clause set is a sequence of clauses, a clause a sequence of whole
numbers other than zero; truth values do not count as whole numbers here.
A clause is checked completely before its first literal reaches the
engine, and loading stops at the first clause that fails the check.
-/
import SatSession.Engine

namespace SatSession

namespace Clause

/-- The literal that a value is, when it may stand at a position of a
clause. -/
def literal (index : Value) (position : Nat) (v : Value) :
    Except Fault Int :=
  match v with
  | .number (.int n) =>
      if n = 0 then .error (.zeroLiteral index position) else .ok n
  | v => .error (.literalKind index position v.kind)

/-- Checks one more value of a clause; the literals so far are kept with
the last one first. -/
def extend (index : Value) (checked : Nat × List Int) (v : Value) :
    Except Fault (Nat × List Int) := do
  let n ← literal index checked.1 v
  return (checked.1 + 1, n :: checked.2)

/-- Checks a clause and answers its literals. The index only serves the
messages. -/
def validate (clause : Value) (index : Value) : Except Fault (List Int) :=
  match clause.sequence? with
  | none => .error (.clauseShape index clause.kind)
  | some items => do
      let checked ← items.foldlM (extend index) (0, [])
      return checked.2.reverse

end Clause

section Loading

variable {E : Type} [Engine E]

/-- Hands the literals of a clause over and closes it. -/
def loadClause (literals : List Int) : Op E Unit := do
  literals.forM fun l => Engine.addLiteral (.int l)
  Engine.terminateClause

/-- Checks one more clause of a set and loads it. -/
def loadNext (count : Nat) (clause : Value) : Op E Nat := do
  match Clause.validate clause (.int count) with
  | .error f => throw f
  | .ok literals =>
      loadClause literals
      return count + 1

/-- Loads a clause set; answers the number of clauses. -/
def loadClauses (clauses : Value) : Op E Nat :=
  match clauses.sequence? with
  | none => throw (.clauseSetShape clauses.kind)
  | some items => items.foldlM loadNext 0

end Loading

end SatSession
