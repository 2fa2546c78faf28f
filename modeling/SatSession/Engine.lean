/-
What a session asks of an engine.

An engine takes clauses literal by literal and answers searches. Nothing
else is assumed of it: every method may answer anything, fail at any call
and change the host, and arguments and answers are values of any kind.
Sessions and cursors are written against this interface alone.
-/
import SatSession.Op

namespace SatSession

/-- An incremental engine. -/
class Engine (E : Type) where
  /-- Sets how much the engine reports; zero is silent. -/
  setVerbosity (level : Value) : Op E Unit
  /-- Makes sure that the variables from one to `count` exist. -/
  reserveVariables (count : Value) : Op E Unit
  /-- Caps the effort of every later search; zero lifts the cap. -/
  setPropagationLimit (limit : Value) : Op E Unit
  /-- Adds a literal to the clause under construction. -/
  addLiteral (literal : Value) : Op E Unit
  /-- Closes the clause under construction and adds it to the problem. -/
  terminateClause : Op E Unit
  /-- Searches, with a cap on the effort of this search alone, and answers
  a code. -/
  solve (budget : Value) : Op E Value
  /-- The number of variables known. -/
  variableCount : Op E Value
  /-- The value of a variable in the assignment found last: one or minus
  one. -/
  valueOf (index : Value) : Op E Value
  /-- The text of the problem. -/
  writeProblem : Op E String
  /-- Gives back all that the engine holds. -/
  reset : Op E Unit

/-- An engine whose calls enter the trace of the host before they are
carried out. -/
structure Traced (E : Type) where
  inner : E

namespace Traced

variable {E α : Type}

/-- A call: first its entry in the trace, then the call itself. -/
def call (c : Call) (op : Op E α) : Op (Traced E) α := do
  Op.onHost (Host.record (.call c))
  Op.within Traced.inner (fun inner _ => ⟨inner⟩) op

instance [Engine E] : Engine (Traced E) where
  setVerbosity level := call (.setVerbosity level) (Engine.setVerbosity level)
  reserveVariables count :=
    call (.reserveVariables count) (Engine.reserveVariables count)
  setPropagationLimit limit :=
    call (.setPropagationLimit limit) (Engine.setPropagationLimit limit)
  addLiteral literal := call (.addLiteral literal) (Engine.addLiteral literal)
  terminateClause := call .terminateClause Engine.terminateClause
  solve budget := call (.solve budget) (Engine.solve budget)
  variableCount := call .variableCount Engine.variableCount
  valueOf index := call (.valueOf index) (Engine.valueOf index)
  writeProblem := call .writeProblem Engine.writeProblem
  reset := call .reset Engine.reset

end Traced

end SatSession
