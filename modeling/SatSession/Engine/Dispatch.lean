/-
The engines that a name or a script can lead to, as one type.

A name may lead to the mere interface of engines, which answers every
call with nothing, or to something that is no engine at all. Such a thing
is taken for an engine until the first method is asked of it, and then
lacks the method.
-/
import SatSession.Engine.Table
import SatSession.Engine.Scripted

namespace SatSession

/-- An engine that does nothing and answers with nothing. -/
structure Blank where

instance : Engine Blank where
  setVerbosity _ := pure ()
  reserveVariables _ := pure ()
  setPropagationLimit _ := pure ()
  addLiteral _ := pure ()
  terminateClause := pure ()
  solve _ := pure .none
  variableCount := pure .none
  valueOf _ := pure .none
  writeProblem := pure ""
  reset := pure ()

/-- Something without any of the methods of an engine. -/
structure Methodless where
  /-- Whether it is a cursor, one that was given no session. -/
  isCursor : Bool := false

instance : Engine Methodless where
  setVerbosity _ := throw .missingOperation
  reserveVariables _ := throw .missingOperation
  setPropagationLimit _ := throw .missingOperation
  addLiteral _ := throw .missingOperation
  terminateClause := throw .missingOperation
  solve _ := throw .missingOperation
  variableCount := throw .missingOperation
  valueOf _ := throw .missingOperation
  writeProblem := throw .missingOperation
  reset := throw .missingOperation

/-- An engine of any of the known kinds. -/
inductive AnyEngine where
  | table (e : TableEngine)
  | scripted (e : Traced Scripted)
  | blank
  | methodless (e : Methodless)

namespace AnyEngine

/-- Carries an operation out that every engine has. -/
def dispatch {α : Type} (op : {E : Type} → [Engine E] → Op E α) :
    Op AnyEngine α :=
  fun ⟨object, host⟩ =>
    match object with
    | .table e =>
        match (op : Op TableEngine α) ⟨e, host⟩ with
        | .ok a p => .ok a ⟨.table p.object, p.host⟩
        | .error f p => .error f ⟨.table p.object, p.host⟩
    | .scripted e =>
        match (op : Op (Traced Scripted) α) ⟨e, host⟩ with
        | .ok a p => .ok a ⟨.scripted p.object, p.host⟩
        | .error f p => .error f ⟨.scripted p.object, p.host⟩
    | .blank =>
        match (op : Op Blank α) ⟨⟨⟩, host⟩ with
        | .ok a p => .ok a ⟨.blank, p.host⟩
        | .error f p => .error f ⟨.blank, p.host⟩
    | .methodless e =>
        match (op : Op Methodless α) ⟨e, host⟩ with
        | .ok a p => .ok a ⟨.methodless p.object, p.host⟩
        | .error f p => .error f ⟨.methodless p.object, p.host⟩

instance : Engine AnyEngine where
  setVerbosity level := dispatch (Engine.setVerbosity level)
  reserveVariables count := dispatch (Engine.reserveVariables count)
  setPropagationLimit limit := dispatch (Engine.setPropagationLimit limit)
  addLiteral literal := dispatch (Engine.addLiteral literal)
  terminateClause := dispatch Engine.terminateClause
  solve budget := dispatch (Engine.solve budget)
  variableCount := dispatch Engine.variableCount
  valueOf index := dispatch (Engine.valueOf index)
  writeProblem := dispatch Engine.writeProblem
  reset := dispatch Engine.reset

/-- The closed clauses, which only the engine with tables can tell. -/
def clauses : Op AnyEngine (List (List Int)) :=
  fun ⟨object, host⟩ =>
    match object with
    | .table e =>
        match TableEngine.clauses ⟨e, host⟩ with
        | .ok a p => .ok a ⟨.table p.object, p.host⟩
        | .error f p => .error f ⟨.table p.object, p.host⟩
    | other => .error .missingOperation ⟨other, host⟩

end AnyEngine

end SatSession
