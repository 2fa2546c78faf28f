/-
Solving in one call.

`solve` makes a session, asks once and destroys the session, whatever
happens in between; `enumerate` makes a session and hands it to a cursor,
and `enumerateUpTo` also goes through the solutions and closes the
cursor. Settings are checked before anything is made.
-/
import SatSession.Cursor

namespace SatSession

/-- The answer of a single call. -/
inductive Answer where
  | solution (literals : Solution)
  | unsatisfiable
  | unknown

namespace Answer

/-- The word for a problem without a solution. -/
def unsatWord : String := "UNSAT"

/-- The word for a search that gave up. -/
def unknownWord : String := "UNKNOWN"

end Answer

section

variable {E : Type} [Engine E]

/-- Asks a session once. -/
def Session.answer : Op (Session E) Answer := do
  match ← Session.invoke Session.noBudget with
  | .satisfiable => return .solution (← Session.decode)
  | .unsatisfiable => return .unsatisfiable
  | .unknown => return .unknown

/-- Asks a session once and destroys it, before the answer as before a
fault. -/
def Session.answerAndDestroy : Op (Session E) Answer := do
  let answer ← Op.orRelease Session.answer Session.destroy
  Session.destroy
  return answer

/-- Settings that have passed the check, as a step on a host. -/
def checkedConfig (vars verbose propLimit : Value) : HostOp Config :=
  match Config.build vars verbose propLimit with
  | .ok config => pure config
  | .error f => throw f

/-- Solves a problem. -/
def solve (make : HostOp E) (clauses vars verbose propLimit : Value) :
    HostOp Answer := do
  let config ← checkedConfig vars verbose propLimit
  let session ← Session.create make config clauses
  let (answer, _) ← Op.on session Session.answerAndDestroy
  return answer

/-- Makes a cursor over the solutions of a problem. -/
def enumerate (make : HostOp E) (clauses vars verbose propLimit : Value) :
    HostOp (Cursor E) := do
  let config ← checkedConfig vars verbose propLimit
  let session ← Session.create make config clauses
  return .ofSession session

/-- What a cursor gave before it was closed, and how it stood then. -/
structure Enumeration where
  solutions : List Solution
  count : Nat
  exhausted : Bool
  closed : Bool

/-- Takes solutions from a cursor and closes it. -/
def Cursor.takeAndClose (limit : Nat) : Op (Cursor E) Enumeration := do
  let solutions ← Cursor.take limit
  let c ← Op.read
  Cursor.close
  return ⟨solutions, c.count, c.exhausted, c.closed⟩

/-- The first solutions of a problem, up to a limit. -/
def enumerateUpTo (limit : Nat) (make : HostOp E)
    (clauses vars verbose propLimit : Value) : HostOp Enumeration := do
  let cursor ← enumerate make clauses vars verbose propLimit
  let (enumeration, _) ← Op.on cursor (Cursor.takeAndClose limit)
  return enumeration

end

end SatSession
