/-
Scenarios: several engines, sessions and cursors on one host, and the
steps that are taken with them.

The objects of a scenario have names. A step names the object that it is
meant for and can be meant for one of the wrong sort, so there is one
vocabulary of steps for all sorts. Every step that does not end in a
fault has a reply.
-/
import SatSession.Catalogue.Resolve
import SatSession.Solution.View
import SatSession.Solve

namespace SatSession.Scenario

-- ============================================================ the steps

/-- What can be asked of an engine, or of the engine of a session. -/
inductive EngineStep where
  | setVerbosity (level : Value)
  | reserve (count : Value)
  | setLimit (limit : Value)
  | add (literal : Value)
  | terminate
  /-- Adds literals one by one and closes the clause. -/
  | addClause (literals : Value)
  /-- Loads a clause set. -/
  | load (clauses : Value)
  | solve (budget : Value)
  | variableCount
  | valueOf (index : Value)
  | listClauses
  | document
  | reset

/-- What can be asked of a session. -/
inductive SessionStep where
  | invoke (budget : Value)
  | decode
  | requireModel
  /-- Blocks the solution, by the help of the buffer of a name. -/
  | block (buffer : String)
  | destroy

/-- What can be asked of a cursor. -/
inductive CursorStep where
  | next
  | drain
  | close
  /-- Whether going through the cursor starts with the cursor itself. -/
  | isOwnIterator

/-- What can be asked of sessions and cursors alike. -/
inductive OwnerStep where
  | enter
  | leave
  | describe

/-- The settings of a session before they are checked. -/
structure Settings where
  vars : Value := .int (-1)
  verbose : Value := .int 0
  propLimit : Value := .int 0

/-- A step. -/
inductive Step where
  | makeEngine (name : String) (engine : Catalogue.Choice)
  | makeSession (name : String) (clauses : Value) (settings : Settings)
      (engine : Catalogue.Choice)
  | makeCursor (name : String) (clauses : Value) (settings : Settings)
      (engine : Catalogue.Choice)
  | withEngine (name : String) (step : EngineStep)
  | withSession (name : String) (step : SessionStep)
  | withCursor (name : String) (step : CursorStep)
  | withOwner (name : String) (step : OwnerStep)
  /-- Forgets an object. -/
  | drop (name : String)
  /-- Takes a buffer from the memory and fills it with one byte. -/
  | takeBuffer (buffer : String) (size : Value) (fill : UInt8)
  | giveBuffer (buffer : String)
  /-- Assigns the limit of the memory. -/
  | limitMemory (limit : Value)

-- ========================================================== the replies

/-- The reply to a step. -/
inductive Reply where
  | done
  | yes
  | value (v : Value)
  | number (n : Nat)
  | text (s : String)
  | outcome (o : Outcome)
  | clauses (clauses : List (List Int))
  | solution (s : Solution.Shown)
  /-- A cursor was advanced: the solution and whether it is new under the
  name, or none at the end. -/
  | advanced (found : Option (Solution.Shown × Bool))
  /-- A cursor was advanced to its end: how many solutions came, whether
  all of them were new, and, if nothing is left, all that ever came, which
  no longer depend on the engine's choices and are shown in full. -/
  | drained (count : Nat) (fresh : Bool) (all : Option (List Solution))
  /-- A solution was blocked: whether the buffer is the one that was
  given, its size and, if it is to be shown, what it holds. -/
  | blocked (same : Bool) (size : Nat) (contents : Option Block)
  | cursor (count : Nat) (exhausted closed : Bool)
  | session (last : Option Outcome) (invocations : Nat) (destroyed : Bool)
      (config : Config)

end SatSession.Scenario
