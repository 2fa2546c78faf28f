/-
Sessions: one engine from its making to its release.

A session is made with all clauses loaded, or not at all: when anything
fails on the way the engine is reset before the fault goes on. From then
on the session remembers what its last invocation said, and refuses
whatever needs an assignment while the last word is another one.
-/
import SatSession.Clause
import SatSession.Config

namespace SatSession

/-- A session over an engine. -/
structure Session (E : Type) where
  engine : E
  config : Config
  last : Option Outcome := none
  /-- The number of searches that answered. -/
  invocations : Nat := 0
  destroyed : Bool := false

namespace Outcome

/-- The outcome for a whole number. -/
def ofInt? (code : Int) : Option Outcome :=
  if code = 10 then some .satisfiable
  else if code = 20 then some .unsatisfiable
  else if code = 0 then some .unknown
  else none

/-- The name under which the codes of outcomes go together. -/
def codesName : String := "SatResult"

/-- The outcome that a code stands for. Only whole numbers are codes:
neither a truth value nor a double that equals one will do. -/
def ofCode (code : Value) : Except Fault Outcome :=
  match code with
  | .number (.int n) =>
      match ofInt? n with
      | some o => .ok o
      | none => .error (.codeRange (toString n) codesName)
  | v => .error (.codeKind v.kind)

end Outcome

namespace Session

variable {E : Type} {α : Type}

/-- An operation on the engine of a session. -/
def onEngine (op : Op E α) : Op (Session E) α :=
  Op.within engine (fun e s => { s with engine := e }) op

variable [Engine E]

-- ======================================================== invocations

/-- Lets the engine search. A code that stands for nothing leaves the
session without a last outcome; a search that fails leaves it as it
was. -/
def invoke (budget : Value) : Op (Session E) Outcome := do
  if (← Op.read).destroyed then throw .sessionDestroyed
  let code ← onEngine (Engine.solve budget)
  Op.update fun s => { s with invocations := s.invocations + 1 }
  match Outcome.ofCode code with
  | .error _ =>
      Op.update fun s => { s with last := none }
      throw (.engineCode code)
  | .ok outcome =>
      Op.update fun s => { s with last := some outcome }
      let s ← Op.read
      Op.onHost (Host.note (.invocation s.invocations outcome))
      return outcome

/-- The budget of an invocation that has no cap of its own. -/
def noBudget : Value := .int (-1)

/-- Fails unless the last invocation was satisfiable. -/
def requireModel : Op (Session E) Unit := do
  let s ← Op.read
  if s.destroyed then throw .sessionDestroyed
  if s.last ≠ some .satisfiable then throw (.noAssignment s.last)

/-- Resets the engine; a second time does nothing. The session counts as
destroyed even if the reset fails. -/
def destroy : Op (Session E) Unit := do
  if (← Op.read).destroyed then return
  Op.update fun s => { s with destroyed := true, last := none }
  onEngine Engine.reset
  let s ← Op.read
  Op.onHost (Host.note (.sessionDestroyed s.invocations))

-- =========================================================== creation

/-- Sets an engine up and loads the clauses; answers their number. -/
def load (config : Config) (clauses : Value) : Op E Nat := do
  Engine.setVerbosity (.int config.verbose)
  if config.vars ≠ -1 then Engine.reserveVariables (.int config.vars)
  if config.propLimit ≠ 0 then
    Engine.setPropagationLimit (.int config.propLimit)
  let count ← loadClauses clauses
  if 2 ≤ config.verbose then
    let text ← Engine.writeProblem
    Op.onHost (Host.print text)
  return count

/-- What is done with a fresh engine: loading, guarded by a reset, and
then, outside the guard, the log entry, for which the engine is asked how
many variables it has. It may answer anything: an entry that cannot be
written out does no harm unless the reader of the log objects. -/
def prepare (config : Config) (clauses : Value) : Op E Unit := do
  let count ← Op.orRelease (load config clauses) Engine.reset
  let varCount ← Engine.variableCount
  Op.onHost (Host.noteCreated count varCount)

/-- Makes an engine and a session that owns it. -/
def create (make : HostOp E) (config : Config) (clauses : Value) :
    HostOp (Session E) := do
  let engine ← make
  let ((), engine) ← Op.on engine (prepare config clauses)
  return { engine := engine, config := config }

end Session

end SatSession
