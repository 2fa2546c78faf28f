/-
The stage of a scenario: its objects and buffers by name.

An object enters the stage when it has been made, and takes the place of
an object of the same name, which is dropped then. A cursor that is
dropped is closed; whatever goes wrong in that is not reported any more.
What a cursor has produced is remembered under its name until another
object takes the name.
-/
import SatSession.Scenario.Step

namespace SatSession.Scenario

/-- An object, with the clauses that its solutions have to satisfy. -/
inductive Actor where
  | engine (e : AnyEngine)
  | session (s : Session AnyEngine) (clauses : Solution.Clauses)
  | cursor (c : Cursor AnyEngine) (clauses : Solution.Clauses)

/-- A stage. -/
structure Stage where
  /-- What the environment says about the engine to use. -/
  environment : Option String := none
  view : Solution.View := .sorted
  actors : List (String × Actor) := []
  buffers : List (String × BlockId) := []
  /-- The solutions that came from the object of each name, in order. -/
  produced : List (String × List Solution) := []

/-- An operation on a stage. -/
abbrev StageOp := Op Stage

namespace Stage

variable {α : Type}

-- ====================================================== named entries

/-- The entries of a list except those under a name. -/
def without (name : String) (entries : List (String × α)) :
    List (String × α) :=
  entries.filter fun entry => entry.1 != name

/-- Puts an entry into a list in place of those under its name. -/
def enter (name : String) (a : α) (entries : List (String × α)) :
    List (String × α) :=
  (name, a) :: without name entries

/-- The solutions that came under a name. -/
def producedBy (stage : Stage) (name : String) : List Solution :=
  (stage.produced.lookup name).getD []

-- ============================================================== actors

/-- Carries out an operation on the object of a name. The object leaves
the stage for that time; afterwards it is back as the operation left it,
also when that was a fault. -/
def withActor (name : String) (op : Op Actor α) : StageOp α :=
  fun ⟨stage, host⟩ =>
    match stage.actors.lookup name with
    | none => .error .missingOperation ⟨stage, host⟩
    | some actor =>
        let stage := { stage with actors := without name stage.actors }
        let back (a : Actor) : Stage :=
          { stage with actors := (name, a) :: stage.actors }
        match op ⟨actor, host⟩ with
        | .ok a p => .ok a ⟨back p.object, p.host⟩
        | .error f p => .error f ⟨back p.object, p.host⟩

/-- Carries out an operation on a cursor that nobody holds any longer;
its fault is lost. -/
def forget (op : Op (Cursor AnyEngine) Unit) (c : Cursor AnyEngine) :
    StageOp Unit :=
  fun ⟨stage, host⟩ =>
    match op ⟨c, host⟩ with
    | .ok _ p => .ok () ⟨stage, p.host⟩
    | .error _ p => .ok () ⟨stage, p.host⟩

/-- Drops the object of a name, if there is one. -/
def drop (name : String) : StageOp Unit := do
  let stage ← Op.read
  Op.update fun stage => { stage with actors := without name stage.actors }
  match stage.actors.lookup name with
  | some (.cursor c _) => forget Cursor.close c
  | _ => pure ()

/-- Makes an object and puts it on the stage. Nothing has come under its
name then. -/
def make (name : String) (op : HostOp Actor) : StageOp Unit := do
  let actor ← Op.onHost op
  drop name
  Op.update fun stage => { stage with
    actors := enter name actor stage.actors
    produced := without name stage.produced }

-- ============================================================= history

/-- Notes solutions that came under a name. -/
def note (name : String) (solutions : List Solution) : StageOp Unit :=
  Op.update fun stage => { stage with
    produced := enter name (stage.producedBy name ++ solutions)
      stage.produced }

/-- Holds a buffer under a name, or nothing. -/
def hold (buffer : String) (b : Option BlockId) : StageOp Unit :=
  Op.update fun stage => { stage with
    buffers := match b with
      | some b => enter buffer b stage.buffers
      | none => without buffer stage.buffers }

end Stage

end SatSession.Scenario
