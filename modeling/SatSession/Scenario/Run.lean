/-
What the steps of a scenario do.

A step that is meant for an object of the wrong sort fails as asking for
something that the object does not have; what can only be gone through
fails as being of the wrong kind. A fault ends its step and nothing else:
the scenario goes on with the stage as the step left it. The report on a
step says what became of it, where the counters of the memory stand, and
what appeared on the channels of the host meanwhile.
-/
import SatSession.Scenario.Stage

namespace SatSession.Scenario

-- ============================================================== engines

/-- Adds literals one by one and closes the clause. -/
def addLiterals {E : Type} [Engine E] (literals : Value) : Op E Unit :=
  match literals.items? with
  | none => throw .wrongKind
  | some items => do
      items.foldlM (fun _ l => Engine.addLiteral l) ()
      Engine.terminateClause

/-- A step of an engine. -/
def EngineStep.perform : EngineStep → Op AnyEngine Reply
  | .setVerbosity level => do Engine.setVerbosity level; return .done
  | .reserve count => do Engine.reserveVariables count; return .done
  | .setLimit limit => do Engine.setPropagationLimit limit; return .done
  | .add literal => do Engine.addLiteral literal; return .done
  | .terminate => do Engine.terminateClause; return .done
  | .addClause literals => do addLiterals literals; return .done
  | .load clauses => do return .number (← loadClauses clauses)
  | .solve budget => do return .value (← Engine.solve budget)
  | .variableCount => do return .value (← Engine.variableCount)
  | .valueOf index => do return .value (← Engine.valueOf index)
  | .listClauses => do return .clauses (← AnyEngine.clauses)
  | .document => do return .text (← Engine.writeProblem)
  | .reset => do Engine.reset; return .done

/-- The clause that a step has added when it ends without a fault. -/
def EngineStep.added : EngineStep → Solution.Clauses
  | .addClause literals => [Clause.literals literals]
  | _ => []

/-- A step of the engine that an object is or has. A cursor keeps its
engine to itself. -/
def onEngineOf (step : EngineStep) : Op Actor Reply := fun ⟨actor, host⟩ =>
  match actor with
  | .engine e =>
      match step.perform ⟨e, host⟩ with
      | .ok a p => .ok a ⟨.engine p.object, p.host⟩
      | .error f p => .error f ⟨.engine p.object, p.host⟩
  | .session s clauses =>
      match Session.onEngine step.perform ⟨s, host⟩ with
      | .ok a p => .ok a ⟨.session p.object (clauses ++ step.added), p.host⟩
      | .error f p => .error f ⟨.session p.object clauses, p.host⟩
  | .cursor c clauses =>
      match step.perform ⟨.methodless {}, host⟩ with
      | .ok a p => .ok a ⟨.cursor c clauses, p.host⟩
      | .error f p => .error f ⟨.cursor c clauses, p.host⟩

-- ============================================================= sessions

/-- Carries out an operation on a session. -/
def onSessionOf {α : Type}
    (op : Solution.Clauses → Op (Session AnyEngine) α) : Op Actor α :=
  fun ⟨actor, host⟩ =>
    match actor with
    | .session s clauses =>
        match op clauses ⟨s, host⟩ with
        | .ok a p => .ok a ⟨.session p.object clauses, p.host⟩
        | .error f p => .error f ⟨.session p.object clauses, p.host⟩
    | other => .error .missingOperation ⟨other, host⟩

/-- Blocks a solution and holds the buffer under its name. -/
def Stage.block (name buffer : String) : StageOp Reply := do
  let stage ← Op.read
  let given := stage.buffers.lookup buffer
  let b ← Stage.withActor name (onSessionOf fun _ => Session.block given)
  Stage.hold buffer (some b)
  let contents := (← get).host.heap.contents b
  return .blocked (given = some b) contents.size
    (if stage.view = .shape then none else some contents)

/-- A step of a session. -/
def SessionStep.perform (name : String) : SessionStep → StageOp Reply
  | .invoke budget =>
      Stage.withActor name (onSessionOf fun _ => do
        return .outcome (← Session.invoke budget))
  | .decode => do
      let view := (← Op.read).view
      Stage.withActor name (onSessionOf fun clauses => do
        return .solution (Solution.shown view clauses (← Session.decode)))
  | .requireModel =>
      Stage.withActor name (onSessionOf fun _ => do
        Session.requireModel
        return .done)
  | .block buffer => Stage.block name buffer
  | .destroy =>
      Stage.withActor name (onSessionOf fun _ => do
        Session.destroy
        return .done)

-- ============================================================== cursors

/-- Carries out an operation on a cursor; any other object answers with
the given fault. -/
def onCursorOf {α : Type} (otherwise : Fault)
    (op : Op (Cursor AnyEngine) α) : Op Actor (α × Solution.Clauses) :=
  fun ⟨actor, host⟩ =>
    match actor with
    | .cursor c clauses =>
        match op ⟨c, host⟩ with
        | .ok a p => .ok (a, clauses) ⟨.cursor p.object clauses, p.host⟩
        | .error f p => .error f ⟨.cursor p.object clauses, p.host⟩
    | other => .error otherwise ⟨other, host⟩

/-- Advances a cursor. -/
def Stage.advance (name : String) : StageOp Reply := do
  let (found, clauses) ←
    Stage.withActor name (onCursorOf .wrongKind Cursor.next)
  match found with
  | none => return .advanced none
  | some s =>
      let stage ← Op.read
      Stage.note name [s]
      return .advanced (some (Solution.shown stage.view clauses s,
        !s.among (stage.producedBy name)))

/-- Advances a cursor to its end. Solutions that came before a fault are
not noted. -/
def Stage.drain (name : String) : StageOp Reply := do
  let (found, _) ← Stage.withActor name
    (onCursorOf .wrongKind (Cursor.take Cursor.endless))
  let (c, _) ← Stage.withActor name (onCursorOf .wrongKind Op.read)
  let earlier := (← Op.read).producedBy name
  Stage.note name found
  return .drained found.length (!found.any (·.among earlier))
    (if c.exhausted then
      some (Solution.sorted (Solution.distinct (earlier ++ found)))
    else none)

/-- A step of a cursor. -/
def CursorStep.perform (name : String) : CursorStep → StageOp Reply
  | .next => Stage.advance name
  | .drain => Stage.drain name
  | .close => do
      let _ ← Stage.withActor name (onCursorOf .missingOperation Cursor.close)
      return .done
  | .isOwnIterator => do
      let _ ← Stage.withActor name (onCursorOf .wrongKind (pure ()))
      return .yes

-- ================================================= sessions and cursors

/-- A step that sessions and cursors know. -/
def OwnerStep.perform (step : OwnerStep) : Op Actor Reply :=
  fun ⟨actor, host⟩ =>
    match step, actor with
    | _, .engine e => .error .missingOperation ⟨.engine e, host⟩
    | .enter, actor => .ok .yes ⟨actor, host⟩
    | .leave, .session s clauses =>
        match Session.destroy ⟨s, host⟩ with
        | .ok _ p => .ok .done ⟨.session p.object clauses, p.host⟩
        | .error f p => .error f ⟨.session p.object clauses, p.host⟩
    | .leave, .cursor c clauses =>
        match Cursor.close ⟨c, host⟩ with
        | .ok _ p => .ok .done ⟨.cursor p.object clauses, p.host⟩
        | .error f p => .error f ⟨.cursor p.object clauses, p.host⟩
    | .describe, .session s clauses =>
        .ok (.session s.last s.invocations s.destroyed s.config)
          ⟨.session s clauses, host⟩
    | .describe, .cursor c clauses =>
        .ok (.cursor c.count c.exhausted c.closed) ⟨.cursor c clauses, host⟩

-- ================================================== making and memory

/-- What stands on the stage when an engine was wanted. A cursor that was
given no session is one over a session whose engine has no methods. -/
def Actor.ofEngine : AnyEngine → Actor
  | .methodless ⟨true⟩ =>
      .cursor (.ofSession { engine := .methodless {}, config := {} }) []
  | e => .engine e

/-- Makes a session. -/
def Actor.newSession (environment : Option String) (clauses : Value)
    (settings : Settings) (engine : Catalogue.Choice) : HostOp Actor := do
  let config ←
    checkedConfig settings.vars settings.verbose settings.propLimit
  let session ← Session.create (engine.make environment) config clauses
  return .session session (Clause.known clauses)

/-- Makes a cursor. -/
def Actor.newCursor (environment : Option String) (clauses : Value)
    (settings : Settings) (engine : Catalogue.Choice) : HostOp Actor := do
  let cursor ← enumerate (engine.make environment) clauses settings.vars
    settings.verbose settings.propLimit
  return .cursor cursor (Clause.known clauses)

/-- Takes a buffer and fills it with one byte; a refused one is not
held. -/
def Stage.takeBuffer (buffer : String) (size : Value) (fill : UInt8) :
    StageOp Unit := do
  let b ← Op.onHost (Host.alloc size)
  match b with
  | none => pure ()
  | some b =>
      let length := (← get).host.heap.size b
      Op.onHost (Host.onHeap (Op.each
        (fun i => Heap.poke b i fill) length 0))
  Stage.hold buffer b

/-- Gives a buffer back and forgets it. -/
def Stage.giveBuffer (buffer : String) : StageOp Unit := do
  match (← Op.read).buffers.lookup buffer with
  | none => pure ()
  | some b =>
      Stage.hold buffer none
      let size := (← get).host.heap.size b
      Op.onHost (Host.free b (.int size))

-- ================================================================ steps

/-- What a step does. -/
def Step.perform : Step → StageOp Reply
  | .makeEngine name engine => do
      let environment := (← Op.read).environment
      Stage.make name do return .ofEngine (← engine.make environment)
      return .done
  | .makeSession name clauses settings engine => do
      let environment := (← Op.read).environment
      Stage.make name (Actor.newSession environment clauses settings engine)
      return .done
  | .makeCursor name clauses settings engine => do
      let environment := (← Op.read).environment
      Stage.make name (Actor.newCursor environment clauses settings engine)
      return .done
  | .withEngine name step => Stage.withActor name (onEngineOf step)
  | .withSession name step => step.perform name
  | .withCursor name step => step.perform name
  | .withOwner name step => Stage.withActor name step.perform
  | .drop name => do Stage.drop name; return .done
  | .takeBuffer buffer size fill => do
      Stage.takeBuffer buffer size fill
      return .done
  | .giveBuffer buffer => do Stage.giveBuffer buffer; return .done
  | .limitMemory limit => do
      Op.onHost (Host.onHeap (Heap.setLimit limit))
      return .done

/-- The report on a step. -/
structure Report where
  result : Except Fault Reply
  inUse : Number
  peak : Number
  live : Int
  console : String
  log : List LogEntry
  trace : List Event

/-- Takes a step and reports on it; the channels are emptied first. -/
def report (step : Step) (p : Placed Stage) : Report × Placed Stage :=
  let start := { p with
    host := { p.host with trace := #[], log := #[], console := "" } }
  let close (result : Except Fault Reply) (p : Placed Stage) :
      Report × Placed Stage :=
    (⟨result, p.host.heap.inUseNumber, p.host.heap.peakNumber,
      p.host.heap.live, p.host.console, p.host.log.toList,
      p.host.trace.toList⟩, p)
  match step.perform start with
  | .ok reply p => close (.ok reply) p
  | .error f p => close (.error f) p

/-- The reports on the steps of a scenario. -/
def run : List Step → Placed Stage → List Report
  | [], _ => []
  | step :: rest, p =>
      let (r, p) := report step p
      r :: run rest p

end SatSession.Scenario
