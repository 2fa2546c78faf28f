/-
An engine that answers from a script.

The script lists the codes and the assignments of its searches in order,
the last of each list standing for all later ones, and may name for each
method one call, by its number, that fails before it does anything. Apart
from that the engine only keeps the largest variable it has heard of.
-/
import SatSession.Engine

namespace SatSession

/-- What a scripted engine answers. -/
structure Script where
  codes : List Value := [.int 10]
  models : List (List Value) := [[]]
  /-- For methods by name, the number of the call that fails. -/
  failures : List (String × Int) := []

/-- The state of a scripted engine. -/
structure Scripted where
  script : Script
  /-- The number of calls so far, for methods by name. -/
  calls : List (String × Nat) := []
  varCount : Value := .int 0
  /-- The number of searches answered. -/
  searches : Nat := 0

namespace Scripted

/-- The count of a name after one more occurrence, and the new counts. -/
def bump (name : String) : List (String × Nat) → Nat × List (String × Nat)
  | [] => (1, [(name, 1)])
  | (other, n) :: rest =>
      if other == name then (n + 1, (other, n + 1) :: rest)
      else
        let (count, rest) := bump name rest
        (count, (other, n) :: rest)

/-- Counts a call and fails if the script says so. -/
def enter (c : Call) : Op Scripted Unit := do
  let e ← Op.read
  let (count, calls) := bump c.method e.calls
  Op.update fun e => { e with calls := calls }
  if e.script.failures.lookup c.method = some (count : Int) then
    throw (.callFailure c.method)

/-- The entry of a list for an occasion counted from zero; later
occasions have the last one. -/
def entryFor {α : Type} (entries : List α) (occasion : Nat) : Option α :=
  entries[min occasion (entries.length - 1)]?

/-- Raises the largest variable. -/
def hear (varCount : Value) : Op Scripted Unit := do
  let e ← Op.read
  let larger ← settle (e.varCount.larger varCount)
  Op.update fun e => { e with varCount := larger }

/-- The assignment that is shown: that of the latest search, before any
search the first. -/
def shown (e : Scripted) : Option (List Value) :=
  entryFor e.script.models (e.searches - 1)

/-- The entry at a place that may also be counted from the end, by
negative numbers. -/
def pick (model : List Value) (place : Int) : Except Fault Value :=
  let i := if place < 0 then place + model.length else place
  if i < 0 then .error .indexRange
  else match model[i.toNat]? with
    | some v => .ok v
    | none => .error .indexRange

/-- The value of a variable: one if the assignment shown is too short for
it, otherwise the entry one before its number. -/
def valueOf (index : Value) : Op Scripted Value := do
  enter (.valueOf index)
  match (← Op.read).shown with
  | none => throw .indexRange
  | some model =>
      if !(← settle (index.le (.int model.length))) then return .int 1
      let place ← settle (index.sub (.int 1))
      match place.whole? with
      | none => throw .wrongKind
      | some i =>
          match pick model i with
          | .ok v => return v
          | .error f => throw f

/-- The code of the next search. -/
def solve (budget : Value) : Op Scripted Value := do
  enter (.solve budget)
  let e ← Op.read
  match entryFor e.script.codes e.searches with
  | none => throw .indexRange
  | some code =>
      Op.update fun e => { e with searches := e.searches + 1 }
      return code

instance : Engine Scripted where
  setVerbosity level := enter (.setVerbosity level)
  reserveVariables count := do
    enter (.reserveVariables count)
    hear count
  setPropagationLimit limit := enter (.setPropagationLimit limit)
  addLiteral literal := do
    enter (.addLiteral literal)
    hear (← settle literal.abs)
  terminateClause := enter .terminateClause
  solve := solve
  variableCount := do
    enter .variableCount
    return (← Op.read).varCount
  valueOf := valueOf
  writeProblem := do
    enter .writeProblem
    let varCount := (← Op.read).varCount
    if !varCount.isWritable then throw .numeralLength
    return "fake problem " ++ varCount.plainText ++ "\n"
  reset := enter .reset

/-- Makes a scripted engine whose calls are traced. Its making is itself
a call, which may fail. -/
def create (script : Script) : HostOp (Traced Scripted) := do
  Host.record (.call .create)
  let ((), engine) ← Op.on { script := script } (enter .create)
  return ⟨engine⟩

end Scripted

end SatSession
