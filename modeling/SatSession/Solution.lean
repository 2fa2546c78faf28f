/-
Assignments as lists of signed numbers, and the clauses that block them.

Entry `i` of a solution is `i` when variable `i` is true and `-i` when it
is false. Blocking a solution adds the clause of all opposite literals,
which just this assignment fails. The polarities are read once more into
a buffer before the first literal is added, since adding literals may
change what the engine shows.
-/
import SatSession.Session

namespace SatSession

/-- The literals of an assignment. -/
abbrev Solution := List Value

namespace Session

variable {E : Type} [Engine E]

/-- The polarity of a variable: one or minus one, in whatever kind of
number the engine says it. -/
def polarity (index : Nat) : Op (Session E) Value := do
  let v ← onEngine (Engine.valueOf (.int index))
  let positive ← settle (v.eqInt 1)
  if positive then return v
  let negative ← settle (v.eqInt (-1))
  if negative then return v
  throw (.engineValue index v)

/-- The numbers of the variables below a count: how many there are. A
count that is no whole number counts nothing. -/
def variablesBelow (bound : Value) : Op (Session E) Nat :=
  match bound.whole? with
  | some n => pure (n - 1).toNat
  | none => throw .wrongKind

/-- The literal of one variable in the current assignment. -/
def signedVariable (index : Nat) : Op (Session E) Value := do
  let v ← polarity index
  settle (v.mul (.int index))

/-- The current assignment. -/
def decode : Op (Session E) Solution := do
  requireModel
  let n ← onEngine Engine.variableCount
  let bound ← settle (n.add (.int 1))
  let count ← variablesBelow bound
  Op.collect signedVariable count 1

/-- A buffer with room for a number of bytes: the given one, grown if it
is too short, or a new one. -/
def scratchFor (scratch : Option BlockId) (bytes : Value) :
    Op (Session E) BlockId := do
  match scratch with
  | none =>
      match ← Op.onHost (Host.alloc bytes) with
      | some b => return b
      | none => throw (.outOfMemory .blockingBuffer)
  | some b =>
      let size : Value := .int ((← get).host.heap.size b)
      if ← settle (size.lt bytes) then
        if !(← Op.onHost (Host.realloc b size bytes)) then
          throw (.outOfMemory .blockingBuffer)
      return b

/-- Notes the polarity of a variable in the buffer. -/
def notePolarity (scratch : BlockId) (index : Nat) : Op (Session E) Unit := do
  let v ← polarity index
  let positive ← settle ((Value.int 0).lt v)
  Op.onHost (Host.onHeap (Heap.poke scratch index (if positive then 1 else 0)))

/-- Adds the literal that is false in the noted assignment. -/
def addOpposite (scratch : BlockId) (index : Nat) : Op (Session E) Unit := do
  match (← get).host.heap.byte? scratch index with
  | none => throw .indexRange
  | some byte =>
      onEngine (Engine.addLiteral
        (.int (if byte ≠ 0 then -(index : Int) else index)))

/-- Adds the clause that rules the current assignment out; answers the
buffer, which the caller owns. -/
def block (scratch : Option BlockId) : Op (Session E) BlockId := do
  requireModel
  let n ← onEngine Engine.variableCount
  let bytes ← settle (n.add (.int 1))
  let buffer ← scratchFor scratch bytes
  let count ← variablesBelow bytes
  Op.each (notePolarity buffer) count 1
  Op.each (addOpposite buffer) count 1
  onEngine Engine.terminateClause
  return buffer

end Session

end SatSession
