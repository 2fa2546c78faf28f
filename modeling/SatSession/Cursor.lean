/-
Cursors: the solutions of a problem one after the other.

A cursor owns a session and a buffer. Each advance asks for a solution
and blocks it, so that no solution comes twice; when no further one is
found the cursor is exhausted. The session and the buffer are released
once, as soon as the cursor is closed: when it is exhausted, when an
advance fails, or on request. A closed cursor ends at once.
-/
import SatSession.Solution

namespace SatSession

/-- A cursor over an engine. -/
structure Cursor (E : Type) where
  session : Session E
  scratch : Option BlockId := none
  exhausted : Bool := false
  closed : Bool := false
  /-- The number of solutions produced. -/
  count : Nat := 0

namespace Cursor

variable {E : Type} {α : Type}

/-- An operation on the session of a cursor. -/
def onSession (op : Op (Session E) α) : Op (Cursor E) α :=
  Op.within session (fun s c => { c with session := s }) op

variable [Engine E]

/-- Gives the buffer back. It is forgotten first, so that it is given
back at most once. -/
def releaseScratch : Op (Cursor E) Unit := do
  match (← Op.read).scratch with
  | none => pure ()
  | some b =>
      Op.update fun c => { c with scratch := none }
      let size := (← get).host.heap.size b
      Op.onHost (Host.free b (.int size))

/-- Releases the buffer and the session, the session even if the buffer
cannot be given back; a second time does nothing. -/
def close : Op (Cursor E) Unit := do
  if (← Op.read).closed then return
  Op.update fun c => { c with closed := true }
  Op.thenAlways releaseScratch (onSession Session.destroy)

/-- One advance of an open cursor before anything is released: the next
solution, blocked, or the outcome that ends the enumeration. -/
def advance : Op (Cursor E) (Outcome × Option Solution) := do
  let outcome ← onSession (Session.invoke Session.noBudget)
  if outcome = .satisfiable then
    let solution ← onSession Session.decode
    let buffer ← onSession (Session.block (← Op.read).scratch)
    Op.update fun c =>
      { c with scratch := some buffer, count := c.count + 1 }
    return (outcome, some solution)
  else return (outcome, none)

/-- The next solution, or none when the enumeration has ended. -/
def next : Op (Cursor E) (Option Solution) := do
  let c ← Op.read
  if c.exhausted || c.closed then return none
  match ← Op.orRelease advance close with
  | (_, some solution) => return some solution
  | (outcome, none) =>
      let c ← Op.read
      Op.onHost (Host.note (.enumerationFinished c.count outcome))
      Op.update fun c => { c with exhausted := true }
      close
      return none

/-- More solutions than any run can go through. -/
def endless : Nat := 0x4000000000000000

/-- The next solutions up to the end, but at most a given number. -/
def take : (limit : Nat) → Op (Cursor E) (List Solution)
  | 0 => pure []
  | limit + 1 => do
      match ← next with
      | none => return []
      | some solution =>
          let rest ← take limit
          return solution :: rest

/-- A fresh cursor over a session. -/
def ofSession (s : Session E) : Cursor E := { session := s }

end Cursor

end SatSession
