/-
What propagation works on: the clauses by the literals that they watch,
and the literals made true so far.

A literal is known here by its slot, an even number for a variable and
the odd number behind it for its opposite, so that tables by literals are
arrays. A clause watches its first two literals. As long as neither is
false the clause forces nothing, so only the clauses that watch a literal
need a visit when it becomes false. A visited clause looks for another
literal to watch; one without forces its other watched literal, or is
false.

Nothing here has to be trusted: what is forced, and by which clause, only
guides a search whose clauses carry their own arguments.
-/
import SatSession.Search.Consequence

namespace SatSession.Learning

-- ============================================================== slots

/-- The literal that has a slot. -/
def slotLit (slot : Nat) : Int :=
  if slot % 2 = 0 then (slot / 2 : Nat) else -((slot / 2 : Nat) : Int)

/-- The slot of the opposite literal. -/
def oppositeSlot (slot : Nat) : Nat :=
  if slot % 2 = 0 then slot + 1 else slot - 1

/-- A slot stands for its literal. -/
theorem slotLit_litSlot (l : Int) : slotLit (litSlot l) = l := by
  unfold slotLit litSlot
  split <;> split <;> omega

/-- What is known of a literal. -/
inductive Standing where
  | open_
  | true_
  | false_
  deriving DecidableEq, Repr

-- ========================================================== the front

/-- The front of a search. A place beyond the end of an array is never
asked for. -/
structure Front where
  /-- The literals of each clause, by their slots. -/
  bodies : Array (Array Nat)
  /-- By slots, the clauses that watch the literal. -/
  watchers : Array (List Nat)
  /-- By slots, what is known of the literal. -/
  standings : Array Standing
  /-- By variables, the number of choices made before it got its value. -/
  levels : Array Nat
  /-- By variables, the clause that forced its value. -/
  reasons : Array (Option Nat)
  /-- The literals made true, in order. -/
  trail : Array Int

namespace Front

/-- A front without clauses for the variables below a bound. -/
def blank (bound : Nat) : Front where
  bodies := #[]
  watchers := Array.replicate (2 * bound) []
  standings := Array.replicate (2 * bound) .open_
  levels := Array.replicate bound 0
  reasons := Array.replicate bound none
  trail := #[]

/-- What is known of the literal in a slot. -/
def standing (f : Front) (slot : Nat) : Standing :=
  f.standings[slot]?.getD .open_

/-- The number of choices made before a literal got its value. -/
def level (f : Front) (l : Int) : Nat := f.levels[l.natAbs]?.getD 0

/-- Makes the literal in a slot true. -/
def assume (f : Front) (level slot : Nat) (reason : Option Nat) : Front :=
  { f with
    standings := (f.standings.setIfInBounds slot .true_).setIfInBounds
      (oppositeSlot slot) .false_
    levels := f.levels.setIfInBounds (slot / 2) level
    reasons := f.reasons.setIfInBounds (slot / 2) reason
    trail := f.trail.push (slotLit slot) }

/-- Makes the latest literal, which has the given slot, open again. -/
def retract (f : Front) (slot : Nat) : Front :=
  { f with
    standings := (f.standings.setIfInBounds slot .open_).setIfInBounds
      (oppositeSlot slot) .open_
    trail := f.trail.pop }

/-- Lets a clause watch the literal in a slot. -/
def watch (f : Front) (slot c : Nat) : Front :=
  { f with watchers := f.watchers.modify slot (c :: ·) }

/-- Puts the list of the clauses that watch a literal back. -/
def restore (f : Front) (slot : Nat) (watching : List Nat) : Front :=
  { f with watchers := f.watchers.setIfInBounds slot watching }

/-- Adds a clause, which does not watch anything yet. -/
def enter (f : Front) (body : Array Nat) : Front :=
  { f with bodies := f.bodies.push body }

-- ============================================================= visits

/-- The watched literal of a clause beside a given one. -/
def partner (body : Array Nat) (slot : Nat) : Nat :=
  let first := body[0]?.getD 0
  if first = slot then body[1]?.getD 0 else first

/-- The place of the first literal of a clause that is not false, among
the last `left` ones, or the end of the clause. -/
def firstOpen (f : Front) (body : Array Nat) : (left : Nat) → Nat
  | 0 => body.size
  | left + 1 =>
      let place := body.size - (left + 1)
      if f.standing (body[place]?.getD 0) = .false_ then
        f.firstOpen body left
      else place

/-- Exchanges a watched literal of a clause for a later one, which is
watched from then on. -/
def rewatch (f : Front) (c slot place next : Nat) : Front :=
  { f with
    bodies := f.bodies.modify c fun body =>
      body.swapIfInBounds (if body[0]?.getD 0 = slot then 0 else 1) place
    watchers := f.watchers.modify next (c :: ·) }

/-- Goes through the clauses that watch a literal which has become false.
A clause with another literal to watch leaves the list; one without forces
its other watched literal, or is the failure that is answered. -/
def visit (level slot : Nat) : List Nat → (kept : List Nat) → Front →
    Option Nat × Front
  | [], kept, f => (none, f.restore slot kept)
  | c :: rest, kept, f =>
      let body := f.bodies[c]?.getD #[]
      let other := partner body slot
      let held := f.standing other
      if held = .true_ then visit level slot rest (c :: kept) f
      else
        let place := f.firstOpen body (body.size - 2)
        if place < body.size then
          let next := body[place]?.getD 0
          visit level slot rest kept (f.rewatch c slot place next)
        else if held = .false_ then
          (some c, f.restore slot (rest.reverseAux (c :: kept)))
        else
          visit level slot rest (c :: kept) (f.assume level other (some c))

/-- Settles a literal that has become true: answers the clause that has
become false, if one has. -/
def propagate (f : Front) (level : Nat) (l : Int) : Option Nat × Front :=
  let slot := litSlot (-l)
  let watching := f.watchers[slot]?.getD []
  visit level slot watching [] (f.restore slot [])

end Front

end SatSession.Learning
