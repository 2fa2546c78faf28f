/-
What a value holds when it is gone through item by item.

Most values that can be gone through list their items; a range only
counts them, and may count far more than could ever be listed, so a scan
that stops early must not list them first. Both are items, and a scan is
a fold that may stop. Main statement: the scan of counted items is the
scan of their list (`foldlM_eq`).
-/
import SatSession.Value

namespace SatSession

/-- The items of a value, in order. -/
inductive Items where
  | listed (items : List Value)
  /-- `count` whole numbers from `start` on, in steps of `step`. -/
  | counted (start step : Int) (count : Nat)

namespace Items

/-- The whole numbers of a count, as a list. -/
def countedList (step : Int) : (count : Nat) → (start : Int) → List Value
  | 0, _ => []
  | count + 1, start => .int start :: countedList step count (start + step)

/-- All items as a list. -/
def toList : Items → List Value
  | .listed items => items
  | .counted start step count => countedList step count start

/-- The number of items. -/
def length : Items → Nat
  | .listed items => items.length
  | .counted _ _ count => count

/-- The fold over counted items, which makes each one when it gets
there. -/
@[specialize] def countedFoldlM {m : Type → Type} {β : Type} [Monad m]
    (f : β → Value → m β) (step : Int) :
    (count : Nat) → (start : Int) → β → m β
  | 0, _, b => pure b
  | count + 1, start, b => do
      let b ← f b (.int start)
      countedFoldlM f step count (start + step) b

/-- The fold over all items; it ends early where the step does. -/
@[specialize] def foldlM {m : Type → Type} {β : Type} [Monad m]
    (f : β → Value → m β) (b : β) : Items → m β
  | .listed items => items.foldlM f b
  | .counted start step count => countedFoldlM f step count start b

/-- Counting the items one by one visits the same ones as their list. -/
theorem countedFoldlM_eq {m : Type → Type} {β : Type} [Monad m]
    (f : β → Value → m β) (step : Int) (count : Nat) (start : Int) (b : β) :
    countedFoldlM f step count start b
      = (countedList step count start).foldlM f b := by
  induction count generalizing start b with
  | zero => rfl
  | succ count ih =>
      simp only [countedFoldlM, countedList, List.foldlM_cons]
      congr 1
      funext b
      exact ih ..

/-- A scan visits the items in the order of their list. -/
theorem foldlM_eq {m : Type → Type} {β : Type} [Monad m]
    (f : β → Value → m β) (b : β) (items : Items) :
    items.foldlM f b = items.toList.foldlM f b := by
  cases items with
  | listed items => rfl
  | counted start step count => exact countedFoldlM_eq ..

end Items

namespace Value

-- =================================================== going through

/-- The number of whole numbers from `start` up or down to `stop`, which
is not among them, in steps of `step`. -/
def rangeCount (start stop step : Int) : Nat :=
  if 0 < step then ((stop - start + step - 1) / step).toNat
  else if step < 0 then ((start - stop - step - 1) / (-step)).toNat
  else 0

/-- The items of anything that can be gone through: a text has its
characters, bytes have their codes, a table has its keys. -/
def items? : Value → Option Items
  | .text s => some (.listed (s.toList.map fun c => .text c.toString))
  | .bytes _ data => some (.listed (data.map fun b => .int b.toNat))
  | .range start stop step =>
      some (.counted start step (rangeCount start stop step))
  | .seq _ items => some (.listed items)
  | .dict entries => some (.listed (entries.map (·.1)))
  | .none | .number _ | .object _ => Option.none

/-- The items of a sequence, that is, of items that stand at positions.
Texts and plain bytes do not count as sequences here: a clause written as
a text is a mistake of the caller, not a clause of characters. -/
def sequence? (v : Value) : Option Items :=
  match v with
  | .seq shape items =>
      if shape.isSequence then some (.listed items) else Option.none
  | .range .. => v.items?
  | .bytes .memoryview _ => v.items?
  | _ => Option.none

/-- The number of items of what has one; a generator does not know. -/
def length? : Value → Option Nat
  | .seq .generator _ => Option.none
  | .text s => some s.length
  | v => v.items?.map Items.length

/-- Whether a value counts as true: zero, emptiness and absence do not. -/
def isTruthy : Value → Bool
  | .none => false
  | .number n => !n.isZero
  | .object _ => true
  | .seq .generator _ => true
  | v => v.length? != some 0

end Value

end SatSession
