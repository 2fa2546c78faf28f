/-
Comparing values and calculating with them.

Numbers are compared and combined as `Number` says; with any other value
an order or a sum is a mismatch, while a test for equality simply fails.
Equality of whole values is what the keys of tables and the members of
sets are told apart by.
-/
import SatSession.Value.Items
import SatSession.Value.Slots

namespace SatSession.Value

-- ========================================================= equality

/-- Whether two ranges visit the same numbers. -/
def sameRange (a b : Int × Int × Int) : Bool :=
  let m := rangeCount a.1 a.2.1 a.2.2
  let n := rangeCount b.1 b.2.1 b.2.2
  m == n && (m == 0 || (a.1 == b.1 && (m == 1 || a.2.2 == b.2.2)))

/-- Whether two values are the same key. Numbers of different kinds may
be, bytes in different forms are, sequences only in the same shape. -/
def same : Value → Value → Bool
  | .none, .none => true
  | .number a, .number b => a.same b
  | .text s, .text t => s == t
  | .bytes _ a, .bytes _ b => a == b
  | .range a b c, .range d e f => sameRange (a, b, c) (d, e, f)
  | .seq shape items, .seq other others =>
      match shape, other with
      | .list, .list | .tuple, .tuple | .deque, .deque =>
          sameItems items others
      | .set, .set | .set, .frozenset | .frozenset, .set
      | .frozenset, .frozenset =>
          items.length == others.length && within items others
      | _, _ => false
  | _, _ => false
where
  /-- Item by item. -/
  sameItems : List Value → List Value → Bool
    | [], [] => true
    | v :: rest, w :: others => v.same w && sameItems rest others
    | _, _ => false
  /-- Whether each of some values is among others. -/
  within : List Value → List Value → Bool
    | [], _ => true
    | v :: rest, others => others.any (v.same ·) && within rest others

/-- Whether a value equals a whole number. -/
def eqInt (v : Value) (n : Int) : Except NumberFault Bool :=
  match v with
  | .number a => a.eq (.int n)
  | _ => .ok false

-- ================================================== sets and tables

/-- Some values without those that are the same as an earlier one. -/
def distinct (items : List Value) : List Value :=
  (items.foldl (fun kept v => if kept.any (·.same v) then kept else v :: kept)
    []).reverse

/-- Puts an entry into a table: the place and key of an earlier entry
stay, its value is replaced. -/
def putEntry (key value : Value) :
    List (Value × Value) → List (Value × Value)
  | [] => [(key, value)]
  | (k, v) :: rest =>
      if k.same key then (k, value) :: rest
      else (k, v) :: putEntry key value rest

/-- A set in one of the two shapes of sets. -/
def setOf (shape : Shape) (items : List Value) : Value :=
  .seq shape (Slots.arranged (distinct items))

/-- A table with the given entries, put in one after the other. -/
def dictOf (entries : List (Value × Value)) : Value :=
  .dict (entries.foldl (fun table e => putEntry e.1 e.2 table) [])

-- ============================================== order and arithmetic

/-- Whether one value is below another. -/
def lt : Value → Value → Except NumberFault Bool
  | .number a, .number b => a.lt b
  | _, _ => .error .mismatch

/-- Whether one value is at most another. -/
def le : Value → Value → Except NumberFault Bool
  | .number a, .number b => a.le b
  | _, _ => .error .mismatch

def add : Value → Value → Except NumberFault Value
  | .number a, .number b => (a.add b).map .number
  | _, _ => .error .mismatch

def sub : Value → Value → Except NumberFault Value
  | .number a, .number b => (a.sub b).map .number
  | _, _ => .error .mismatch

def mul : Value → Value → Except NumberFault Value
  | .number a, .number b => (a.mul b).map .number
  | _, _ => .error .mismatch

/-- The magnitude of a number. -/
def abs : Value → Except NumberFault Value
  | .number a => a.abs.map .number
  | _ => .error .mismatch

/-- The largest whole number that a number reaches. -/
def floor? : Value → Option Int
  | .number a => a.floor?
  | _ => Option.none

/-- The smallest whole number that a number does not exceed. -/
def ceil? : Value → Option Int
  | .number a => a.ceil?
  | _ => Option.none

/-- The whole part of a number. -/
def truncated? : Value → Option Int
  | .number a => a.truncated?
  | _ => Option.none

/-- The larger of two values, the first where neither is larger. -/
def larger (a b : Value) : Except NumberFault Value := do
  return if ← a.lt b then b else a

/-- The smaller of two values, the first where neither is smaller. -/
def smaller (a b : Value) : Except NumberFault Value := do
  return if ← b.lt a then b else a

-- ===================================================== small lemmas

@[simp] theorem lt_int (m n : Int) :
    lt (.int m) (.int n) = .ok (decide (m < n)) := rfl

@[simp] theorem le_int (m n : Int) :
    le (.int m) (.int n) = .ok (decide (m ≤ n)) := rfl

@[simp] theorem eqInt_int (m n : Int) :
    eqInt (.int m) n = .ok (m == n) := rfl

@[simp] theorem abs_int (n : Int) :
    abs (.int n) = .ok (.int n.natAbs) := rfl

@[simp] theorem floor?_int (n : Int) : floor? (.int n) = some n := rfl

@[simp] theorem ceil?_int (n : Int) : ceil? (.int n) = some n := rfl

@[simp] theorem add_int (m n : Int) :
    add (.int m) (.int n) = .ok (.int (m + n)) := rfl

@[simp] theorem mul_int (m n : Int) :
    mul (.int m) (.int n) = .ok (.int (m * n)) := rfl

end SatSession.Value
