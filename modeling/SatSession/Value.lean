/-
Values as callers hand them in.

Clause data, settings, engine answers and even block sizes arrive
unchecked, and which of them are accepted, and with which words the rest
is refused, is part of what a session promises. A value is a number, a
text, bytes, a range of whole numbers, a sequence or collection of values
in one of several shapes, a table of pairs, or an object of which only
the name of its kind is known.
-/
import SatSession.Number

namespace SatSession

/-- The shapes in which values are collected. -/
inductive Shape where
  | list
  | tuple
  | deque
  | set
  | frozenset
  | generator
  deriving DecidableEq, Repr

/-- The forms in which bytes are held. -/
inductive ByteForm where
  | bytes
  | bytearray
  | memoryview
  deriving DecidableEq, Repr

/-- A value of any kind. -/
inductive Value where
  | none
  | number (n : Number)
  | text (s : String)
  | bytes (form : ByteForm) (data : List UInt8)
  | range (start stop step : Int)
  | seq (shape : Shape) (items : List Value)
  | dict (entries : List (Value × Value))
  | object (kind : String)

instance : Inhabited Value := ⟨.none⟩

namespace Shape

/-- The name of the shape. -/
def name : Shape → String
  | .list => "list"
  | .tuple => "tuple"
  | .deque => "deque"
  | .set => "set"
  | .frozenset => "frozenset"
  | .generator => "generator"

/-- Shapes whose items stand at positions. -/
def isSequence : Shape → Bool
  | .list | .tuple | .deque => true
  | .set | .frozenset | .generator => false

end Shape

/-- The name of the form. -/
def ByteForm.name : ByteForm → String
  | .bytes => "bytes"
  | .bytearray => "bytearray"
  | .memoryview => "memoryview"

namespace Value

/-- A whole number as a value. -/
@[match_pattern] abbrev int (n : Int) : Value := .number (.int n)

/-- A truth value as a value. -/
@[match_pattern] abbrev bool (b : Bool) : Value := .number (.bool b)

/-- A list of values as a value. -/
@[match_pattern] abbrev list (items : List Value) : Value :=
  .seq .list items

/-- The name of the kind of a value, as messages give it. -/
def kind : Value → String
  | .none => "NoneType"
  | .number n => n.kind
  | .text _ => "str"
  | .bytes form _ => form.name
  | .range .. => "range"
  | .seq shape _ => shape.name
  | .dict _ => "dict"
  | .object kind => kind

/-- The whole number that a value is, if its kind is a whole number or a
truth value. -/
def whole? : Value → Option Int
  | .number n => n.whole?
  | _ => Option.none

/-- Whether a value may serve as the key of a table: nothing in it may
be changed from outside. -/
def isHashable : Value → Bool
  | .number n => !n.isSignaling
  | .none | .text _ | .range .. | .object _ => true
  | .bytes form _ => form != .bytearray
  | .dict _ => false
  | .seq shape items =>
      match shape with
      | .frozenset | .generator => true
      | .tuple => allHashable items
      | .list | .deque | .set => false
where
  /-- Whether all of some values may serve as keys. -/
  allHashable : List Value → Bool
    | [] => true
    | v :: rest => v.isHashable && allHashable rest

end Value

end SatSession
