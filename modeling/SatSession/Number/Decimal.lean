/-
Decimal numbers with their places: `2.50` and `2.5` are equal and yet
written differently.

Arithmetic rounds its result to 28 digits, a tie going to the even digit,
and to the last place that a result can have at all; a result too large
for the range of exponents is refused. Numbers as they are given keep to
none of these bounds, so no operation may write out the digits between
two places far apart. Two numbers that are no numbers are told apart: a
quiet one passes through arithmetic, a signalling one makes any operation
undefined, and so do operations without a result such as the difference
of two equal infinities.
-/
import SatSession.Number.Binary64
import SatSession.Number.Fault
import SatSession.Number.Numeral

namespace SatSession

/-- A decimal number. A finite one is `± digits · 10 ^ exponent`. -/
inductive Decimal where
  | finite (negative : Bool) (digits : Nat) (exponent : Int)
  | infinite (negative : Bool)
  | nan (negative signaling : Bool) (payload : Nat)
  deriving DecidableEq, Repr

namespace Decimal

/-- The number of digits that a result of arithmetic keeps. -/
def precision : Nat := 28

/-- The largest place that the leading digit of a result can have. -/
def highestPlace : Int := 999999

/-- The last place that a digit of a result can have. -/
def lowestPlace : Int := -1000026

/-- The number of digits of a natural number; zero has one. -/
def digitCount (n : Nat) : Nat := (toString n).length

-- =========================================================== reading

/-- Reads the name of a special number, in any case of its letters. -/
def special? (negative : Bool) (name : List Char) : Option Decimal :=
  let lower := name.map Char.toLower
  if lower = "inf".toList ∨ lower = "infinity".toList then
    some (.infinite negative)
  else match lower with
    | 'n' :: 'a' :: 'n' :: payload => (payload? payload).map (.nan negative false)
    | 's' :: 'n' :: 'a' :: 'n' :: payload =>
        (payload? payload).map (.nan negative true)
    | _ => none
where
  /-- The digits behind the name, which may be missing. -/
  payload? (digits : List Char) : Option Nat :=
    if digits.isEmpty then some 0 else Numeral.nat? digits

/-- Reads a decimal number. Blanks around it are skipped and underscores
anywhere in it are dropped. -/
def ofText? (text : String) : Option Decimal :=
  let chars := (Numeral.strip text.toList).filter (· != '_')
  match Numeral.ofChars? chars with
  | some n => some (.finite n.negative n.digits n.exponent)
  | none =>
      let (negative, name) := Numeral.sign chars
      special? negative name

-- =========================================================== writing

/-- The exponent of the leading digit, for the layout. -/
def leading (digits : Nat) (exponent : Int) : Int :=
  exponent + digitCount digits - 1

/-- Digits with a point in front of the last `places` ones. -/
def withPoint (digits : List Char) (places : Nat) : List Char :=
  let padded := List.replicate (places + 1 - digits.length) '0' ++ digits
  let whole := padded.length - places
  padded.take whole ++ '.' :: padded.drop whole

/-- The text of a magnitude: positional while the exponent is not
positive and the leading digit not behind the sixth place, otherwise with
one digit before the point and the exponent written out. -/
def magnitudeText (digits : Nat) (exponent : Int) : String :=
  let chars := (toString digits).toList
  let lead := leading digits exponent
  if exponent ≤ 0 ∧ -6 ≤ lead then
    if exponent = 0 then String.ofList chars
    else String.ofList (withPoint chars exponent.natAbs)
  else
    let head := match chars with
      | first :: second :: rest => first :: '.' :: second :: rest
      | short => short
    String.ofList head ++ "E" ++ (if lead < 0 then "-" else "+")
      ++ toString lead.natAbs

/-- The plain text. -/
def text : Decimal → String
  | .finite negative digits exponent =>
      (if negative then "-" else "") ++ magnitudeText digits exponent
  | .infinite negative => (if negative then "-" else "") ++ "Infinity"
  | .nan negative signaling payload =>
      (if negative then "-" else "") ++ (if signaling then "sNaN" else "NaN")
        ++ (if payload = 0 then "" else toString payload)

/-- The full text. -/
def fullText (d : Decimal) : String := "Decimal('" ++ d.text ++ "')"

-- ======================================================== arithmetic

/-- A count of units rounded to a count of `10 ^ places` units. More
places than the count has digits leave nothing. -/
def dropPlaces (digits places : Nat) : Nat :=
  if digitCount digits < places then 0
  else divNearest digits (Nat.pow 10 places)

/-- Rounds a finite number to the precision and to the last place. -/
def round (negative : Bool) (digits : Nat) (exponent : Int) :
    Except NumberFault Decimal :=
  if digits = 0 then
    .ok (.finite negative 0 (max lowestPlace (min highestPlace exponent)))
  else if highestPlace < leading digits exponent then .error .beyondRange
  else
    let place := max (exponent + digitCount digits - precision) lowestPlace
    if place ≤ exponent then .ok (.finite negative digits exponent)
    else
      let kept := dropPlaces digits (place - exponent).toNat
      -- rounding up may have made one digit too many, and it is a zero
      if kept = Nat.pow 10 precision then
        if highestPlace < place + precision then .error .beyondRange
        else
          .ok (.finite negative (Nat.pow 10 (precision - 1)) (place + 1))
      else .ok (.finite negative kept place)

/-- What is no number as the result of arithmetic: its payload is cut to
the precision. -/
def passOn (negative : Bool) (payload : Nat) : Decimal :=
  .nan negative false (payload % Nat.pow 10 precision)

/-- The digits of a finite number with their sign. -/
def signed (negative : Bool) (digits : Nat) : Int :=
  if negative then -(digits : Int) else digits

/-- The largest whole number that a finite number reaches. Behind the
last digit of a small number nothing has to be written out. -/
def floor? : Decimal → Option Int
  | .finite negative digits exponent =>
      if digits = 0 then some 0
      else match exponent with
        | .ofNat e => some (signed negative digits * Nat.pow 10 e)
        | .negSucc e =>
            if digitCount digits ≤ e + 1 then
              some (if negative then -1 else 0)
            else
              some (Int.fdiv (signed negative digits) (Nat.pow 10 (e + 1)))
  | _ => none

/-- The sum of two finite numbers of which the first has the larger
exponent. A second summand that lies wholly behind every digit that the
sum can show only tips the rounding, which the last place in front of it
does as well. -/
def addAligned (s : Bool) (m : Nat) (e : Int) (t : Bool) (n : Nat) (f : Int) :
    Except NumberFault Decimal :=
  let shown : Int := min (digitCount m - precision - 1) 0
  let behind : Int := e - 1 + shown
  let (n, f) :=
    if m ≠ 0 ∧ leading n f < behind then (min n 1, behind) else (n, f)
  let raised := if m = 0 then 0 else m * Nat.pow 10 (e - f).toNat
  let total := signed s raised + signed t n
  if total = 0 then round (s && t) 0 f
  else round (decide (total < 0)) total.natAbs f

/-- The sum. A sum of zero is negative only if both summands are. -/
def add : Decimal → Decimal → Except NumberFault Decimal
  | .nan _ true _, _ => .error .undefined
  | _, .nan _ true _ => .error .undefined
  | .nan s false p, _ => .ok (passOn s p)
  | _, .nan s false p => .ok (passOn s p)
  | .infinite s, .infinite t =>
      if s = t then .ok (.infinite s) else .error .undefined
  | .infinite s, _ => .ok (.infinite s)
  | _, .infinite t => .ok (.infinite t)
  | .finite s m e, .finite t n f =>
      if f ≤ e then addAligned s m e t n f else addAligned t n f s m e

def neg : Decimal → Decimal
  | .finite s m e => .finite (!s) m e
  | .infinite s => .infinite (!s)
  | .nan s signaling payload => .nan s signaling payload

/-- The difference. -/
def sub (x y : Decimal) : Except NumberFault Decimal := x.add y.neg

/-- The product. -/
def mul : Decimal → Decimal → Except NumberFault Decimal
  | .nan _ true _, _ => .error .undefined
  | _, .nan _ true _ => .error .undefined
  | .nan s false p, _ => .ok (passOn s p)
  | _, .nan s false p => .ok (passOn s p)
  | .infinite s, .infinite t => .ok (.infinite (s ^^ t))
  | .infinite s, .finite t n _ =>
      if n = 0 then .error .undefined else .ok (.infinite (s ^^ t))
  | .finite s m _, .infinite t =>
      if m = 0 then .error .undefined else .ok (.infinite (s ^^ t))
  | .finite s m e, .finite t n f => round (s ^^ t) (m * n) (e + f)

/-- The magnitude, rounded like any other result. -/
def abs : Decimal → Except NumberFault Decimal
  | .finite _ m e => round false m e
  | .infinite _ => .ok (.infinite false)
  | .nan _ true _ => .error .undefined
  | .nan s false p => .ok (passOn s p)

/-- A whole number, with all its digits. -/
def ofInt (n : Int) : Decimal := .finite (decide (n < 0)) n.natAbs 0

def isZero : Decimal → Bool
  | .finite _ m _ => m == 0
  | _ => false

end Decimal

end SatSession
