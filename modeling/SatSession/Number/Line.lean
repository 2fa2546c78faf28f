/-
The line of rational numbers with its two ends, on which numbers of
different kinds are compared.

A point of the line is a fraction and a power of ten that it is
multiplied by. The power may be far too large to be written out, so two
points are first compared by the places of their leading digits; only
points less than two places apart are brought to one power, and those
cannot differ by more zeros than they have digits.
-/
import SatSession.Number.Decimal

namespace SatSession

/-- A point of the line with its two ends, or no point of it. A finite
point is `q · 10 ^ scale`. -/
inductive Extended where
  | least
  | finite (q : Rat) (scale : Int)
  | greatest
  | nowhere
  deriving DecidableEq

namespace Extended

-- ====================================================== finite points

/-- A place near the leading digit: a positive point `q · 10 ^ scale`
lies strictly between the powers of ten next to that place. -/
def place (q : Rat) (scale : Int) : Int :=
  scale + Decimal.digitCount q.num.natAbs - Decimal.digitCount q.den

/-- The order of the magnitudes of two finite points other than zero. -/
def compareMagnitude (p : Rat) (e : Int) (q : Rat) (f : Int) : Ordering :=
  if place p e + 2 ≤ place q f then .lt
  else if place q f + 2 ≤ place p e then .gt
  else
    let unit := powFraction 10 (e - f)
    compare (p.num.natAbs * unit.1 * q.den) (q.num.natAbs * p.den * unit.2)

/-- The sign of a fraction. -/
def signOf (q : Rat) : Int := q.num.sign

/-- The order of two finite points. -/
def compareFinite (p : Rat) (e : Int) (q : Rat) (f : Int) : Ordering :=
  if signOf p ≠ signOf q then compare (signOf p) (signOf q)
  else if signOf p = 0 then .eq
  else if 0 < signOf p then compareMagnitude p e q f
  else compareMagnitude q f p e

-- ========================================================== all points

/-- A fraction as a point. -/
def ofRat (q : Rat) : Extended := .finite q 0

/-- Strict order; a point nowhere is not below anything. -/
def lt : Extended → Extended → Bool
  | .nowhere, _ => false
  | _, .nowhere => false
  | .finite p e, .finite q f => compareFinite p e q f == .lt
  | .least, y => y != .least
  | .finite .., y => y == .greatest
  | .greatest, _ => false

/-- Equality of places; a point nowhere is not even equal to itself. -/
def same : Extended → Extended → Bool
  | .finite p e, .finite q f => compareFinite p e q f == .eq
  | .least, .least => true
  | .greatest, .greatest => true
  | _, _ => false

end Extended

/-- Where a double lies. -/
def Binary64.extended (x : Binary64) : Extended :=
  match x with
  | .nan => .nowhere
  | .infinite negative => if negative then .least else .greatest
  | .finite .. => (x.toRat?.map .ofRat).getD .nowhere

/-- Where a decimal lies. -/
def Decimal.extended (d : Decimal) : Extended :=
  match d with
  | .nan .. => .nowhere
  | .infinite negative => if negative then .least else .greatest
  | .finite negative digits exponent =>
      .finite (Decimal.signed negative digits : Int) exponent

end SatSession
