/-
The length of an arrow in the plane, in doubles.

The root of the sum of the two squares is off by at most one place, and
one step that divides the remaining error by the doubled root sets most
of it right. Every step rounds, so the result is a function of the two
sides alone and not always the double nearest to the length. Sides whose
squares would leave the range of doubles are scaled by a power of two
first, and a side too short to matter is added instead of squared.
-/
import SatSession.Number.Binary64

namespace SatSession.Binary64

-- ========================================================== the root

/-- The double nearest to the square root of a fraction that is not
negative. The root is taken to far more places than a double has, and a
place that is certainly not zero is kept behind it, so that the rounding
sees on which side of a tie the root lies. -/
def sqrtOfRat (square : Rat) : Binary64 :=
  let num := square.num.natAbs
  if num = 0 then .finite false 0 minExponent
  else
    -- scale by an even power of two until the root has 64 bits or more
    let bits : Int := (Nat.log2 num : Int) - Nat.log2 square.den
    let shift : Int := 80 - bits / 2
    let unit := powFraction 4 shift
    let scaled := num * unit.1 / (square.den * unit.2)
    let root := Nat.sqrt scaled
    let sharp :=
      if root * root = scaled ∧ num * unit.1 % (square.den * unit.2) = 0
      then 2 * root else 2 * root + 1
    let back := powFraction 2 (-shift - 1)
    ofFraction false (sharp * back.1) back.2

/-- The square root of a finite double that is not negative. -/
def sqrt (x : Binary64) : Binary64 :=
  match x.toRat? with
  | some q => sqrtOfRat q
  | none => .nan

-- ========================================================= the length

/-- Whether a finite double is at most another one. -/
def atMost (x y : Binary64) : Bool :=
  match x.toRat?, y.toRat? with
  | some p, some q => decide (p ≤ q)
  | _, _ => false

/-- A power of two as a double. -/
def power (e : Int) : Binary64 :=
  let unit := powFraction 2 e
  ofFraction false unit.1 unit.2

/-- What the root of the sum of squares is to be lowered by, before the
division by the doubled root: the difference of its square and the sum,
from terms that lose little by rounding. -/
def squareExcess (long short root : Binary64) : Binary64 :=
  let two := power 1
  if root.atMost (two.mul short) then
    let excess := root.sub short
    (long.mul ((two.mul excess).sub long)).add
      ((excess.sub (two.mul (long.sub short))).mul excess)
  else
    let excess := root.sub long
    ((two.mul excess).mul (long.sub (two.mul short))).add
      (((((power 2).mul excess).sub short).mul short).add (excess.mul excess))

/-- The length when no square leaves the range. -/
def hypotInRange (long short : Binary64) : Binary64 :=
  let root := ((long.mul long).add (short.mul short)).sqrt
  root.sub ((squareExcess long short root).div ((power 1).mul root))

/-- The length of the arrow with the given sides, neither negative and
the first one not below the other. -/
def hypotOfSides (long short : Binary64) : Binary64 :=
  let negligible := power (-54)
  let scale := power (-600)
  if !long.atMost (power 511) then
    if short.atMost (long.mul negligible) then long.add short
    else (hypotInRange (long.mul scale) (short.mul scale)).div scale
  else if !(power (-459)).atMost short then
    if (short.div negligible).atMost long then long.add short
    else (hypotInRange (long.div scale) (short.div scale)).mul scale
  else if short.atMost (long.mul negligible) then long.add short
  else hypotInRange long short

/-- The length of the arrow to a point. A point infinitely far away is so
even if its other coordinate is no number. -/
def hypot (x y : Binary64) : Binary64 :=
  match x, y with
  | .infinite _, _ => .infinite false
  | _, .infinite _ => .infinite false
  | .nan, _ => .nan
  | _, .nan => .nan
  | _, _ =>
      let x := x.abs
      let y := y.abs
      if y.atMost x then hypotOfSides x y else hypotOfSides y x

end SatSession.Binary64
