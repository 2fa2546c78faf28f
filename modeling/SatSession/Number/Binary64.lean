/-
Double-precision binary numbers as data: sign, mantissa and exponent, so
that every operation is exact arithmetic on naturals followed by one
rounding.

The rounding is to the nearest value that 53 mantissa bits and the
exponents from -1074 up can express, a tie going to the even mantissa;
what would need more than the largest exponent becomes infinite.
-/

namespace SatSession

-- ========================================================= rounding

/-- The quotient rounded to the nearest natural, a tie to the even one. -/
def divNearest (num den : Nat) : Nat :=
  let q := num / den
  let r := num % den
  if 2 * r < den then q
  else if den < 2 * r then q + 1
  else if q % 2 = 0 then q else q + 1

/-- The power `base ^ e` as a fraction: numerator and denominator. -/
def powFraction (base : Nat) : Int → Nat × Nat
  | .ofNat e => (Nat.pow base e, 1)
  | .negSucc e => (1, Nat.pow base (e + 1))

/-- A double-precision number. A finite one is `± mantissa · 2 ^ exponent`
with a mantissa below `2 ^ 53`, and the mantissa has all its 53 bits
unless the exponent is the least one. -/
inductive Binary64 where
  | finite (negative : Bool) (mantissa : Nat) (exponent : Int)
  | infinite (negative : Bool)
  | nan
  deriving DecidableEq, Repr

namespace Binary64

/-- The power `2 ^ 52`, the least mantissa with all its 53 bits. -/
def leadingBit : Nat := 0x10000000000000

/-- The least exponent. -/
def minExponent : Int := -1074

/-- The largest exponent. -/
def maxExponent : Int := 971

/-- The exponent at which a positive fraction has a mantissa of 53 bits,
raised to the least exponent where it lies below. -/
def exponentOf (num den : Nat) : Int :=
  let guess : Int := (Nat.log2 num : Int) - Nat.log2 den - 52
  let unit := powFraction 2 guess
  -- the mantissa at the guess has 52 or 53 bits
  let e := if num * unit.2 < leadingBit * (den * unit.1) then guess - 1
    else guess
  max e minExponent

/-- The double nearest to `± num / den`. -/
def ofFraction (negative : Bool) (num den : Nat) : Binary64 :=
  if num = 0 then .finite negative 0 minExponent
  else
    let e := exponentOf num den
    let unit := powFraction 2 e
    let m := divNearest (num * unit.2) (den * unit.1)
    -- rounding up may have reached the next power of two
    let (m, e) := if m = 2 * leadingBit then (leadingBit, e + 1) else (m, e)
    if maxExponent < e then .infinite negative else .finite negative m e

/-- The double nearest to a rational number. -/
def ofRat (q : Rat) : Binary64 :=
  ofFraction (decide (q.num < 0)) q.num.natAbs q.den

/-- The double nearest to an integer. -/
def ofInt (n : Int) : Binary64 :=
  ofFraction (decide (n < 0)) n.natAbs 1

/-- The value of a finite double. -/
def toRat? : Binary64 → Option Rat
  | .finite negative m e =>
      let unit := powFraction 2 e
      let q := mkRat (m * unit.1) unit.2
      some (if negative then -q else q)
  | _ => none

def isNegative : Binary64 → Bool
  | .finite negative .. => negative
  | .infinite negative => negative
  | .nan => false

def isZero : Binary64 → Bool
  | .finite _ m _ => m == 0
  | _ => false

-- ======================================================= arithmetic

def neg : Binary64 → Binary64
  | .finite negative m e => .finite (!negative) m e
  | .infinite negative => .infinite (!negative)
  | .nan => .nan

/-- The magnitude: the same number without its sign. -/
def abs : Binary64 → Binary64
  | .finite _ m e => .finite false m e
  | .infinite _ => .infinite false
  | .nan => .nan

/-- Addition. The sum of two infinities of different signs is no number;
a sum of zero is negative only if both summands are. -/
def add (x y : Binary64) : Binary64 :=
  match x, y with
  | .nan, _ => .nan
  | _, .nan => .nan
  | .infinite s, .infinite t => if s = t then .infinite s else .nan
  | .infinite s, _ => .infinite s
  | _, .infinite t => .infinite t
  | .finite s .., .finite t .. =>
      match x.toRat?, y.toRat? with
      | some p, some q =>
          if p + q = 0 then .finite (s && t) 0 minExponent
          else ofRat (p + q)
      | _, _ => .nan

def sub (x y : Binary64) : Binary64 := x.add y.neg

/-- Multiplication. The product of zero and infinity is no number. -/
def mul (x y : Binary64) : Binary64 :=
  let sign := x.isNegative ^^ y.isNegative
  match x.toRat?, y.toRat? with
  | some p, some q => ofFraction sign (p * q).num.natAbs (p * q).den
  | _, _ =>
      match x, y with
      | .nan, _ => .nan
      | _, .nan => .nan
      | _, _ => if x.isZero || y.isZero then .nan else .infinite sign

/-- Division of a finite double by a finite double other than zero. -/
def div (x y : Binary64) : Binary64 :=
  match x.toRat?, y.toRat? with
  | some p, some q =>
      if q = 0 then .nan
      else
        let ratio := p / q
        ofFraction (x.isNegative ^^ y.isNegative) ratio.num.natAbs ratio.den
  | _, _ => .nan

end Binary64

end SatSession
