/-
The numbers that callers may hand in: truth values, whole numbers,
doubles, fractions, decimals and complex numbers.

All of them are compared by exact value, whatever their kinds, so that
`1`, `true`, `1.0` and the fraction `2/2` are equal, and a double is equal
to a fraction only if it hits it exactly. Order is defined on the
extended line: complex numbers have no place in it, and a decimal that is
no number makes a comparison undefined, while a double that is no number
is merely neither below nor above anything, decimals apart.
-/
import SatSession.Number.Shortest
import SatSession.Number.Hypot
import SatSession.Number.Line
import SatSession.Number.Fraction

namespace SatSession

/-- A number of any kind. -/
inductive Number where
  | bool (b : Bool)
  | int (n : Int)
  | float (x : Binary64)
  | fraction (q : Rat)
  | decimal (d : Decimal)
  | complex (re im : Binary64)
  deriving DecidableEq

/-- Reads a double: a numeral, or the name of a special number. -/
def Binary64.ofText? (text : String) : Option Binary64 :=
  let chars := Numeral.joinDigits (Numeral.strip text.toList)
  match Numeral.ofChars? chars with
  | some n =>
      let unit := powFraction 10 n.exponent
      some (Binary64.ofFraction n.negative (n.digits * unit.1) unit.2)
  | none =>
      let (negative, name) := Numeral.sign chars
      let lower := name.map Char.toLower
      if lower = "inf".toList ∨ lower = "infinity".toList then
        some (.infinite negative)
      else if lower = "nan".toList then some .nan
      else none

namespace Number

-- =========================================================== kinds

/-- The name of the kind. -/
def kind : Number → String
  | .bool _ => "bool"
  | .int _ => "int"
  | .float _ => "float"
  | .fraction _ => "Fraction"
  | .decimal _ => "Decimal"
  | .complex .. => "complex"

/-- The whole number that a whole number or truth value is. Only these
two kinds count as whole: the double `1.0` does not. -/
def whole? : Number → Option Int
  | .bool b => some (if b then 1 else 0)
  | .int n => some n
  | _ => none

/-- Where a number lies on the extended line. -/
def extended? : Number → Option Extended
  | .bool b => some (.ofRat (if b then 1 else 0))
  | .int n => some (.ofRat n)
  | .float x => some x.extended
  | .fraction q => some (.ofRat q)
  | .decimal d => some d.extended
  | .complex .. => none

/-- The largest whole number that a number reaches, unless it lies at an
end of the line or nowhere on it. -/
def floor? : Number → Option Int
  | .bool b => some (if b then 1 else 0)
  | .int n => some n
  | .float x => x.toRat?.map Rat.floor
  | .fraction q => some q.floor
  | .decimal d => d.floor?
  | .complex .. => none

/-- The smallest whole number that is not exceeded, with the same
exceptions. -/
def ceil? : Number → Option Int
  | .bool b => some (if b then 1 else 0)
  | .int n => some n
  | .float x => x.toRat?.map Rat.ceil
  | .fraction q => some q.ceil
  | .decimal d => d.neg.floor?.map (- ·)
  | .complex .. => none

/-- What is left when the places behind the point are dropped, with the
same exceptions. -/
def truncated? (a : Number) : Option Int :=
  match a.floor? with
  | some n => if n < 0 then a.ceil? else some n
  | none => none

def isZero : Number → Bool
  | .bool b => !b
  | .int n => n == 0
  | .float x => x.isZero
  | .fraction q => q == 0
  | .decimal d => d.isZero
  | .complex re im => re.isZero && im.isZero

-- ====================================================== comparison

/-- A decimal that is no number, quiet or signalling. -/
def isUnordered : Number → Bool
  | .decimal (.nan ..) => true
  | _ => false

/-- A double that is no number. -/
def isNan : Number → Bool
  | .float .nan => true
  | _ => false

def isDecimal : Number → Bool
  | .decimal _ => true
  | _ => false

/-- Whether the order of two numbers is undefined: a decimal that is no
number has none with anything, a double that is no number has none with
decimals. -/
def lackOrder (a b : Number) : Bool :=
  a.isUnordered || b.isUnordered || (a.isDecimal && b.isNan)
    || (a.isNan && b.isDecimal)

/-- A decimal that refuses even to be tested for equality. -/
def isSignaling : Number → Bool
  | .decimal (.nan _ signaling _) => signaling
  | _ => false

/-- Whether one number is below another. -/
def lt (a b : Number) : Except NumberFault Bool :=
  match a.whole?, b.whole? with
  | some m, some n => .ok (decide (m < n))
  | _, _ =>
      match a.extended?, b.extended? with
      | some x, some y =>
          if a.lackOrder b then .error .undefined
          else .ok (x.lt y)
      | _, _ => .error .mismatch

/-- Whether one number is at most another. -/
def le (a b : Number) : Except NumberFault Bool :=
  match a.whole?, b.whole? with
  | some m, some n => .ok (decide (m ≤ n))
  | _, _ =>
      match a.extended?, b.extended? with
      | some x, some y =>
          if a.lackOrder b then .error .undefined
          else .ok (x.lt y || x.same y)
      | _, _ => .error .mismatch

/-- Where a number lies when it is real, that is, has no imaginary part. -/
def place : Number → Option Extended
  | .complex re im => if im.isZero then some re.extended else none
  | n => n.extended?

/-- Whether two numbers have the same value, signalling decimals apart. -/
def same (a b : Number) : Bool :=
  match a, b with
  | .int m, .int n => m == n
  | .complex r i, .complex s j =>
      r.extended.same s.extended && i.extended.same j.extended
  | _, _ =>
      match a.place, b.place with
      | some x, some y => x.same y
      | _, _ => false

/-- Whether two numbers are equal. -/
def eq (a b : Number) : Except NumberFault Bool :=
  if a.isSignaling || b.isSignaling then .error .undefined
  else .ok (a.same b)

-- ====================================================== arithmetic

/-- One operation of arithmetic on each carrier. -/
structure Operation where
  onInt : Int → Int → Int
  onRat : Rat → Rat → Rat
  onFloat : Binary64 → Binary64 → Binary64
  onDecimal : Decimal → Decimal → Except NumberFault Decimal
  onComplex : Binary64 × Binary64 → Binary64 × Binary64 →
    Binary64 × Binary64

/-- Addition on each carrier. -/
def addition : Operation where
  onInt := (· + ·)
  onRat := (· + ·)
  onFloat := Binary64.add
  onDecimal := Decimal.add
  onComplex x y := (x.1.add y.1, x.2.add y.2)

/-- Subtraction on each carrier. -/
def subtraction : Operation where
  onInt := (· - ·)
  onRat := (· - ·)
  onFloat := Binary64.sub
  onDecimal := Decimal.sub
  onComplex x y := (x.1.sub y.1, x.2.sub y.2)

/-- Multiplication on each carrier. -/
def multiplication : Operation where
  onInt := (· * ·)
  onRat := (· * ·)
  onFloat := Binary64.mul
  onDecimal := Decimal.mul
  onComplex x y :=
    ((x.1.mul y.1).sub (x.2.mul y.2), (x.1.mul y.2).add (x.2.mul y.1))

/-- A number as a decimal, if it may meet decimals: whole numbers may. -/
def toDecimal : Number → Except NumberFault Decimal
  | .decimal d => .ok d
  | n =>
      match n.whole? with
      | some m => .ok (.ofInt m)
      | none => .error .mismatch

/-- A number as a fraction, if nothing is lost. -/
def toRat : Number → Except NumberFault Rat
  | .fraction q => .ok q
  | n =>
      match n.whole? with
      | some m => .ok m
      | none => .error .mismatch

/-- A number as the nearest double, unless it is beyond all of them;
decimals do not meet doubles. -/
def toFloat : Number → Except NumberFault Binary64
  | .float x => .ok x
  | n => do
      match Binary64.ofRat (← n.toRat) with
      | .infinite _ => throw .tooLarge
      | x => return x

/-- A number as a pair of doubles. -/
def toComplex : Number → Except NumberFault (Binary64 × Binary64)
  | .complex re im => .ok (re, im)
  | n => do return (← n.toFloat, .ofInt 0)

def isComplex : Number → Bool
  | .complex .. => true
  | _ => false

def isFloat : Number → Bool
  | .float _ => true
  | _ => false

/-- Carries an operation out on the narrowest carrier that holds both
numbers: whole numbers, fractions, doubles, complex numbers in this
order, with decimals apart from all but the first. -/
def combine (op : Operation) (a b : Number) : Except NumberFault Number :=
  if a.isDecimal || b.isDecimal then do
    return .decimal (← op.onDecimal (← a.toDecimal) (← b.toDecimal))
  else if a.isComplex || b.isComplex then do
    let z := op.onComplex (← a.toComplex) (← b.toComplex)
    return .complex z.1 z.2
  else if a.isFloat || b.isFloat then do
    return .float (op.onFloat (← a.toFloat) (← b.toFloat))
  else match a.whole?, b.whole? with
    | some m, some n => .ok (.int (op.onInt m n))
    | _, _ => do return .fraction (op.onRat (← a.toRat) (← b.toRat))

def add : Number → Number → Except NumberFault Number := combine addition

def sub : Number → Number → Except NumberFault Number :=
  combine subtraction

def mul : Number → Number → Except NumberFault Number :=
  combine multiplication

/-- The magnitude. That of a complex number is a double, and refused if
no finite double reaches it although both parts are finite. -/
def abs : Number → Except NumberFault Number
  | .bool b => .ok (.int (if b then 1 else 0))
  | .int n => .ok (.int n.natAbs)
  | .float x => .ok (.float x.abs)
  | .fraction q => .ok (.fraction (if q < 0 then -q else q))
  | .decimal d => do return .decimal (← d.abs)
  | .complex re im =>
      match re, im, re.hypot im with
      | .finite .., .finite .., .infinite _ => .error .tooLarge
      | _, _, length => .ok (.float length)

-- ============================================================ text

/-- The most digits that a whole number is written with. -/
def numeralLimit : Nat := 4300

/-- The first natural number with more digits than that. -/
def firstUnwritable : Nat := Nat.pow 10 numeralLimit

/-- Whether every whole number in the text of a number is short enough to
be written. Decimals and doubles do not write theirs out. -/
def isWritable : Number → Bool
  | .int n => n.natAbs < firstUnwritable
  | .fraction q => q.num.natAbs < firstUnwritable && q.den < firstUnwritable
  | .bool _ | .float _ | .decimal _ | .complex .. => true

/-- The plain text, as a message shows a number. -/
def text : Number → String
  | .bool b => if b then "True" else "False"
  | .int n => toString n
  | .float x => x.text
  | .fraction q => Fraction.text q
  | .decimal d => d.text
  | .complex re im => Binary64.complexText re im

/-- The full text, which tells the kinds apart. -/
def fullText : Number → String
  | .fraction q => Fraction.fullText q
  | .decimal d => d.fullText
  | n => n.text

-- ==================================================== small lemmas

/-- Whole numbers are compared as whole numbers. -/
@[simp] theorem lt_int (m n : Int) :
    lt (.int m) (.int n) = .ok (decide (m < n)) := rfl

@[simp] theorem le_int (m n : Int) :
    le (.int m) (.int n) = .ok (decide (m ≤ n)) := rfl

@[simp] theorem eq_int (m n : Int) :
    eq (.int m) (.int n) = .ok (m == n) := rfl

@[simp] theorem add_int (m n : Int) :
    add (.int m) (.int n) = .ok (.int (m + n)) := rfl

@[simp] theorem mul_int (m n : Int) :
    mul (.int m) (.int n) = .ok (.int (m * n)) := rfl

end Number

end SatSession
