/-
The shortest decimal text of a double.

Among the decimal numbers that round to a given double, the text shows
one with the fewest digits, and of those the one nearest to the double.
For one digit, two digits and so on up to seventeen, the grid of decimal
numbers with that many digits has a point just below the double and one
just above it; the first grid with such a point inside the rounding
interval gives the digits.

Two styles turn the digits into text: a number standing alone keeps a
final `.0`, a part of a complex number does not.
-/
import SatSession.Number.Binary64

namespace SatSession.Binary64

-- ===================================================== digit search

/-- The interval of fractions that round to a double, in quarters of its
last place: lower end, the value itself, upper end, and whether the ends
belong to it. Below a power of two the neighbours stand twice as close. -/
def roundingQuarters (mantissa : Nat) (exponent : Int) :
    Nat × Nat × Nat × Bool :=
  let low :=
    if mantissa = leadingBit ∧ minExponent < exponent then
      4 * mantissa - 1
    else 4 * mantissa - 2
  (low, 4 * mantissa, 4 * mantissa + 2, mantissa % 2 = 0)

/-- The decimal exponent of the leading digit of a positive fraction. -/
def leadingExponent (num den : Nat) : Int :=
  let guess : Int :=
    ((Nat.log2 num : Int) - Nat.log2 den) * 30103 / 100000
  let atLeast (k : Int) : Bool :=
    let unit := powFraction 10 k
    unit.1 * den ≤ num * unit.2
  if atLeast (guess + 1) then guess + 1
  else if atLeast guess then guess
  else guess - 1

/-- The grid point to show for steps of `10 ^ step`, if one of the two
neighbours of the value lies inside the interval: of two the nearer, of
two equally near the even one. -/
def gridPoint? (quarters : Nat × Nat × Nat × Bool) (exponent step : Int) :
    Option Nat :=
  let (low, value, high, closed) := quarters
  let two := powFraction 2 (exponent - 2)
  let ten := powFraction 10 step
  -- a quarter count q is the decimal count q · scale / grid
  let scale := two.1 * ten.2
  let grid := two.2 * ten.1
  let inside (d : Nat) : Bool :=
    if closed then low * scale ≤ d * grid && d * grid ≤ high * scale
    else low * scale < d * grid && d * grid < high * scale
  let below := value * scale / grid
  let above := below + 1
  match inside below, inside above with
  | true, true => some (divNearest (value * scale) grid)
  | true, false => some below
  | false, true => some above
  | false, false => none

/-- Tries grids of `digits`, `digits + 1`, … digits, `more + 1` of them;
the last one answers in any case. -/
def searchDigits (quarters : Nat × Nat × Nat × Bool) (exponent leading : Int) :
    (more : Nat) → (digits : Nat) → Nat × Int
  | 0, digits =>
      let step := leading - digits + 1
      ((gridPoint? quarters exponent step).getD 0, step)
  | more + 1, digits =>
      let step := leading - digits + 1
      match gridPoint? quarters exponent step with
      | some d => (d, step)
      | none => searchDigits quarters exponent leading more (digits + 1)

/-- The digits to show for a positive double, as a count of `10 ^ step`. -/
def shortestDigits (mantissa : Nat) (exponent : Int) : Nat × Int :=
  let unit := powFraction 2 exponent
  let leading := leadingExponent (mantissa * unit.1) unit.2
  searchDigits (roundingQuarters mantissa exponent) exponent leading 16 1

-- ============================================================ styles

/-- How digits become text. -/
structure Style where
  /-- Positional notation begins at this exponent of the leading digit. -/
  positionalFrom : Int
  /-- Positional notation ends before this exponent. -/
  positionalBelow : Int
  /-- An integer in positional notation shows a point and a zero. -/
  keepsPoint : Bool

/-- A number that stands alone. -/
def standing : Style := ⟨-4, 16, true⟩

/-- A part of a complex number. -/
def part : Style := ⟨-4, 16, false⟩

/-- An exponent: its sign, then at least two digits. -/
def exponentText (e : Int) : String :=
  let digits := toString e.natAbs
  let padded := if digits.length < 2 then "0" ++ digits else digits
  (if e < 0 then "-" else "+") ++ padded

/-- The text of the digits `d · 10 ^ step`, where `d` is positive. -/
def placeDigits (style : Style) (d : Nat) (step : Int) : String :=
  let digits := (toString d).toList
  -- trailing zeros carry nothing
  let kept := (digits.reverse.dropWhile (· == '0')).reverse
  let leading : Int := step + digits.length - 1
  if style.positionalFrom ≤ leading ∧ leading < style.positionalBelow then
    if leading < 0 then
      "0." ++ String.ofList
        (List.replicate (leading.natAbs - 1) '0' ++ kept)
    else
      let wholeCount := leading.toNat + 1
      let whole := kept.take wholeCount
        ++ List.replicate (wholeCount - kept.length) '0'
      let decimals := kept.drop wholeCount
      if decimals.isEmpty then
        String.ofList whole ++ (if style.keepsPoint then ".0" else "")
      else String.ofList (whole ++ '.' :: decimals)
  else
    match kept with
    | [] => "0"
    | first :: rest =>
        let head := if rest.isEmpty then [first] else first :: '.' :: rest
        String.ofList head ++ "e" ++ exponentText leading

/-- The text of a double without its sign. -/
def magnitudeText (style : Style) : Binary64 → String
  | .nan => "nan"
  | .infinite _ => "inf"
  | .finite _ 0 _ => if style.keepsPoint then "0.0" else "0"
  | .finite _ m e =>
      let (d, step) := shortestDigits m e
      placeDigits style d step

/-- The text of a double in a style. -/
def textIn (style : Style) (x : Binary64) : String :=
  (if x.isNegative then "-" else "") ++ magnitudeText style x

/-- The text of a double that stands alone. -/
def text (x : Binary64) : String := x.textIn standing

/-- The text of a complex number with the given parts. A real part that
is a positive zero is left out; otherwise brackets hold both parts, and
the imaginary one always shows its sign. -/
def complexText (re im : Binary64) : String :=
  if re.isZero && !re.isNegative then im.textIn part ++ "j"
  else
    let sign := if im.isNegative then "" else "+"
    "(" ++ re.textIn part ++ sign ++ im.textIn part ++ "j)"

end SatSession.Binary64
