/-
Fractions: reading them from text and writing them.

A fraction is written as a quotient of whole numbers or as a decimal
numeral, and is kept in lowest terms. Its plain text leaves a denominator
of one out; its full text names both parts.
-/
import SatSession.Number.Numeral

namespace SatSession.Fraction

/-- A numeral as a fraction. -/
def ofNumeral (n : Numeral) : Rat :=
  let q : Rat := match n.exponent with
    | .ofNat e => ((n.digits * Nat.pow 10 e : Nat) : Rat)
    | .negSucc e => mkRat n.digits (Nat.pow 10 (e + 1))
  if n.negative then -q else q

/-- Reads a fraction: a quotient when a slash is written, a decimal
numeral otherwise. The denominator is unsigned and not zero. -/
def ofText? (text : String) : Option Rat := do
  let chars := Numeral.joinDigits (Numeral.strip text.toList)
  let top := chars.takeWhile (· != '/')
  match chars.dropWhile (· != '/') with
  | [] => return ofNumeral (← Numeral.ofChars? top)
  | _ :: bottom =>
      let num ← Numeral.int? top
      let den ← Numeral.nat? bottom
      if den = 0 then none else return mkRat num den

/-- The plain text. -/
def text (q : Rat) : String :=
  if q.den = 1 then toString q.num
  else toString q.num ++ "/" ++ toString q.den

/-- The full text. -/
def fullText (q : Rat) : String :=
  "Fraction(" ++ toString q.num ++ ", " ++ toString q.den ++ ")"

end SatSession.Fraction
