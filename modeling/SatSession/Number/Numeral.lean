/-
Reading decimal numerals.

A numeral is a sign, digits with at most one point among them, and an
exponent. Between two digits an underscore may stand, which carries
nothing, and blanks around the numeral are skipped. Special numbers have
names instead of digits; which names are known is for each kind of number
to say.
-/

namespace SatSession

/-- A numeral as read: `± digits · 10 ^ exponent`, with `digits` the
natural number that all written digits spell, so that a final zero behind
the point still shows in the exponent. -/
structure Numeral where
  negative : Bool
  digits : Nat
  exponent : Int
  deriving DecidableEq, Repr

namespace Numeral

-- ============================================================ pieces

/-- The blanks that may stand around a numeral. -/
def isBlank (c : Char) : Bool :=
  c == ' ' || ('\t' ≤ c && c ≤ '\x0d')

/-- A text without the blanks at its two ends. -/
def strip (text : List Char) : List Char :=
  ((text.dropWhile isBlank).reverse.dropWhile isBlank).reverse

/-- Splits off a sign; without one the numeral is positive. -/
def sign : List Char → Bool × List Char
  | '-' :: rest => (true, rest)
  | '+' :: rest => (false, rest)
  | rest => (false, rest)

/-- Drops each underscore that has a digit on either side. -/
def joinDigits : List Char → List Char
  | a :: '_' :: b :: rest =>
      if a.isDigit && b.isDigit then a :: joinDigits (b :: rest)
      else a :: '_' :: joinDigits (b :: rest)
  | a :: rest => a :: joinDigits rest
  | [] => []
termination_by text => text.length

/-- The natural number that decimal digits spell. -/
def natOfDigits (digits : List Char) : Nat :=
  digits.foldl (fun n c => 10 * n + (c.toNat - 48)) 0

/-- Reads a whole text of at least one digit. -/
def nat? (text : List Char) : Option Nat :=
  if text.isEmpty || !text.all Char.isDigit then none
  else some (natOfDigits text)

/-- Reads an optionally signed whole number. -/
def int? (text : List Char) : Option Int := do
  let (negative, digits) := sign text
  let n ← nat? digits
  return if negative then -(n : Int) else n

/-- Reads an exponent part: nothing, or the letter and a whole number. -/
def exponent? : List Char → Option Int
  | [] => some 0
  | c :: rest => if c == 'e' || c == 'E' then int? rest else none

-- ========================================================== numerals

/-- Reads a numeral without blanks and underscores. At least one digit
must be written, before the point or behind it. -/
def ofChars? (text : List Char) : Option Numeral := do
  let (negative, body) := sign text
  let whole := body.takeWhile Char.isDigit
  let rest := body.dropWhile Char.isDigit
  let (decimals, rest) := match rest with
    | '.' :: rest =>
        (rest.takeWhile Char.isDigit, rest.dropWhile Char.isDigit)
    | rest => ([], rest)
  if whole.isEmpty && decimals.isEmpty then none
  else
    let e ← exponent? rest
    return ⟨negative, natOfDigits (whole ++ decimals), e - decimals.length⟩

/-- Reads a numeral, with blanks around it and underscores inside. -/
def ofText? (text : String) : Option Numeral :=
  ofChars? (joinDigits (strip text.toList))

end Numeral

end SatSession
