/-
Quoting: the text of a string or of a run of bytes between quotation
marks, as messages and traces show it.

The mark is the single one, unless the content holds a single mark and no
double one; then it is the double one. The mark in use and the backslash
are written after a backslash, line feed, carriage return and tab by
their letters, and what cannot be shown by its code point in hexadecimal
digits: two after `\x`, four after `\u`, eight after `\U`. Bytes know only
the two-digit form.
-/
import SatSession.Text.Printable

namespace SatSession.Text

-- ============================================== hexadecimal digits

/-- The hexadecimal digit of a number below sixteen. -/
def hexDigit (n : Nat) : Char :=
  if n < 10 then Char.ofNat (48 + n) else Char.ofNat (87 + n)

/-- The last `width` hexadecimal digits of a number, most significant
first. -/
def hexDigits : (width : Nat) → Nat → List Char
  | 0, _ => []
  | width + 1, n => hexDigits width (n / 16) ++ [hexDigit (n % 16)]

/-- The value of a hexadecimal digit, of either case. -/
def hexValue? (c : Char) : Option Nat :=
  if '0' ≤ c ∧ c ≤ '9' then some (c.toNat - 48)
  else if 'a' ≤ c ∧ c ≤ 'f' then some (c.toNat - 87)
  else if 'A' ≤ c ∧ c ≤ 'F' then some (c.toNat - 55)
  else none

/-- Bytes as two hexadecimal digits each. -/
def hexOfBytes (bytes : List UInt8) : String :=
  String.ofList (bytes.flatMap fun b => hexDigits 2 b.toNat)

/-- Reads bytes written as two hexadecimal digits each; fails on a lone
digit and on anything that is not a digit. -/
def bytesOfHex? : List Char → Option (List UInt8)
  | [] => some []
  | high :: low :: rest => do
      let h ← hexValue? high
      let l ← hexValue? low
      let bytes ← bytesOfHex? rest
      return UInt8.ofNat (16 * h + l) :: bytes
  | [_] => none

-- ========================================================= strings

/-- The quotation mark for a content: single, unless that would need an
escape which the double one does not need. -/
def quoteMark (content : List Char) : Char :=
  if content.contains '\'' && !content.contains '"' then '"' else '\''

/-- How one character stands between the given marks. -/
def quoteChar (mark c : Char) : List Char :=
  if c = mark ∨ c = '\\' then ['\\', c]
  else if c = '\n' then ['\\', 'n']
  else if c = '\r' then ['\\', 'r']
  else if c = '\t' then ['\\', 't']
  else if isPrintable c then [c]
  else if c.toNat < 0x100 then '\\' :: 'x' :: hexDigits 2 c.toNat
  else if c.toNat < 0x10000 then '\\' :: 'u' :: hexDigits 4 c.toNat
  else '\\' :: 'U' :: hexDigits 8 c.toNat

/-- A string between quotation marks. -/
def quoted (s : String) : String :=
  let content := s.toList
  let mark := quoteMark content
  String.ofList (mark :: content.flatMap (quoteChar mark) ++ [mark])

-- =========================================================== bytes

/-- How one byte stands between marks of which one is escaped: only the
codes from the space to the tilde are shown as characters. -/
def quoteByte (escaped : Char) (b : UInt8) : List Char :=
  let c := Char.ofNat b.toNat
  if 0x20 ≤ b.toNat ∧ b.toNat < 0x7f then
    if c = escaped ∨ c = '\\' then ['\\', c] else [c]
  else if c = '\n' then ['\\', 'n']
  else if c = '\r' then ['\\', 'r']
  else if c = '\t' then ['\\', 't']
  else '\\' :: 'x' :: hexDigits 2 b.toNat

/-- The quotation mark for bytes. -/
def byteMark (bytes : List UInt8) : Char :=
  quoteMark (bytes.map fun b => Char.ofNat b.toNat)

/-- Bytes between quotation marks, after the letter that tells them from
a string. -/
def markedBytes (mark escaped : Char) (bytes : List UInt8) : String :=
  String.ofList ('b' :: mark :: bytes.flatMap (quoteByte escaped) ++ [mark])

/-- Bytes in quotation. -/
def quotedBytes (bytes : List UInt8) : String :=
  let mark := byteMark bytes
  markedBytes mark mark bytes

/-- Changeable bytes in quotation: the single mark is escaped, whichever
mark is in use. -/
def quotedBuffer (bytes : List UInt8) : String :=
  markedBytes (byteMark bytes) '\'' bytes

end SatSession.Text
