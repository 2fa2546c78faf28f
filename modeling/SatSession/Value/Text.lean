/-
The text of values, plain and full.

The plain text is what a message shows of a value that it speaks about: a
text stands bare. The full text tells a text from the number it spells:
texts are quoted, and collections show the full text of their items, also
in their plain text. A whole number with too many digits has no text, and
neither has a value that would show it.
-/
import SatSession.Value
import SatSession.Text.Quoted

namespace SatSession.Value

-- ======================================================= full text

/-- The text of a range; a step of one is left out. -/
def rangeText (start stop step : Int) : String :=
  "range(" ++ toString start ++ ", " ++ toString stop
    ++ (if step = 1 then "" else ", " ++ toString step) ++ ")"

/-- The text of bytes in their form. -/
def bytesText : ByteForm → List UInt8 → String
  | .bytes, data => Text.quotedBytes data
  | .bytearray, data => "bytearray(" ++ Text.quotedBuffer data ++ ")"
  | .memoryview, _ => "<memory>"

/-- A collection from the texts of its items. A single item of a tuple
is followed by a comma; an empty set has no bracket text of its own. -/
def shapeText : Shape → List String → String
  | .list, items => "[" ++ ", ".intercalate items ++ "]"
  | .tuple, [item] => "(" ++ item ++ ",)"
  | .tuple, items => "(" ++ ", ".intercalate items ++ ")"
  | .deque, items => "deque([" ++ ", ".intercalate items ++ "])"
  | .set, [] => "set()"
  | .set, items => "\x7b" ++ ", ".intercalate items ++ "\x7d"
  | .frozenset, [] => "frozenset()"
  | .frozenset, items =>
      "frozenset(\x7b" ++ ", ".intercalate items ++ "\x7d)"
  | .generator, _ => "<generator object>"

/-- The full text of a value. -/
def fullText : Value → String
  | .none => "None"
  | .number n => n.fullText
  | .text s => Text.quoted s
  | .bytes form data => bytesText form data
  | .range start stop step => rangeText start stop step
  | .seq shape items => shapeText shape (texts items)
  | .dict entries => "\x7b" ++ ", ".intercalate (pairs entries) ++ "\x7d"
  | .object kind => "<" ++ kind ++ " object>"
where
  /-- The full texts of some values. -/
  texts : List Value → List String
    | [] => []
    | v :: rest => v.fullText :: texts rest
  /-- The full texts of the entries of a table. -/
  pairs : List (Value × Value) → List String
    | [] => []
    | (k, v) :: rest => (k.fullText ++ ": " ++ v.fullText) :: pairs rest

-- ====================================================== writability

/-- Whether every whole number in the text of a value is short enough to
be written. What a generator will bring is not part of its text. -/
def isWritable : Value → Bool
  | .number n => n.isWritable
  | .range start stop step =>
      (Number.int start).isWritable && (Number.int stop).isWritable
        && (Number.int step).isWritable
  | .seq .generator _ => true
  | .seq _ items => allWritable items
  | .dict entries => allPairs entries
  | .none | .text _ | .bytes .. | .object _ => true
where
  /-- Whether all of some values can be written. -/
  allWritable : List Value → Bool
    | [] => true
    | v :: rest => v.isWritable && allWritable rest
  /-- Whether all entries of a table can be written. -/
  allPairs : List (Value × Value) → Bool
    | [] => true
    | (k, v) :: rest => k.isWritable && v.isWritable && allPairs rest

-- ====================================================== plain text

/-- The plain text of a value. -/
def plainText : Value → String
  | .text s => s
  | .number n => n.text
  | v => v.fullText

end SatSession.Value
