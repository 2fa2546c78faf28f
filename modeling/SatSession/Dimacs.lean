/-
The exchange format for clause sets: optional comment lines, a header
with the numbers of variables and clauses, and one line per clause that
ends with a zero.

The layout is one function on texts; the typed writer gives it the
decimal numerals of its literals, and the writer for values of any kind
gives it their plain texts. A comment is cut into lines first, each of
which becomes a comment line of its own, so that nothing in a comment can
pass for a header or a clause.
-/
import SatSession.Fault
import SatSession.Text.Lines

namespace SatSession.Dimacs

-- ========================================================== the layout

/-- The line of a clause. -/
def clauseLine (literals : List String) : String :=
  " ".intercalate (literals ++ ["0"])

/-- The header line. -/
def header (varCount : String) (count : Nat) : String :=
  "p cnf " ++ varCount ++ " " ++ toString count

/-- The lines of a document. -/
def documentLines (comments : List String) (varCount : String)
    (clauses : List (List String)) : List String :=
  comments.map ("c " ++ ·) ++ header varCount clauses.length
    :: clauses.map clauseLine

/-- A document: its lines, each ended by a line feed. -/
def document (comments : List String) (varCount : String)
    (clauses : List (List String)) : String :=
  "\n".intercalate (documentLines comments varCount clauses) ++ "\n"

/-- The lines of a comment. -/
def commentLines (comment : String) : List String :=
  (Text.lines comment.toList).map String.ofList

/-- Writes a clause set. -/
def write (comment : String) (varCount : Int)
    (clauses : List (List Int)) : String :=
  document (commentLines comment) (toString varCount)
    (clauses.map fun clause => clause.map toString)

-- ===================================================== values of any kind

/-- The comment lines of a value. What does not count as true has none;
a text is cut into lines, bytes into lines of bytes, and anything else
cannot be cut. -/
def commentsOf (comment : Value) : Except Fault (List String) :=
  if !comment.isTruthy then .ok []
  else match comment with
    | .text s => .ok (commentLines s)
    | .bytes form data =>
        if form = .memoryview then .error .missingOperation
        else .ok ((Text.byteLines data).map (Value.bytesText form))
    | _ => .error .missingOperation

/-- The plain text of a value, if it can be written. -/
def textOf (v : Value) : Except Fault String :=
  if v.isWritable then .ok v.plainText else .error .numeralLength

/-- The texts of the literals of one clause. -/
def literalsOf (clause : Value) : Except Fault (List String) :=
  match clause.items? with
  | none => .error .wrongKind
  | some items => items.toList.mapM textOf

/-- The first number of items that a length cannot count, `2 ^ 63`. -/
def lengthBound : Nat := 0x8000000000000000

/-- Writes whatever is given as a clause set. -/
def writeValues (comment varCount clauses : Value) :
    Except Fault String := do
  let comments ← commentsOf comment
  let varCount ← textOf varCount
  match clauses.length?, clauses.items? with
  | some length, some items =>
      if lengthBound ≤ length then throw .tooLarge
      let texts ← items.foldlM
        (fun done clause => do return (← literalsOf clause) :: done) []
      return document comments varCount texts.reverse
  | _, _ => throw .wrongKind

end SatSession.Dimacs
