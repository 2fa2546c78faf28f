/-
Cutting a text into lines.

A line ends at a line feed, a carriage return, the pair of the two in
that order, a vertical tab, a form feed, one of the three information
separators 1c to 1e, the next-line control, or a line or paragraph
separator. A break at the end of the text starts no further line, so the
empty text has no line at all and a lone break has one empty line.
Main statement: no line holds a break (`not_isBreak_of_mem_lines`).
-/

namespace SatSession.Text

-- ================================================== the break rule

/-- A character that ends a line. -/
def isBreak (c : Char) : Bool :=
  c == '\n' || c == '\r' || c == '\x0b' || c == '\x0c' || c == '\x1c'
    || c == '\x1d' || c == '\x1e' || c == '\u0085' || c == '\u2028'
    || c == '\u2029'

/-- Puts a character in front of the first line, which it starts when
there is none. -/
def consLine (c : Char) : List (List Char) → List (List Char)
  | [] => [[c]]
  | line :: rest => (c :: line) :: rest

/-- The lines of a text, without their breaks. A carriage return and the
line feed after it are one break. -/
def lines : List Char → List (List Char)
  | [] => []
  | '\r' :: '\n' :: rest => [] :: lines rest
  | c :: rest =>
      if isBreak c then [] :: lines rest else consLine c (lines rest)

-- ==================================================== small lemmas

/-- No line of a text holds a line break. -/
theorem not_isBreak_of_mem_lines {text line : List Char} {c : Char}
    (hline : line ∈ lines text) (hc : c ∈ line) : isBreak c = false := by
  fun_induction lines text generalizing line with
  | case1 => simp at hline
  | case2 rest ih =>
      rcases List.mem_cons.1 hline with rfl | h
      · simp at hc
      · exact ih h hc
  | case3 d rest _ hd ih =>
      rcases List.mem_cons.1 hline with rfl | h
      · simp at hc
      · exact ih h hc
  | case4 d rest _ hd ih =>
      generalize hls : lines rest = ls at hline ih
      cases ls with
      | nil =>
          simp only [consLine, List.mem_singleton] at hline
          subst hline
          rcases List.mem_singleton.1 hc with rfl
          simpa using hd
      | cons first ls =>
          simp only [consLine, List.mem_cons] at hline
          rcases hline with rfl | h
          · rcases List.mem_cons.1 hc with rfl | hc
            · simpa using hd
            · exact ih (List.mem_cons_self ..) hc
          · exact ih (List.mem_cons_of_mem _ h) hc

/-- Cutting bytes into lines: only line feed, carriage return and the
pair of them end a line of bytes. -/
def byteLines : List UInt8 → List (List UInt8)
  | [] => []
  | 13 :: 10 :: rest => [] :: byteLines rest
  | b :: rest =>
      if b = 10 ∨ b = 13 then [] :: byteLines rest
      else match byteLines rest with
        | [] => [[b]]
        | line :: ls => (b :: line) :: ls

end SatSession.Text
