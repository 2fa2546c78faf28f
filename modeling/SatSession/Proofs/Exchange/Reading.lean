/-
Reading a document of the exchange format.

A reader knows nothing of how a document was laid out. It cuts the text at
line feeds, drops every line that starts with the letter of a comment,
takes the next line for the header, and reads the numbers on all lines
after it, whatever blanks stand between them, with a zero at the end of
each clause (`read?`). It turns down a text whose header is no header,
whose words are no numbers, or whose last clause is not ended.

`Renders pieces varCount clauses text` says what a text is as a document:
what a reader finds in it, and how its lines are laid out. Main statement:
whatever clauses and whatever comment are laid out, with numbers of any
size, the document renders them (`write_renders`). Two facts carry it. The
words of a line are found again because no numeral holds a blank
(`words_spaced`), and the lines of a document because no line holds a
break (`textLines_document`); a comment is cut at breaks of every kind
before it enters, so that the narrower cut of a reader never goes through
one of its pieces.
-/
import SatSession.Dimacs
import Mathlib.Data.List.Forall2
import Mathlib.Data.List.Flatten

namespace SatSession

-- ========================================================== numerals

/-- A word that can stand between blanks on a line: it has characters, and
none of them is a blank or a line break. -/
structure Inked (word : List Char) : Prop where
  nonempty : word ≠ []
  not_blank : ∀ c ∈ word, Numeral.isBlank c = false
  not_break : ∀ c ∈ word, Text.isBreak c = false

/-- A word is inked if none of its characters is blank or breaks a line. -/
theorem inked_of_all {word : List Char} (hne : word ≠ [])
    (h : word.all (fun c => !(Numeral.isBlank c || Text.isBreak c)) = true) :
    Inked word := by
  have hall : ∀ c ∈ word,
      Numeral.isBlank c = false ∧ Text.isBreak c = false := by
    simpa using h
  exact ⟨hne, fun c hc => (hall c hc).1, fun c hc => (hall c hc).2⟩

namespace Numeral

/-- A digit is no blank: it comes after all of them. -/
theorem not_isBlank_of_isDigit {c : Char} (h : c.isDigit = true) :
    isBlank c = false := by
  have hspace : c ≠ ' ' := by
    rintro rfl
    revert h
    decide
  have hlow : '0' ≤ c := by
    simp only [Char.isDigit, Bool.and_eq_true, decide_eq_true_eq] at h
    exact h.1
  have hhigh : ¬ c ≤ '\x0d' := fun hc =>
    absurd (Char.le_trans hlow hc) (by decide)
  simp [isBlank, hspace, hhigh]

/-- A digit ends no line. -/
theorem not_isBreak_of_isDigit {c : Char} (h : c.isDigit = true) :
    Text.isBreak c = false := by
  rw [Bool.eq_false_iff]
  intro hbreak
  simp only [Text.isBreak, Bool.or_eq_true, beq_iff_eq] at hbreak
  rcases hbreak with ((((((((rfl | rfl) | rfl) | rfl) | rfl) | rfl) | rfl)
    | rfl) | rfl) | rfl <;> revert h <;> decide

theorem isDigit_of_mem {n : Nat} {c : Char} (h : c ∈ Nat.toDigits 10 n) :
    c.isDigit = true :=
  Nat.isDigit_of_mem_toDigits (by decide) (by decide) h

theorem toList_repr (n : Nat) : n.repr.toList = Nat.toDigits 10 n := by
  rw [Nat.repr_eq_ofList_toDigits, String.toList_ofList]

/-- The numeral of a negative number is its digits behind a sign. -/
theorem toList_toString_negSucc (n : Nat) :
    (toString (Int.negSucc n)).toList = '-' :: Nat.toDigits 10 (n + 1) := by
  show ("-" ++ (n + 1).repr).toList = _
  rw [String.toList_append, toList_repr]
  rfl

/-- A numeral has no other characters than a sign and digits. -/
theorem mem_toString {n : Int} {c : Char} (h : c ∈ (toString n).toList) :
    c = '-' ∨ c.isDigit = true := by
  cases n with
  | ofNat n =>
      have hdigits : c ∈ n.repr.toList := h
      rw [toList_repr] at hdigits
      exact .inr (isDigit_of_mem hdigits)
  | negSucc n =>
      rw [toList_toString_negSucc] at h
      exact (List.mem_cons.mp h).imp_right isDigit_of_mem

theorem toList_toString_ne_nil (n : Int) : (toString n).toList ≠ [] := by
  cases n with
  | ofNat n =>
      show n.repr.toList ≠ []
      rw [toList_repr]
      exact Nat.toDigits_ne_nil
  | negSucc n =>
      rw [toList_toString_negSucc]
      exact List.cons_ne_nil _ _

/-- A numeral is a word. -/
theorem inked_toString (n : Int) : Inked (toString n).toList where
  nonempty := toList_toString_ne_nil n
  not_blank c hc := by
    rcases mem_toString hc with rfl | hdigit
    · decide
    · exact not_isBlank_of_isDigit hdigit
  not_break c hc := by
    rcases mem_toString hc with rfl | hdigit
    · decide
    · exact not_isBreak_of_isDigit hdigit

/-- Digits spell the number they are the digits of. -/
theorem nat?_toDigits (n : Nat) : nat? (Nat.toDigits 10 n) = some n := by
  have hdigits : (Nat.toDigits 10 n).all Char.isDigit = true :=
    List.all_eq_true.mpr fun _ hc => isDigit_of_mem hc
  have hvalue : natOfDigits (Nat.toDigits 10 n) = n := by
    unfold natOfDigits
    exact Nat.ofDigitChars_eq_foldl.symm.trans Nat.ofDigitChars_ten_toDigits
  simp [nat?, hdigits, hvalue, Nat.toDigits_ne_nil]

/-- A digit is no sign. -/
theorem sign_toDigits (n : Nat) :
    sign (Nat.toDigits 10 n) = (false, Nat.toDigits 10 n) := by
  have hdigit : ∀ c ∈ Nat.toDigits 10 n, c.isDigit = true := fun _ =>
    isDigit_of_mem
  unfold sign
  split
  next heq => simp [heq, Char.isDigit] at hdigit
  next heq => simp [heq, Char.isDigit] at hdigit
  next => rfl

/-- The numeral of a whole number, however long, is read as that number. -/
theorem int?_toString (n : Int) : int? (toString n).toList = some n := by
  cases n with
  | ofNat n =>
      show int? n.repr.toList = _
      rw [toList_repr, int?, sign_toDigits]
      simp [nat?_toDigits]
  | negSucc n =>
      rw [toList_toString_negSucc, int?, sign]
      simp [nat?_toDigits, Int.negSucc_eq]

end Numeral

namespace Dimacs

-- ========================================================= the reader

/-- The lines of a text as a reader sees them: cut at line feeds only. -/
def textLines (text : String) : List (List Char) :=
  text.toList.splitOn '\n'

/-- A line that a reader drops. -/
def isComment : List Char → Bool
  | 'c' :: _ => true
  | _ => false

/-- The words of a line, with blanks of any number between them. -/
def words (line : List Char) : List (List Char) :=
  (line.splitOnP Numeral.isBlank).filter (!·.isEmpty)

/-- The two numbers of a header. -/
def header? (line : List Char) : Option (Int × Int) :=
  match words line with
  | [['p'], ['c', 'n', 'f'], varCount, count] => do
      return (← Numeral.int? varCount, ← Numeral.int? count)
  | _ => none

/-- The clauses that numbers write, each ended by a zero. Numbers behind
the last zero are a clause that is not ended. -/
def clausesOf? : List Int → Option (List (List Int))
  | [] => some []
  | n :: rest => do
      let clauses ← clausesOf? rest
      if n = 0 then return [] :: clauses
      else match clauses with
        | [] => none
        | clause :: clauses => return (n :: clause) :: clauses

/-- What a reader finds in a document. -/
structure Reading where
  varCount : Int
  /-- The number of clauses that the header names. -/
  count : Int
  clauses : List (List Int)
  deriving DecidableEq, Repr

/-- Reads a document. -/
def read? (text : String) : Option Reading := do
  match (textLines text).filter (!isComment ·) with
  | [] => none
  | header :: body =>
      let (varCount, count) ← header? header
      let numbers ← (body.flatMap words).mapM Numeral.int?
      return ⟨varCount, count, ← clausesOf? numbers⟩

/-- A line on which a clause stands with its zero and nothing else. -/
def LineOf (line : List Char) (clause : List Int) : Prop :=
  (words line).mapM Numeral.int? = some (clause ++ [0])

/-- A text is a document of a clause set, behind comment lines with the
given pieces. -/
structure Renders (pieces : List (List Char)) (varCount : Int)
    (clauses : List (List Int)) (text : String) : Prop where
  /-- A reader finds the clauses, their number and that of the variables. -/
  reads : read? text = some ⟨varCount, clauses.length, clauses⟩
  /-- The comment lines come first, one for each piece. No other line
  passes for one: after them come a header with the two numbers and one
  line for each clause, and a line feed ends the text. -/
  laidOut : ∃ header body,
    textLines text
        = pieces.map (['c', ' '] ++ ·) ++ (header :: body ++ [[]])
      ∧ (∀ line ∈ header :: body, isComment line = false)
      ∧ header? header = some (varCount, (clauses.length : Int))
      ∧ List.Forall₂ LineOf body clauses
  /-- No line holds a line break of any kind. -/
  unbroken : ∀ line ∈ textLines text, ∀ c ∈ line, Text.isBreak c = false

variable {pieces : List (List Char)} {varCount : Int}
  {clauses : List (List Int)} {text : String}

/-- A text is a document of one clause set only. -/
theorem Renders.unique {pieces' : List (List Char)} {varCount' : Int}
    {clauses' : List (List Int)} (h : Renders pieces varCount clauses text)
    (h' : Renders pieces' varCount' clauses' text) :
    varCount = varCount' ∧ clauses = clauses' := by
  have heq := h.reads.symm.trans h'.reads
  simp only [Option.some.injEq, Reading.mk.injEq] at heq
  exact ⟨heq.1, heq.2.2⟩

/-- The comment lines of a document are those of the pieces. -/
theorem Renders.filter_isComment (h : Renders pieces varCount clauses text) :
    (textLines text).filter isComment = pieces.map (['c', ' '] ++ ·) := by
  obtain ⟨header, body, hlines, hplain, -, -⟩ := h.laidOut
  have hcomments : ∀ line ∈ pieces.map (['c', ' '] ++ ·),
      isComment line = true := by
    intro line hline
    obtain ⟨piece, -, rfl⟩ := List.mem_map.mp hline
    rfl
  have hrest : (header :: body ++ [[]]).filter isComment = [] := by
    rw [List.filter_eq_nil_iff]
    intro line hline
    rcases List.mem_append.mp hline with hline | hline
    · simp [hplain line hline]
    · rw [List.mem_singleton.mp hline]
      decide
  rw [hlines, List.filter_append, List.filter_eq_self.mpr hcomments, hrest,
    List.append_nil]

-- ======================================================== words of a line

@[simp] theorem words_nil : words [] = [] := by
  decide

/-- A blank ends a word. -/
theorem words_append_blank (left right : List Char) :
    words (left ++ ' ' :: right) = words left ++ words right := by
  unfold words
  rw [List.splitOnP_append_cons left right (by decide), List.filter_append]

/-- A word without blanks is the only one of its line. -/
theorem words_of_inked {word : List Char} (h : Inked word) :
    words word = [word] := by
  unfold words
  rw [List.splitOnP_eq_singleton h.not_blank]
  simp [h.nonempty]

/-- Words with blanks between them are found again. -/
theorem words_spaced {ws : List (List Char)} (h : ∀ w ∈ ws, Inked w) :
    words ([' '].intercalate ws) = ws := by
  induction ws with
  | nil => exact words_nil
  | cons w ws ih =>
      have hw : words w = [w] := words_of_inked (h w List.mem_cons_self)
      cases ws with
      | nil => simpa using hw
      | cons v ws =>
          have hrest := ih fun u hu => h u (List.mem_cons_of_mem _ hu)
          rw [List.intercalate_cons_cons, List.append_assoc,
            List.singleton_append, words_append_blank, hw, hrest,
            List.singleton_append]

/-- What stands on a line of words is a blank or belongs to a word. -/
theorem mem_spaced {ws : List (List Char)} {c : Char}
    (h : c ∈ [' '].intercalate ws) : c = ' ' ∨ ∃ w ∈ ws, c ∈ w := by
  induction ws with
  | nil => simp at h
  | cons w ws ih =>
      cases ws with
      | nil => exact .inr ⟨w, List.mem_cons_self, by simpa using h⟩
      | cons v ws =>
          rw [List.intercalate_cons_cons, List.append_assoc,
            List.mem_append, List.mem_append] at h
          rcases h with h | h | h
          · exact .inr ⟨w, List.mem_cons_self, h⟩
          · exact .inl (List.mem_singleton.mp h)
          · obtain hc | ⟨u, hu, hc⟩ := ih h
            · exact .inl hc
            · exact .inr ⟨u, List.mem_cons_of_mem _ hu, hc⟩

/-- A line of words holds no line break. -/
theorem not_isBreak_spaced {ws : List (List Char)} (h : ∀ w ∈ ws, Inked w) :
    ∀ c ∈ [' '].intercalate ws, Text.isBreak c = false := by
  intro c hc
  rcases mem_spaced hc with rfl | ⟨w, hw, hc⟩
  · decide
  · exact (h w hw).not_break c hc

/-- Numerals are read one by one. -/
theorem mapM_int?_toString (ns : List Int) :
    (ns.map fun n => (toString n).toList).mapM Numeral.int? = some ns := by
  induction ns with
  | nil => rfl
  | cons n ns ih =>
      rw [List.map_cons, List.mapM_cons, Numeral.int?_toString, ih]
      rfl

-- ==================================================== the lines laid out

/-- So are all numerals of a row. -/
theorem inked_numerals (ns : List Int) :
    ∀ w ∈ ns.map (fun n => (toString n).toList), Inked w := by
  intro w hw
  obtain ⟨n, -, rfl⟩ := List.mem_map.mp hw
  exact Numeral.inked_toString n

/-- The words of a clause line: its numerals and that of zero. -/
theorem toList_clauseLine (clause : List Int) :
    (clauseLine (clause.map toString)).toList
      = [' '].intercalate
          ((clause ++ [0]).map fun n => (toString n).toList) := by
  rw [clauseLine, String.toList_intercalate, List.map_append, List.map_map,
    List.map_append]
  rfl

/-- A clause line, read back. -/
theorem lineOf_clauseLine (clause : List Int) :
    LineOf (clauseLine (clause.map toString)).toList clause := by
  rw [LineOf, toList_clauseLine, words_spaced (inked_numerals _)]
  exact mapM_int?_toString _

/-- The words of a header. -/
def headerWords (varCount : Int) (count : Nat) : List (List Char) :=
  [['p'], ['c', 'n', 'f'], (toString varCount).toList,
    (toString (count : Int)).toList]

/-- The header is its words with blanks between them. -/
theorem toList_header (varCount : Int) (count : Nat) :
    (header (toString varCount) count).toList
      = [' '].intercalate (headerWords varCount count) := by
  rw [header, String.toList_append, String.toList_append,
    String.toList_append, headerWords, List.intercalate_cons_cons,
    List.intercalate_cons_cons, List.intercalate_cons_cons,
    List.intercalate_singleton]
  simp only [List.append_assoc]
  rfl

theorem inked_headerWords (varCount : Int) (count : Nat) :
    ∀ w ∈ headerWords varCount count, Inked w := by
  have hp : Inked ['p'] := inked_of_all (by decide) rfl
  have hcnf : Inked ['c', 'n', 'f'] := inked_of_all (by decide) rfl
  simp only [headerWords, List.forall_mem_cons, List.not_mem_nil,
    false_imp_iff, implies_true, and_true]
  exact ⟨hp, hcnf, Numeral.inked_toString _, Numeral.inked_toString _⟩

/-- A header, read back. -/
theorem header?_header (varCount : Int) (count : Nat) :
    header? (header (toString varCount) count).toList
      = some (varCount, (count : Int)) := by
  rw [header?, toList_header, words_spaced (inked_headerWords _ _),
    headerWords]
  simp only [Numeral.int?_toString]
  rfl

/-- The header starts with another letter than a comment. -/
theorem isComment_header (varCount : Int) (count : Nat) :
    isComment (header (toString varCount) count).toList = false := by
  rw [toList_header, headerWords, List.intercalate_cons_cons]
  rfl

/-- A clause line has no letter at all. -/
theorem isComment_clauseLine (clause : List Int) :
    isComment (clauseLine (clause.map toString)).toList = false := by
  rw [toList_clauseLine]
  have hletter : 'c' ∉ [' '].intercalate
      ((clause ++ [0]).map fun n => (toString n).toList) := by
    intro hc
    rcases mem_spaced hc with hc | ⟨w, hw, hc⟩
    · exact absurd hc (by decide)
    · obtain ⟨n, -, rfl⟩ := List.mem_map.mp hw
      rcases Numeral.mem_toString hc with hc | hc
      · exact absurd hc (by decide)
      · exact absurd hc (by decide)
  rw [Bool.eq_false_iff]
  intro hcomment
  unfold isComment at hcomment
  split at hcomment
  next heq => exact hletter (heq ▸ List.mem_cons_self)
  next => cases hcomment

-- ====================================================== whole documents

/-- Reading cuts a document at the ends of its lines, and finds an empty
line behind the last. -/
theorem textLines_document {comments : List String} {varCount : String}
    {texts : List (List String)}
    (h : ∀ line ∈ documentLines comments varCount texts,
      ∀ c ∈ line.toList, Text.isBreak c = false) :
    textLines (document comments varCount texts)
      = (documentLines comments varCount texts).map String.toList
          ++ [[]] := by
  have hwhole : ∀ line ∈
      (documentLines comments varCount texts).map String.toList,
      '\n' ∉ line := by
    intro line hline hbreak
    obtain ⟨text, htext, rfl⟩ := List.mem_map.mp hline
    exact absurd (h text htext _ hbreak) (by decide)
  have hsome : (documentLines comments varCount texts).map String.toList
      ≠ [] := by
    simp [documentLines]
  rw [textLines, document, String.toList_append, String.toList_intercalate,
    List.splitOn]
  show List.splitOnP _ (_ ++ '\n' :: []) = _
  rw [List.splitOnP_append_cons _ _ (by decide)]
  congr 1
  exact List.splitOn_intercalate '\n' hwhole hsome

/-- The numbers on clause lines are those of the clauses, each with its
zero. -/
theorem mapM_int?_words {body : List (List Char)} {clauses : List (List Int)}
    (h : List.Forall₂ LineOf body clauses) :
    (body.flatMap words).mapM Numeral.int?
      = some (clauses.flatMap (· ++ [0])) := by
  induction h with
  | nil => rfl
  | cons hline _ ih =>
      rw [List.flatMap_cons, List.mapM_append, hline, ih]
      rfl

/-- Numbers up to a zero are a clause in front of the others. -/
theorem clausesOf?_append_zero {rest : List Int} {clauses : List (List Int)}
    (hrest : clausesOf? rest = some clauses) :
    ∀ clause : List Int, (∀ l ∈ clause, l ≠ 0) →
      clausesOf? (clause ++ 0 :: rest) = some (clause :: clauses) := by
  intro clause
  induction clause with
  | nil =>
      intro _
      simp [clausesOf?, hrest]
  | cons l clause ih =>
      intro h
      have hl : l ≠ 0 := h l List.mem_cons_self
      have htail := ih fun m hm => h m (List.mem_cons_of_mem _ hm)
      simp [clausesOf?, htail, hl]

/-- Clauses without zeros are found again between theirs. -/
theorem clausesOf?_flatMap {clauses : List (List Int)}
    (h : ∀ c ∈ clauses, ∀ l ∈ c, l ≠ 0) :
    clausesOf? (clauses.flatMap (· ++ [0])) = some clauses := by
  induction clauses with
  | nil => rfl
  | cons c clauses ih =>
      have hrest := ih fun c' hc' => h c' (List.mem_cons_of_mem _ hc')
      have hcons : (c :: clauses).flatMap (· ++ [0])
          = c ++ 0 :: clauses.flatMap (· ++ [0]) := by
        simp
      rw [hcons]
      exact clausesOf?_append_zero hrest c (h c List.mem_cons_self)

/-- A reader finds what the layout of a document promises. -/
theorem read?_of_laidOut {header : List Char} {body : List (List Char)}
    (hlines : textLines text
      = pieces.map (['c', ' '] ++ ·) ++ (header :: body ++ [[]]))
    (hplain : ∀ line ∈ header :: body, isComment line = false)
    (hheader : header? header = some (varCount, (clauses.length : Int)))
    (hbody : List.Forall₂ LineOf body clauses)
    (hnonzero : ∀ c ∈ clauses, ∀ l ∈ c, l ≠ 0) :
    read? text = some ⟨varCount, clauses.length, clauses⟩ := by
  have hdrop : (textLines text).filter (!isComment ·)
      = header :: (body ++ [[]]) := by
    have hcomments : (pieces.map (['c', ' '] ++ ·)).filter (!isComment ·)
        = [] := by
      rw [List.filter_eq_nil_iff]
      intro line hline
      obtain ⟨piece, -, rfl⟩ := List.mem_map.mp hline
      simp [isComment]
    have hrest : (header :: body ++ [[]]).filter (!isComment ·)
        = header :: body ++ [[]] := by
      rw [List.filter_eq_self]
      intro line hline
      rcases List.mem_append.mp hline with hline | hline
      · simp [hplain line hline]
      · rw [List.mem_singleton.mp hline]
        decide
    rw [hlines, List.filter_append, hcomments, hrest, List.nil_append]
    rfl
  have hnumbers : ((body ++ [[]]).flatMap words).mapM Numeral.int?
      = some (clauses.flatMap (· ++ [0])) := by
    rw [List.flatMap_append, List.flatMap_singleton, words_nil,
      List.append_nil]
    exact mapM_int?_words hbody
  unfold read?
  rw [hdrop]
  simp only [hheader, hnumbers, clausesOf?_flatMap hnonzero,
    Option.bind_eq_bind, Option.bind_some]
  rfl

/-- The lines laid out: one for each piece of the comment, the header,
and one for each clause. -/
theorem map_documentLines (comment : String) (varCount : Int)
    (clauses : List (List Int)) :
    (documentLines (commentLines comment) (toString varCount)
        (clauses.map fun clause => clause.map toString)).map String.toList
      = (Text.lines comment.toList).map (['c', ' '] ++ ·)
          ++ (header (toString varCount) clauses.length).toList
            :: clauses.map fun clause =>
                (clauseLine (clause.map toString)).toList := by
  have hpiece : ∀ piece : List Char,
      ("c " ++ String.ofList piece).toList = ['c', ' '] ++ piece := by
    intro piece
    have hpiece : (String.ofList piece).toList = piece :=
      String.toList_ofList
    rw [String.toList_append, hpiece]
    rfl
  simp only [documentLines, commentLines, List.map_append, List.map_cons,
    List.map_map, List.length_map, Function.comp_def, hpiece]

/-- No line laid out holds a break. -/
theorem not_isBreak_documentLines (comment : String) (varCount : Int)
    (clauses : List (List Int)) :
    ∀ line ∈ documentLines (commentLines comment) (toString varCount)
        (clauses.map fun clause => clause.map toString),
      ∀ c ∈ line.toList, Text.isBreak c = false := by
  intro line hline c hc
  have hletters : ∀ c ∈ ['c', ' '], Text.isBreak c = false :=
    List.forall_mem_cons.mpr
      ⟨by decide, List.forall_mem_singleton.mpr (by decide)⟩
  have hchars : line.toList ∈ _ := List.mem_map_of_mem hline
  rw [map_documentLines] at hchars
  rcases List.mem_append.mp hchars with hcomment | hrest
  · obtain ⟨piece, hpiece, hpieceline⟩ := List.mem_map.mp hcomment
    rw [← hpieceline] at hc
    rcases List.mem_append.mp hc with hc | hc
    · exact hletters c hc
    · exact Text.not_isBreak_of_mem_lines hpiece hc
  · rcases List.mem_cons.mp hrest with hheader | hclause
    · rw [hheader, toList_header] at hc
      exact not_isBreak_spaced (inked_headerWords _ _) c hc
    · obtain ⟨clause, -, hclauseline⟩ := List.mem_map.mp hclause
      rw [← hclauseline, toList_clauseLine] at hc
      exact not_isBreak_spaced (inked_numerals _) c hc

/-- What a comment, a number of variables and clauses are laid out as is a
document of the clauses behind the lines of the comment, however large the
numbers are. -/
theorem write_renders (comment : String) (varCount : Int)
    (hnonzero : ∀ c ∈ clauses, ∀ l ∈ c, l ≠ 0) :
    Renders (Text.lines comment.toList) varCount clauses
      (write comment varCount clauses) := by
  have hbreak := not_isBreak_documentLines comment varCount clauses
  have hlines : textLines (write comment varCount clauses)
      = (Text.lines comment.toList).map (['c', ' '] ++ ·)
          ++ ((header (toString varCount) clauses.length).toList
            :: clauses.map (fun clause =>
                (clauseLine (clause.map toString)).toList) ++ [[]]) := by
    rw [write, textLines_document hbreak, map_documentLines,
      List.append_assoc]
  have hplain : ∀ line ∈ (header (toString varCount) clauses.length).toList
      :: clauses.map (fun clause =>
          (clauseLine (clause.map toString)).toList),
      isComment line = false := by
    refine List.forall_mem_cons.mpr ⟨isComment_header _ _, ?_⟩
    exact List.forall_mem_map.mpr fun clause _ => isComment_clauseLine clause
  have hbody : List.Forall₂ LineOf
      (clauses.map fun clause => (clauseLine (clause.map toString)).toList)
      clauses :=
    List.forall₂_map_left_iff.mpr
      (List.forall₂_same.mpr fun clause _ => lineOf_clauseLine clause)
  have hheader := header?_header varCount clauses.length
  refine ⟨read?_of_laidOut hlines hplain hheader hbody hnonzero,
    ⟨_, _, hlines, hplain, hheader, hbody⟩, ?_⟩
  rw [write, textLines_document hbreak]
  intro line hline c hc
  rcases List.mem_append.mp hline with hline | hline
  · obtain ⟨text, htext, rfl⟩ := List.mem_map.mp hline
    exact hbreak text htext c hc
  · rw [List.mem_singleton.mp hline] at hc
    simp at hc

end Dimacs

end SatSession
