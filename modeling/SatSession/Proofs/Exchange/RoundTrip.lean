/-
What is written can be read back.

Whoever writes a clause set hands over values: the clauses as sequences of
any shape, the number of variables, and a comment that is a text or
nothing. The values that count are those that write a clause set
(`Value.IsClauseSet`), so that the text is the document of the clauses
themselves (`writeValues_eq`). Only the length of a numeral bounds what
can be written: a whole number with too many digits has no text, and then
nothing is written at all (`Writable`).

Main statement: the text of a clause set is read back as just this clause
set, whatever the comment holds, and two clause sets never share a text
(`writeValues_reads_back`).
-/
import SatSession.Proofs.ClauseData
import SatSession.Proofs.Exchange.Reading

namespace SatSession

namespace Value

variable {v : Value} {items : Items} {clause : List Int}

theorem items?_of_sequence (h : v.sequence? = some items) :
    v.items? = some items := by
  unfold sequence? at h
  split at h
  next =>
    split at h
    · exact h
    · cases h
  next => exact h
  next => exact h
  next => cases h

theorem length_countedList (step : Int) (count : Nat) (start : Int) :
    (Items.countedList step count start).length = count := by
  induction count generalizing start with
  | zero => rfl
  | succ count ih => rw [Items.countedList, List.length_cons, ih]

theorem length_itemsToList (items : Items) :
    items.toList.length = items.length := by
  cases items with
  | listed items => rfl
  | counted start step count => exact length_countedList ..

/-- What stands at positions is counted. -/
theorem length?_of_sequence (h : v.sequence? = some items) :
    v.length? = some items.toList.length := by
  have hitems := items?_of_sequence h
  have hlength : v.length? = v.items?.map Items.length := by
    unfold sequence? at h
    unfold length?
    split at h
    next shape _ =>
      split at h
      · cases shape <;> first | rfl | contradiction
      · cases h
    next => rfl
    next => rfl
    next => cases h
  rw [hlength, hitems, length_itemsToList]
  rfl

end Value

namespace Dimacs

variable {comment : Option String} {varCount : Int} {v : Value}
  {clauses : List (List Int)}

-- ============================================================ the comment

/-- A comment as a value: nothing, or a text. -/
def commentValue : Option String → Value
  | none => .none
  | some text => .text text

/-- The lines that a comment is cut into. -/
def pieces (comment : Option String) : List (List Char) :=
  Text.lines (comment.getD "").toList

/-- The comment lines are the lines of the comment; no comment and an
empty one have none. -/
theorem commentsOf_commentValue (comment : Option String) :
    commentsOf (commentValue comment)
      = .ok (commentLines (comment.getD "")) := by
  cases comment with
  | none => rfl
  | some text =>
      by_cases htext : text = ""
      · subst htext
        rfl
      · have htruthy : (Value.text text).isTruthy = true := by
          simp [Value.isTruthy, Value.length?, htext]
        simp only [commentsOf, commentValue, htruthy]
        rfl

-- =========================================================== the literals

/-- A whole number short enough to be written. -/
def Short (n : Int) : Prop := n.natAbs < Number.firstUnwritable

instance (n : Int) : Decidable (Short n) := by
  unfold Short
  infer_instance

/-- A problem in which every number is short enough to be written. -/
def Writable (varCount : Int) (clauses : List (List Int)) : Prop :=
  Short varCount ∧ ∀ clause ∈ clauses, ∀ l ∈ clause, Short l

instance : Decidable (Writable varCount clauses) := by
  unfold Writable
  infer_instance

/-- A whole number is written unless its numeral is too long. -/
theorem textOf_int (n : Int) :
    textOf (.int n)
      = if Short n then .ok (toString n) else .error .numeralLength := by
  simp only [textOf, Value.isWritable, Number.isWritable, Short,
    decide_eq_true_eq, Value.plainText, Number.text]

/-- The numerals of a clause; one that is too long is the fault of the
whole. -/
theorem mapM_textOf (clause : List Int) :
    (clause.map Value.int).mapM textOf
      = if ∀ l ∈ clause, Short l then .ok (clause.map toString)
        else .error .numeralLength := by
  induction clause with
  | nil => rfl
  | cons l clause ih =>
      rw [List.map_cons, List.mapM_cons, textOf_int, ih]
      by_cases hl : Short l
      · by_cases hrest : ∀ m ∈ clause, Short m
        · rw [if_pos hl, if_pos hrest,
            if_pos (List.forall_mem_cons.mpr ⟨hl, hrest⟩)]
          rfl
        · rw [if_pos hl, if_neg hrest,
            if_neg fun h => hrest (List.forall_mem_cons.mp h).2]
          rfl
      · rw [if_neg hl, if_neg fun h => hl (List.forall_mem_cons.mp h).1]
        rfl

/-- The literals of a clause are written unless one of them is too long. -/
theorem literalsOf_clause {clause : List Int} (h : v.IsClause clause) :
    literalsOf v
      = if ∀ l ∈ clause, Short l then .ok (clause.map toString)
        else .error .numeralLength := by
  obtain ⟨items, hseq, hitems⟩ := h
  rw [literalsOf, Value.items?_of_sequence hseq]
  simp only [hitems, mapM_textOf]

/-- The numerals of clause after clause, the latest first. -/
theorem foldlM_literalsOf {values : List Value}
    (h : List.Forall₂ Value.IsClause values clauses) :
    ∀ done : List (List String),
      values.foldlM
          (fun done clause => do return (← literalsOf clause) :: done) done
        = if ∀ c ∈ clauses, ∀ l ∈ c, Short l then
            .ok ((clauses.map fun c => c.map toString).reverse ++ done)
          else .error .numeralLength := by
  induction h with
  | nil =>
      intro done
      rfl
  | @cons w clause values clauses hw _ ih =>
      intro done
      rw [List.foldlM_cons, literalsOf_clause hw]
      by_cases hclause : ∀ l ∈ clause, Short l
      · have hrest := ih (clause.map toString :: done)
        simp only [if_pos hclause]
        refine hrest.trans ?_
        by_cases hclauses : ∀ c ∈ clauses, ∀ l ∈ c, Short l
        · rw [if_pos hclauses,
            if_pos (List.forall_mem_cons.mpr ⟨hclause, hclauses⟩)]
          simp
        · rw [if_neg hclauses,
            if_neg fun h => hclauses (List.forall_mem_cons.mp h).2]
      · rw [if_neg hclause,
          if_neg fun h => hclause (List.forall_mem_cons.mp h).1]
        rfl

-- ============================================================= the text

/-- What is written of a clause set: its document, unless some number is
too long for a numeral. -/
theorem writeValues_eq (comment : Option String) (varCount : Int)
    (hv : v.IsClauseSet clauses) (hlength : clauses.length < lengthBound) :
    writeValues (commentValue comment) (.int varCount) v
      = if Writable varCount clauses then
          .ok (write (comment.getD "") varCount clauses)
        else .error .numeralLength := by
  obtain ⟨items, hseq, hwrites⟩ := hv
  have hcount : items.toList.length = clauses.length := hwrites.length_eq
  simp only [writeValues, commentsOf_commentValue, textOf_int,
    Value.length?_of_sequence hseq, Value.items?_of_sequence hseq, hcount,
    Items.foldlM_eq, foldlM_literalsOf hwrites, List.append_nil]
  have hshort : ¬ lengthBound ≤ clauses.length := Nat.not_le.mpr hlength
  by_cases hvar : Short varCount
  · by_cases hclauses : ∀ c ∈ clauses, ∀ l ∈ c, Short l
    · have hw : Writable varCount clauses := ⟨hvar, hclauses⟩
      rw [if_pos hvar, if_pos hclauses, if_pos hw]
      simp [hshort, write, Except.bind, bind, pure, Except.pure]
    · have hw : ¬ Writable varCount clauses := fun h => hclauses h.2
      rw [if_pos hvar, if_neg hclauses, if_neg hw]
      simp [hshort, Except.bind, bind]
  · have hw : ¬ Writable varCount clauses := fun h => hvar h.1
    rw [if_neg hvar, if_neg hw]
    rfl

/-- A clause set whose length cannot be counted is not written. -/
theorem writeValues_ne_ok (comment : Option String) (varCount : Int)
    (hv : v.IsClauseSet clauses) (hlength : lengthBound ≤ clauses.length)
    (text : String) :
    writeValues (commentValue comment) (.int varCount) v ≠ .ok text := by
  obtain ⟨items, hseq, hwrites⟩ := hv
  have hcount : items.toList.length = clauses.length := hwrites.length_eq
  simp only [writeValues, commentsOf_commentValue, textOf_int,
    Value.length?_of_sequence hseq, Value.items?_of_sequence hseq, hcount]
  by_cases hvar : Short varCount
  · rw [if_pos hvar]
    simp [hlength, Except.bind, bind, throw, throwThe,
      MonadExceptOf.throw]
  · rw [if_neg hvar]
    intro h
    cases h

/-- A clause set has a text just when its numbers have numerals. -/
theorem writeValues_ok_iff (comment : Option String) (varCount : Int)
    (hv : v.IsClauseSet clauses) {text : String} :
    writeValues (commentValue comment) (.int varCount) v = .ok text
      ↔ (Writable varCount clauses ∧ clauses.length < lengthBound)
        ∧ text = write (comment.getD "") varCount clauses := by
  by_cases hlength : clauses.length < lengthBound
  · rw [writeValues_eq comment varCount hv hlength]
    by_cases hw : Writable varCount clauses
    · simp [hw, hlength, eq_comm]
    · simp [hw]
  · constructor
    · intro h
      exact absurd h (writeValues_ne_ok comment varCount hv
        (Nat.not_lt.mp hlength) text)
    · intro h
      exact absurd h.1.2 hlength

/-- What is written of a clause set without zeros reads back as this
clause set.

It is written if no number in it has too many digits for a numeral, and
otherwise that is the fault and nothing is written. The text is a document
of the clauses and of the number of variables, whatever the comment
holds: its comment lines are the lines of the comment, as many as there
are, all of them before the header. So no other clause set and no other
number of variables has the same text, under any comment. -/
theorem writeValues_reads_back (comment : Option String) (varCount : Int)
    (hv : v.IsClauseSet clauses)
    (hnonzero : ∀ c ∈ clauses, ∀ l ∈ c, l ≠ 0) :
    ((∃ text, writeValues (commentValue comment) (.int varCount) v
        = .ok text)
      ↔ Writable varCount clauses ∧ clauses.length < lengthBound)
    ∧ (¬ Writable varCount clauses → clauses.length < lengthBound →
      writeValues (commentValue comment) (.int varCount) v
        = .error .numeralLength)
    ∧ ∀ text,
      writeValues (commentValue comment) (.int varCount) v = .ok text →
        Renders (pieces comment) varCount clauses text
        ∧ ((textLines text).filter isComment).length
            = (pieces comment).length
        ∧ ∀ (comment' : Option String) (varCount' : Int) (v' : Value)
            (clauses' : List (List Int)),
          v'.IsClauseSet clauses' →
          (∀ c ∈ clauses', ∀ l ∈ c, l ≠ 0) →
          writeValues (commentValue comment') (.int varCount') v'
            = .ok text →
          varCount' = varCount ∧ clauses' = clauses := by
  refine ⟨⟨?_, ?_⟩, ?_, ?_⟩
  · rintro ⟨text, htext⟩
    exact ((writeValues_ok_iff comment varCount hv).mp htext).1
  · intro h
    exact ⟨_, (writeValues_ok_iff comment varCount hv).mpr ⟨h, rfl⟩⟩
  · intro hlong hlength
    rw [writeValues_eq comment varCount hv hlength, if_neg hlong]
  · intro text htext
    obtain ⟨-, rfl⟩ := (writeValues_ok_iff comment varCount hv).mp htext
    have hrenders := write_renders (comment.getD "") varCount hnonzero
    refine ⟨hrenders, ?_, ?_⟩
    · rw [hrenders.filter_isComment, List.length_map]
      rfl
    · intro comment' varCount' v' clauses' hv' hnonzero' htext'
      obtain ⟨-, hsame⟩ :=
        (writeValues_ok_iff comment' varCount' hv').mp htext'
      have hrenders' := write_renders (comment'.getD "") varCount' hnonzero'
      -- one text is a document of both problems, and reading has one result
      rw [← hsame] at hrenders'
      exact hrenders'.unique hrenders

/-- A comment that writes a header and a clause of its own, with breaks of
several kinds, changes nothing in what is read back. -/
theorem writeValues_reads_back_comment :
    ∃ text,
      writeValues (commentValue (some "p cnf 9 9\u2028-7 0\r\n8 0"))
          (.int 3) (.list [.list [.int 1, .int (-2)], .list []])
        = .ok text
      ∧ Renders (pieces (some "p cnf 9 9\u2028-7 0\r\n8 0")) 3
          [[1, -2], []] text
      ∧ ((textLines text).filter isComment).length = 3 := by
  have hv : (Value.list [.list [.int 1, .int (-2)], .list []]).IsClauseSet
      [[1, -2], []] :=
    ⟨_, rfl, .cons ⟨_, rfl, rfl⟩ (.cons ⟨_, rfl, rfl⟩ .nil)⟩
  have hreads := writeValues_reads_back
    (some "p cnf 9 9\u2028-7 0\r\n8 0") 3 hv (by decide)
  obtain ⟨text, htext⟩ := hreads.1.mpr (by decide +kernel)
  obtain ⟨hrenders, hcount, -⟩ := hreads.2.2 text htext
  exact ⟨text, htext, hrenders, hcount.trans (by decide)⟩

/-- Numbers of any size cannot all be written: the literal that is the
first one with too many digits leaves its clause set without a text. -/
theorem not_always_written :
    ¬ ∀ (comment : Option String) (varCount : Int) (v : Value)
      (clauses : List (List Int)), v.IsClauseSet clauses →
      (∀ c ∈ clauses, ∀ l ∈ c, l ≠ 0) →
      ∃ text,
        writeValues (commentValue comment) (.int varCount) v = .ok text
        ∧ Renders (pieces comment) varCount clauses text := by
  intro h
  have hpos : Number.firstUnwritable ≠ 0 := by decide +kernel
  generalize hn : ((Number.firstUnwritable : Nat) : Int) = n at *
  have hv : (Value.list [.list [.int n]]).IsClauseSet [[n]] :=
    ⟨_, rfl, .cons ⟨_, rfl, rfl⟩ .nil⟩
  have hnonzero : ∀ c ∈ [[n]], ∀ l ∈ c, l ≠ 0 := by
    intro c hc l hl
    rw [List.mem_singleton.mp hc] at hl
    rw [List.mem_singleton.mp hl, ← hn]
    exact Int.natCast_ne_zero.mpr hpos
  obtain ⟨text, htext, -⟩ := h none 1 _ [[n]] hv hnonzero
  obtain ⟨⟨hwritable, -⟩, -⟩ := (writeValues_ok_iff none 1 hv).mp htext
  have hshort : Short n :=
    hwritable.2 [n] List.mem_cons_self n List.mem_cons_self
  rw [Short, ← hn, Int.natAbs_natCast] at hshort
  exact absurd hshort (Nat.lt_irrefl _)

end Dimacs

end SatSession
