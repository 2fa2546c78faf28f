/-
The rounds of an enumeration, as the engine hears them.

An advance of an open cursor is one search and, if that found something, a
reading for the solution, a second one for the clause against it, and that
clause (`Round`). What follows the input clauses in the record of an engine
is one round after the other, one for each solution handed out, and at the
end at most one search that found nothing, and the reset
(`Cursor.collect_rounds`).

For an engine that does not change its answers between a search and the end
of the next clause both readings of a round are one, so that each clause
says the opposite of its solution (`Cursor.solutions_ruled_out`).
-/
import SatSession.Proofs.Conversation.Closing
import SatSession.Proofs.Conversation.Reading
import Mathlib.Data.List.ReduceOption

namespace SatSession

variable {E α : Type} {own : E → BlockId → Prop}

-- =============================================================== rounds

/-- One solution: how it was read, and how it was read once more to be
ruled out. -/
structure Round where
  solution : Solution
  read : Reading
  reread : Reading

namespace Round

/-- What the engine hears in one round. -/
def exchanges (t : Round) : List Exchange :=
  ⟨.solve Session.noBudget, .value (.int 10)⟩
    :: (t.read.asked ++ t.reread.asked ++ t.reread.blocking)

/-- Both readings go through all variables; the solution is made of the
first, and the second is clear enough to make a clause of it. -/
structure Sound (t : Round) : Prop where
  full : t.read.Full
  refull : t.reread.Full
  spelt : Reading.Spelt 1 t.read.values t.solution
  signed : ∀ v ∈ t.reread.values, Reading.Signed v

end Round

/-- The search that ends an enumeration: an answer that is not the code of
a solution, and the reset. -/
def endOfRounds (code : Value) : List Exchange :=
  [⟨.solve Session.noBudget, .value code⟩, ⟨.reset, .done⟩]

namespace Cursor

open Recorded Session

/-- What has been said to the engine of a cursor. -/
def said (p : Placed (Cursor (Recorded E))) : List Exchange :=
  Session.said ⟨p.object.session, p.host⟩

/-- An open cursor whose engine has only blocks that were handed out, and
whose buffer is none of them. -/
structure Underway (own : E → BlockId → Prop)
    (p : Placed (Cursor (Recorded E))) : Prop where
  unclosed : p.object.closed = false
  unexhausted : p.object.exhausted = false
  alive : p.object.session.destroyed = false
  bounded : Bounded (owned own) ⟨p.object.session.engine, p.host⟩
  scratch : ∀ b, p.object.scratch = some b →
    Holds (owned own) b [] ⟨p.object.session, p.host⟩

variable {p q : Placed (Cursor (Recorded E))} [Engine E]

omit [Engine E] in
/-- A part of an advance that concerns the session. -/
theorem Underway.heard (h : Underway own p) {told : List Exchange}
    {q : Placed (Session (Recorded E))}
    (hq : Heard own told ⟨p.object.session, p.host⟩ q) :
    Underway own ⟨{ p.object with session := q.object }, q.host⟩ where
  unclosed := h.unclosed
  unexhausted := h.unexhausted
  alive := hq.destroyed.trans h.alive
  bounded := h.bounded.confined hq.confined
  scratch b hb := (h.scratch b hb).confined hq.confined

/-- What one advance comes to, by the solution that it answers. -/
def Advances (own : E → BlockId → Prop)
    (p q : Placed (Cursor (Recorded E))) : Option Solution → Prop
  | some s => Underway own q ∧ ∃ t : Round, t.Sound ∧ t.solution = s
      ∧ said q = said p ++ t.exchanges
  | none => Underway own q ∧ ∃ code, code ≠ .int 10
      ∧ said q = said p ++ [⟨.solve noBudget, .value code⟩]

/-- One advance that does not fail is a round, or a search that found
nothing. -/
theorem advance_rounds (h : Modest own) (hp : Underway own p) :
    Ends (fun answer q => Advances own p q answer.2) (fun _ _ => True)
      (advance p) := by
  unfold advance
  rw [ends_bind, ends_onSession]
  refine (invoke_heard h noBudget hp.alive).imp ?_ fun _ _ _ => trivial
  rintro outcome q₁ ⟨code, hcode, hq₁⟩
  have hp₁ := hp.heard hq₁
  have hofCode := Outcome.ofCode_eq_ok_iff.mp hcode
  by_cases hsat : outcome = .satisfiable
  · subst hsat
    cases hofCode
    simp only [if_true]
    rw [ends_bind, ends_onSession]
    refine (decode_reads h _).imp_answer ?_
    rintro s q₂ ⟨read, hfull, hspelt, hq₂⟩
    have hp₂ := hp₁.heard hq₂
    rw [Op.read_bind_apply, ends_bind, ends_onSession]
    refine (block_reads h hp₂.bounded hp₂.scratch).imp_answer ?_
    rintro b q₃ ⟨reread, hrefull, hsigned, hq₃⟩
    refine ⟨?_, ⟨s, read, reread⟩, ⟨hfull, hrefull, hspelt, hsigned⟩, rfl,
      ?_⟩
    · refine ⟨hp.unclosed, hp.unexhausted,
        hq₃.destroyed.trans hp₂.alive, hq₃.holds.bounded, ?_⟩
      intro c hc
      cases hc
      exact hq₃.holds
    · have hread : Session.said q₂ = Session.said q₁ ++ read.asked :=
        hq₂.said
      have hreread : Session.said q₃
          = Session.said q₂ ++ (reread.asked ++ reread.blocking) := hq₃.said
      show Session.said q₃ = said p ++ _
      rw [hreread, hread, hq₁.said]
      simp [said, Round.exchanges, TableEngine.codeOf]
  · rw [if_neg hsat]
    refine ⟨hp₁, code, ?_, hq₁.said⟩
    rintro rfl
    cases hcode
    exact hsat rfl

-- ============================================================ the end

/-- Destroying a session that is alive resets its engine. -/
theorem destroy_resets {p : Placed (Session (Recorded E))}
    (halive : p.object.destroyed = false) :
    Ends (fun _ q => Session.said q = Session.said p ++ [⟨.reset, .done⟩])
      (fun _ _ => True) (Session.destroy p) := by
  unfold Session.destroy
  rw [Op.read_bind_apply]
  simp only [halive, Bool.false_eq_true, if_false]
  rw [Op.update_bind_apply, ends_bind, onEngine, Op.ends_within]
  show Ends _ _ (hear .reset (fun _ => Response.done) Engine.reset
    ⟨p.object.engine, p.host⟩)
  exact hear_ends.imp (fun _ _ hq => hq) fun _ _ _ => trivial

/-- Closing an open cursor resets its engine. -/
theorem close_resets (hopen : p.object.closed = false)
    (halive : p.object.session.destroyed = false) :
    Ends (fun _ q => q.object.closed = true
        ∧ said q = said p ++ [⟨.reset, .done⟩])
      (fun _ _ => True) (close p) := by
  unfold close
  rw [Op.read_bind_apply]
  simp only [hopen, Bool.false_eq_true, if_false]
  rw [Op.update_bind_apply, Op.ends_thenAlways]
  refine (releaseScratch_gives _).imp ?_ ?_
  · rintro _ ⟨c, host⟩ hgave
    have hsession : c.session = p.object.session := hgave.session
    rw [ends_onSession, hsession]
    refine (destroy_resets halive).imp_answer ?_
    exact fun _ q hq => ⟨hgave.closed, hq⟩
  · exact fun f q _ => (ends_true _).imp_answer fun _ _ _ => trivial

/-- What one `next` of an open cursor comes to. -/
def Rounds (own : E → BlockId → Prop)
    (p q : Placed (Cursor (Recorded E))) : Option Solution → Prop
  | some s => Underway own q ∧ ∃ t : Round, t.Sound ∧ t.solution = s
      ∧ said q = said p ++ t.exchanges
  | none => q.object.closed = true ∧ ∃ code, code ≠ .int 10
      ∧ said q = said p ++ endOfRounds code

/-- One `next` that does not fail is a round, or the end. -/
theorem next_rounds (h : Modest own) (hp : Underway own p) :
    Ends (fun answer q => Rounds own p q answer) (fun _ _ => True)
      (next p) := by
  unfold next
  rw [Op.read_bind_apply]
  simp only [hp.unclosed, hp.unexhausted, Bool.or_self, Bool.false_eq_true,
    if_false]
  rw [ends_bind, Op.ends_orRelease]
  refine (advance_rounds h hp).imp ?_ ?_
  · rintro ⟨outcome, solution⟩ q hq
    cases solution with
    | some s => exact hq
    | none =>
        obtain ⟨hunderway, code, hcode, hsaid⟩ := hq
        show Ends _ _ ((close >>= fun _ => pure none)
          (⟨{ q.object with exhausted := true }, { q.host with
            log := q.host.log.push
              (.enumerationFinished q.object.count outcome) }⟩ :
            Placed (Cursor (Recorded E))))
        rw [ends_bind]
        refine Ends.imp_answer (close_resets ?_ ?_) ?_
        · exact hunderway.unclosed
        · exact hunderway.alive
        rintro _ q' ⟨hclosed, hreset⟩
        refine ⟨hclosed, code, hcode, ?_⟩
        have hsaid' : said q' = said q ++ [⟨.reset, .done⟩] := hreset
        rw [hsaid', hsaid, List.append_assoc]
        rfl
  · exact fun f q _ => (ends_true _).imp_answer fun _ _ _ => trivial

-- ================================================================ runs

/-- What many turns of `next` come to: rounds for the solutions, and then
the end, unless the cursor is still open. -/
structure Came (own : E → BlockId → Prop)
    (p q : Placed (Cursor (Recorded E))) (answers : List (Option Solution))
    (rounds : List Round) (ending : List Exchange) : Prop where
  said : said q = said p ++ rounds.flatMap Round.exchanges ++ ending
  solutions : answers.reduceOption = rounds.map Round.solution
  sound : ∀ t ∈ rounds, t.Sound
  ending : ending = [] ∧ Underway own q
    ∨ (∃ code, code ≠ .int 10 ∧ ending = endOfRounds code)
      ∧ q.object.closed = true

/-- A closed cursor gives nothing, however often it is asked. -/
theorem collect_of_closed (hc : p.object.closed = true)
    (count first : Nat) :
    Op.collect (fun _ => next) count first p
      = .ok (List.replicate count none) p := by
  have hall : ∀ i, first ≤ i → i < first + count →
      next p = .ok none p := fun _ _ _ => next_of_closed hc
  rw [collect_eq (fun _ => none) count first hall]
  simp

/-- Any number of turns of `next` that do not fail. -/
theorem collect_rounds (h : Modest own) :
    ∀ (count first : Nat) (p : Placed (Cursor (Recorded E))),
      Underway own p →
      Ends (fun answers q => ∃ rounds ending,
          Came own p q answers rounds ending)
        (fun _ _ => True) (Op.collect (fun _ => next) count first p) := by
  intro count
  induction count with
  | zero =>
      intro first p hp
      exact ⟨[], [], by simp, rfl, by simp, Or.inl ⟨rfl, hp⟩⟩
  | succ count ih =>
      intro first p hp
      simp only [Op.collect, ends_bind]
      refine (next_rounds h hp).imp_answer ?_
      intro answer q hq
      cases answer with
      | some s =>
          obtain ⟨hunderway, t, hsound, hsolution, hsaid⟩ := hq
          refine (ih (first + 1) q hunderway).imp_answer ?_
          rintro answers r ⟨rounds, ending, hr⟩
          refine ⟨t :: rounds, ending, ?_, ?_, ?_, hr.ending⟩
          · rw [hr.said, hsaid]
            simp
          · rw [List.reduceOption_cons_of_some, hr.solutions, ← hsolution]
            rfl
          · intro t' ht'
            rcases List.mem_cons.mp ht' with rfl | ht'
            · exact hsound
            · exact hr.sound t' ht'
      | none =>
          obtain ⟨hclosed, code, hcode, hsaid⟩ := hq
          rw [collect_of_closed hclosed]
          refine ⟨[], endOfRounds code, ?_, ?_, by simp,
            Or.inr ⟨⟨code, hcode, rfl⟩, hclosed⟩⟩
          · simpa using hsaid
          · simp

-- ===================================================== what is asked once

/-- The entries of the calls of some kind. -/
def heard (P : Call → Bool) (p : Placed (Cursor (Recorded E))) :
    List Exchange :=
  p.object.session.engine.heard P

variable {P : Call → Bool}

omit [Engine E] in
theorem onSession_leaves_heard {x : Op (Session (Recorded E)) α}
    (hx : Leaves (Session.ledger P) x) : Leaves (heard P) (onSession x) := by
  apply hx.within
  intro c host q hq
  exact congrArg (fun l => l.2.1) hq

omit [Engine E] in
/-- What is said later is heard later, as far as it is heard at all. -/
theorem heard_append {told : List Exchange} (h : said q = said p ++ told) :
    heard P q = heard P p ++ told.filter fun e => P e.call := by
  have hrecord : q.object.session.engine.record
      = p.object.session.engine.record ++ told := h
  rw [heard, Recorded.heard, hrecord, List.filter_append]
  rfl

/-- Closing makes no calls but the reset. -/
theorem close_leaves_heard (hP : P .reset = false) :
    Leaves (heard P) (close : Op (Cursor (Recorded E)) Unit) := by
  have hdestroy : Leaves (heard P)
      (onSession Session.destroy : Op (Cursor (Recorded E)) Unit) := by
    have hsession : Leaves (fun p : Placed (Session (Recorded E)) =>
        p.object.engine.heard P) Session.destroy := by
      unfold Session.destroy
      refine Moves.read.bind fun s => .ite (.pure _) ?_
      refine Moves.bind (Moves.update fun _ _ => rfl) fun _ => ?_
      refine Moves.bind ?_ fun _ => Moves.read.bind fun s => ?_
      · apply Moves.within (hear_leaves (P := P) hP)
        exact fun s host q hq => congrArg Prod.fst hq
      · exact Moves.onHost (Host.note_leaves _) fun _ _ _ _ => rfl
    apply hsession.within
    exact fun c host q hq => hq
  intro p
  unfold close
  rw [Op.read_bind_apply]
  split
  · rfl
  rw [Op.update_bind_apply, Op.ends_thenAlways]
  have hclose : ∀ q, Gave ⟨{ p.object with closed := true }, p.host⟩ q →
      Ends (fun _ q => heard P q = heard P p)
        (fun _ q => heard P q = heard P p)
        (onSession Session.destroy q) := by
    intro q hgave
    have hsame : heard P q = heard P p := by
      rw [heard, hgave.session]
      rfl
    refine (hdestroy q).imp ?_ ?_
    · exact fun _ _ h => Eq.trans h hsame
    · exact fun _ _ h => Eq.trans h hsame
  refine (releaseScratch_gives _).imp ?_ ?_
  · exact fun _ q hgave => hclose q hgave
  · exact fun f q hgave => (hclose q hgave).imp (fun _ _ h => h)
      fun _ _ h => h

/-- One search more, without a cap of its own, and if that did not find
anything, nothing added to the clauses. -/
def AskedOnce (p q : Placed (Cursor (Recorded E))) : Prop :=
  ∃ response,
    heard Call.isSolve q
        = heard Call.isSolve p ++ [⟨.solve noBudget, response⟩]
      ∧ (response ≠ .value (.int 10) →
        heard Call.isAdding q = heard Call.isAdding p)

omit [Engine E] in
/-- A search that is all that was said. -/
theorem AskedOnce.of_said {response : Response}
    (h : said q = said p ++ [⟨.solve noBudget, response⟩]) :
    AskedOnce p q := by
  refine ⟨response, heard_append h, fun _ => ?_⟩
  rw [heard_append h]
  exact List.append_nil _

omit [Engine E] in
/-- What follows may leave the searches and the clauses. -/
theorem AskedOnce.then {r : Placed (Cursor (Recorded E))}
    (h : AskedOnce p q)
    (hsolve : heard Call.isSolve r = heard Call.isSolve q)
    (hadd : heard Call.isAdding r = heard Call.isAdding q) :
    AskedOnce p r := by
  obtain ⟨response, hsolved, hadded⟩ := h
  refine ⟨response, hsolve.trans hsolved, fun hnot => ?_⟩
  exact hadd.trans (hadded hnot)

/-- An advance searches once, whether or not it fails. -/
theorem advance_asks (h : Modest own) (hp : Underway own p) :
    Ends (fun _ q => AskedOnce p q) (fun _ q => AskedOnce p q)
      (advance p) := by
  unfold advance
  rw [ends_bind, ends_onSession]
  refine (invoke_heard h noBudget hp.alive).imp ?_ ?_
  · rintro outcome q₁ ⟨code, hcode, hq₁⟩
    by_cases hsat : outcome = .satisfiable
    · subst hsat
      cases Outcome.ofCode_eq_ok_iff.mp hcode
      -- behind the code of a solution only the searches are looked at
      have hmarked : Marked Call.isSolve := fun _ hsolve _ => hsolve
      have hrest : Leaves (heard Call.isSolve) (do
          let solution ← onSession Session.decode
          let buffer ← onSession (Session.block (← Op.read).scratch)
          Op.update fun c =>
            { c with scratch := some buffer, count := c.count + 1 }
          return (Outcome.satisfiable, some solution) :
            Op (Cursor (Recorded E)) (Outcome × Option Solution)) := by
        have hallows := ledger_allows (E := E) hmarked
        have hdecode := onSession_leaves_heard
          (decode_moves hallows.variableCount hallows.valueOf)
        refine hdecode.bind fun solution => Moves.read.bind fun c => ?_
        have hblock := onSession_leaves_heard
          (block_moves hallows.toDeals c.scratch)
        refine hblock.bind fun buffer => ?_
        exact Moves.bind (Moves.update fun _ _ => rfl) fun _ => .pure _
      have hfound : ∀ q, heard Call.isSolve q = heard Call.isSolve
          ⟨{ p.object with session := q₁.object }, q₁.host⟩ →
          AskedOnce p q := by
        intro q hq
        have hsaid : said (⟨{ p.object with session := q₁.object },
            q₁.host⟩ : Placed (Cursor (Recorded E)))
            = said p ++ [⟨.solve noBudget, .value (.int 10)⟩] := hq₁.said
        refine ⟨.value (.int 10), ?_, fun hnot => absurd rfl hnot⟩
        rw [hq]
        exact heard_append hsaid
      exact (hrest _).imp (fun _ q hq => hfound q hq)
        fun _ q hq => hfound q hq
    · rw [if_neg hsat]
      exact AskedOnce.of_said hq₁.said
  · rintro f q₁ ⟨response, -, hsaid⟩
    exact AskedOnce.of_said hsaid

/-- A `next` of an open cursor searches once, whether or not it fails. -/
theorem next_asks (h : Modest own) (hp : Underway own p) :
    Ends (fun _ q => AskedOnce p q) (fun _ q => AskedOnce p q)
      (next p) := by
  have hclose : ∀ {α : Type} (k : Op (Cursor (Recorded E)) α) q,
      (∀ P, P .reset = false → Leaves (heard P) k) → AskedOnce p q →
      Ends (fun _ q => AskedOnce p q) (fun _ q => AskedOnce p q) (k q) := by
    intro α k q hk hq
    refine ((hk Call.isSolve rfl q).and (hk Call.isAdding rfl q)).imp ?_ ?_
    · exact fun _ r hr => hq.then hr.1 hr.2
    · exact fun _ r hr => hq.then hr.1 hr.2
  unfold next
  rw [Op.read_bind_apply]
  simp only [hp.unclosed, hp.unexhausted, Bool.or_self, Bool.false_eq_true,
    if_false]
  rw [ends_bind, Op.ends_orRelease]
  refine (advance_asks h hp).imp ?_ ?_
  · rintro ⟨outcome, solution⟩ q hq
    cases solution with
    | some s => exact hq
    | none =>
        apply hclose _ q _ hq
        intro P hP
        refine Moves.read.bind fun c => ?_
        refine Moves.bind ?_ fun _ => ?_
        · exact Moves.onHost (Host.note_leaves _) fun _ _ _ _ => rfl
        refine Moves.bind (Moves.update fun _ _ => rfl) fun _ => ?_
        exact (close_leaves_heard hP).bind fun _ => .pure none
  · intro f q hq
    exact hclose close q (fun P hP => close_leaves_heard hP) hq

end Cursor

-- ============================================================= steadiness

/-- Whether a call parts one assignment from the next. -/
def Call.parts : Call → Bool
  | solve _ | terminateClause => true
  | _ => false

/-- An engine that does not change its answers between a search and the
next end of a clause, as far as its record shows. -/
def Steady (record : List Exchange) : Prop :=
  ∀ earlier budget response since later,
    record = earlier ++ ⟨.solve budget, response⟩ :: (since ++ later) →
    (∀ e ∈ since, e.call.parts = false) → Reading.Consistent since

/-- A reading only asks. -/
theorem Reading.asked_parts (r : Reading) :
    ∀ e ∈ r.asked, e.call.parts = false := by
  have hvalues : ∀ (values : List Value) (i : Nat), ∀ e ∈ askedFrom i values,
      e.call.parts = false := by
    intro values
    induction values with
    | nil => intro i e he; cases he
    | cons v rest ih =>
        intro i e he
        rcases List.mem_cons.mp he with rfl | he
        · rfl
        · exact ih (i + 1) e he
  intro e he
  rcases List.mem_cons.mp he with rfl | he
  · rfl
  · exact hvalues r.values 1 e he

/-- Both readings of a round are one if the engine is steady. -/
theorem Round.Sound.reread_eq {t : Round} (h : t.Sound)
    {earlier later : List Exchange}
    (hsteady : Steady (earlier ++ t.exchanges ++ later)) :
    t.reread = t.read := by
  refine (Reading.eq_of_consistent h.full h.refull ?_).symm
  refine hsteady earlier Session.noBudget (.value (.int 10))
    (t.read.asked ++ t.reread.asked) (t.reread.blocking ++ later) ?_ ?_
  · simp [Round.exchanges]
  · intro e he
    rcases List.mem_append.mp he with he | he
    · exact t.read.asked_parts e he
    · exact t.reread.asked_parts e he

-- What is asked and answered is looked at as far as it is a number; that
-- is enough to tell the questions of a session apart.

/-- The number that a value is. -/
def Value.number? : Value → Option Number
  | .number a => some a
  | _ => Option.none

namespace Steady

/-- Whether two entries can be seen to ask for different things, or to
answer with the same number. -/
def agree (e e' : Exchange) : Bool :=
  (e.call.method, e.call.argument?.bind Value.number?)
      != (e'.call.method, e'.call.argument?.bind Value.number?)
    || match e.response, e'.response with
      | .value v, .value w => v.number?.isSome && v.number? == w.number?
      | _, _ => true

/-- Whether a record can be seen to be that of a steady engine. -/
def check : List Exchange → Bool
  | [] => true
  | e :: rest =>
      let since := rest.takeWhile fun e => !e.call.parts
      (!e.call.isSolve || since.all fun e => since.all (agree e))
        && check rest

/-- A value that is a number is known by that number. -/
theorem eq_of_number? {v w : Value} (hsome : v.number?.isSome = true)
    (h : v.number? = w.number?) : v = w := by
  cases v with
  | number a =>
      cases w with
      | number b => rw [Option.some.inj h]
      | _ => cases h
  | _ => cases hsome

/-- What can be seen of a record is so. -/
theorem of_check {record : List Exchange} (h : check record = true) :
    Steady record := by
  induction record with
  | nil =>
      intro earlier budget response since later heq
      simp at heq
  | cons e rest ih =>
      intro earlier budget response since later heq hquiet
      rw [check, Bool.and_eq_true] at h
      obtain ⟨hhere, hrest⟩ := h
      cases earlier with
      | cons _ earlier =>
          rw [List.cons_append, List.cons.injEq] at heq
          exact ih hrest earlier budget response since later heq.2 hquiet
      | nil =>
          rw [List.nil_append, List.cons.injEq] at heq
          obtain ⟨rfl, rfl⟩ := heq
          have hin : ∀ e ∈ since,
              e ∈ (since ++ later).takeWhile fun e => !e.call.parts := by
            intro e he
            rw [List.takeWhile_append_of_pos fun e he => by simp [hquiet e he]]
            exact List.mem_append_left _ he
          simp only [Call.isSolve, Bool.not_true, Bool.false_or,
            List.all_eq_true] at hhere
          intro e he e' he' hcall v w hv hw
          have hagree := hhere e (hin e he) e' (hin e' he')
          simp only [agree, hcall, hv, hw, bne_self_eq_false, Bool.false_or,
            Bool.and_eq_true, beq_iff_eq] at hagree
          exact eq_of_number? hagree.1 hagree.2

end Steady

-- ========================================================= enumerations

namespace Cursor

open Recorded Session

variable [Engine E]

/-- A cursor that has been made is open, and its engine is loaded with all
clauses. -/
theorem enumerate_underway (h : Modest own) {make : HostOp E} {host : Host}
    (hmake : Ends (fun e host' => Bounded own ⟨e, host'⟩)
      (fun _ _ => True) (make host))
    (clauses vars verbose propLimit : Value) :
    Ends (fun c host' => Underway own ⟨c, host'⟩
        ∧ ∃ config, Config.build vars verbose propLimit = .ok config
          ∧ Loaded config clauses c.session.engine)
      (fun _ _ => True)
      (enumerate (Recorded.making make) clauses vars verbose propLimit
        host) := by
  unfold enumerate checkedConfig
  cases hconfig : Config.build vars verbose propLimit with
  | error f => trivial
  | ok config =>
      have hmaking : Ends (fun e host' => Bounded (owned own) ⟨e, host'⟩)
          (fun _ _ => True) (Recorded.making make host) := by
        unfold Recorded.making
        rw [ends_bind]
        exact hmake
      rw [ends_bind, ends_pure, ends_bind]
      refine ((create_bounded (Recorded.modest h) hmaking config clauses).and
        (create_loads make config clauses host)).imp ?_ fun _ _ _ => trivial
      rintro s host' ⟨hbounded, halive, hloaded⟩
      refine ⟨⟨rfl, rfl, halive, hbounded, ?_⟩, config, rfl, hloaded⟩
      intro b hb
      cases hb

/-- Every solution is ruled out before the next search. -/
theorem solutions_ruled_out (h : Modest own) {make : HostOp E} {host : Host}
    (hmake : Ends (fun e host' => Bounded own ⟨e, host'⟩)
      (fun _ _ => True) (make host))
    {clauses vars verbose propLimit : Value} {c : Cursor (Recorded E)}
    {host₁ : Host}
    (hmade : enumerate (Recorded.making make) clauses vars verbose propLimit
      host = .ok c host₁)
    {count : Nat} {answers : List (Option Solution)}
    {q : Placed (Cursor (Recorded E))}
    (hrun : Op.collect (fun _ => next) count 1 ⟨c, host₁⟩
      = .ok answers q) :
    (∃ config literals, clauses.IsClauseSet literals
      ∧ c.session.engine.calls
        = loadingCalls config literals ++ [.variableCount])
    ∧ (∃ (rounds : List Round) (ending : List Exchange),
      said q = said ⟨c, host₁⟩ ++ rounds.flatMap Round.exchanges ++ ending
      ∧ answers.reduceOption = rounds.map Round.solution
      ∧ (ending = [] ∨ ∃ code, code ≠ .int 10 ∧ ending = endOfRounds code)
      ∧ (Steady (said q) → ∀ t ∈ rounds, t.reread = t.read ∧ t.read.Full
        ∧ t.read.RulesOut t.solution))
    ∧ (q.object.closed = false →
      Ends (fun _ q' => AskedOnce q q') (fun _ q' => AskedOnce q q')
        (next q)) := by
  have hunderway := enumerate_underway h hmake clauses vars verbose propLimit
  rw [hmade] at hunderway
  obtain ⟨hunderway, config, -, hloaded⟩ := hunderway
  have hrounds := collect_rounds h count 1 ⟨c, host₁⟩ hunderway
  rw [hrun] at hrounds
  obtain ⟨rounds, ending, hcame⟩ := hrounds
  obtain ⟨literals, hliterals, hcalls⟩ := hloaded.calls
  refine ⟨⟨config, literals, hliterals, hcalls⟩,
    ⟨rounds, ending, hcame.said, hcame.solutions, ?_, ?_⟩, ?_⟩
  · rcases hcame.ending with ⟨hnil, -⟩ | ⟨hcode, -⟩
    · exact Or.inl hnil
    · exact Or.inr hcode
  · intro hsteady t ht
    have hsound := hcame.sound t ht
    obtain ⟨before, behind, rfl⟩ := List.append_of_mem ht
    -- within a round nothing but the two readings lies between the search
    -- and the terminator, so a steady engine answers the same twice
    have hreread : t.reread = t.read := by
      have hsaid := hcame.said
      simp only [List.flatMap_append, List.flatMap_cons] at hsaid
      have hsplit : said q
          = (said ⟨c, host₁⟩ ++ before.flatMap Round.exchanges)
            ++ t.exchanges
            ++ (behind.flatMap Round.exchanges ++ ending) := by
        rw [hsaid]
        simp only [List.append_assoc]
      rw [hsplit] at hsteady
      exact hsound.reread_eq hsteady
    refine ⟨hreread, hsound.full, Reading.rulesOut hsound.spelt ?_⟩
    rw [← hreread]
    exact hsound.signed
  · intro hopen
    rcases hcame.ending with ⟨-, hq⟩ | ⟨-, hclosed⟩
    · exact next_asks h hq
    · rw [hopen] at hclosed
      cases hclosed

/-- One solution, said in numbers of two kinds. -/
theorem solutions_ruled_out_mixed_kinds :
    let script : Script := {
      codes := [.int 10, .int 20]
      models := [[.number (.float (.ofInt 1)), .int (-1)]] }
    let host := Host.new (.open false) none
    let v : Value := .seq .list [.seq .list [.int 1, .int 2]]
    Ends
      (fun c host₁ => Ends
        (fun answers q =>
          (∃ (rounds : List Round) (ending : List Exchange),
            said q = said ⟨c, host₁⟩ ++ rounds.flatMap Round.exchanges
              ++ ending
            ∧ answers.reduceOption = rounds.map Round.solution
            ∧ ∀ t ∈ rounds, t.reread = t.read ∧ t.read.Full
              ∧ t.read.RulesOut t.solution)
          ∧ answers.map (Option.map fun s => s.map Value.fullText)
            = [some ["1.0", "-2"], none, none]
          ∧ (heard Call.isAdding q).map (fun e => e.call.text)
            = ["add_literal 1", "add_literal 2", "terminate_clause",
              "add_literal -1", "add_literal 2", "terminate_clause"])
        (fun _ _ => False)
        (Op.collect (fun _ => next) 3 1 ⟨c, host₁⟩))
      (fun _ _ => False)
      (enumerate (Recorded.making (pure ({ script := script } : Scripted)))
        v (.int (-1)) (.int 0) (.int 0) host) := by
  intro script host v
  have hmake : Ends (fun e host' => Bounded (fun _ _ => False) ⟨e, host'⟩)
      (fun _ _ => True)
      ((pure ({ script := script } : Scripted) : HostOp Scripted) host) :=
    fun _ h => h.elim
  generalize hmade : enumerate
    (Recorded.making (pure ({ script := script } : Scripted))) v
    (.int (-1)) (.int 0) (.int 0) host = made
  have hconcrete : Ends
      (fun c host₁ => Ends
        (fun answers q => Steady.check (said q) = true
          ∧ answers.map (Option.map fun s => s.map Value.fullText)
            = [some ["1.0", "-2"], none, none]
          ∧ (heard Call.isAdding q).map (fun e => e.call.text)
            = ["add_literal 1", "add_literal 2", "terminate_clause",
              "add_literal -1", "add_literal 2", "terminate_clause"])
        (fun _ _ => False)
        (Op.collect (fun _ => next) 3 1 ⟨c, host₁⟩))
      (fun _ _ => False) made := by
    rw [← hmade]
    decide +kernel
  cases made with
  | error f host₁ => exact hconcrete
  | ok c host₁ =>
      rw [ends_ok] at hconcrete
      rw [ends_ok]
      cases hrun : Op.collect (fun _ => next) 3 1 ⟨c, host₁⟩ with
      | error f q =>
          rw [hrun] at hconcrete
          exact hconcrete
      | ok answers q =>
          rw [hrun, ends_ok] at hconcrete
          obtain ⟨hcheck, hfacts⟩ := hconcrete
          obtain ⟨-, ⟨rounds, ending, hsaid, hsolutions, -, hruled⟩, -⟩ :=
            solutions_ruled_out Scripted.modest hmake hmade hrun
          have hrounds := hruled (Steady.of_check hcheck)
          exact ⟨⟨rounds, ending, hsaid, hsolutions, hrounds⟩, hfacts⟩

end Cursor

end SatSession
