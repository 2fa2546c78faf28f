/-
Solving at once and taking the first solution.

`solve` asks its session once and destroys it; the first `next` of a cursor
asks the same question of the same session and then rules the solution out
(`Cursor.advance_eq`). Neither says what becomes of a session that fails on
the way, and both put it away before they end, each in a manner of its own.
If that cannot fail, because no engine fails to be reset, both give the same
answer or the same fault, but for the fault of ruling the solution out, for
which `solve` has no occasion (`solve_agrees`).

Which answer this is, the code of the search alone decides
(`Session.answer_reads`). A code is compared in kind, and what is no code
makes an inconsistency; but the message for that shows the code, and when
it cannot be written, that is what is reported instead.
-/
import SatSession.Proofs.Conversation.Record
import SatSession.Proofs.Conversation.Laws
import SatSession.Proofs.Conversation.Standing

namespace SatSession

-- ================================================================ ends

section

variable {ε σ τ α : Type}

/-- A run that ends with an answer. -/
def AnswersWith (a : α) (r : EStateM.Result ε σ α) : Prop :=
  Ends (fun b _ => b = a) never r

/-- A run that ends with a fault. -/
def FailsWith (f : ε) (r : EStateM.Result ε σ α) : Prop :=
  Ends (fun _ _ => False) (fun g _ => g = f) r

/-- Two runs that end with the same answer, or with the same fault. -/
def SameEnd (r : EStateM.Result ε σ α) (r' : EStateM.Result ε τ α) : Prop :=
  Ends (fun a _ => AnswersWith a r') (fun f _ => FailsWith f r') r

end

variable {E α : Type} [Engine E]

omit [Engine E] in
/-- What is known of a run is known of what ends as it does. -/
theorem SameEnd.ends {ε σ τ : Type} {Q : α → σ → Prop} {R : ε → σ → Prop}
    {r : EStateM.Result ε σ α} {r' : EStateM.Result ε τ α}
    (h : SameEnd r r') (hr : Ends Q R r) :
    Ends (fun a _ => ∃ s, r = .ok a s ∧ Q a s)
      (fun f _ => ∃ s, r = .error f s ∧ R f s) r' := by
  cases r with
  | ok a s =>
      refine Ends.imp h ?_ fun _ _ hf => hf.elim
      rintro _ _ rfl
      exact ⟨s, rfl, hr⟩
  | error f s =>
      refine Ends.imp h (fun _ _ hf => hf.elim) ?_
      rintro _ _ rfl
      exact ⟨s, rfl, hr⟩

-- =========================================================== put away

/-- Engines that never fail to be reset while they are good, and that are
not made any worse by being used. -/
structure ResetsSafely (good : E → Prop) : Prop where
  kept : Obeys (Retains fun p : Placed E => good p.object)
  reset : ∀ p : Placed E, good p.object →
    Ends (fun _ _ => True) never (Engine.reset p)

variable {good : E → Prop}

namespace Session

/-- Using a session does not make its engine any worse. -/
theorem good_allows (h : ResetsSafely good) :
    Allows (Retains fun p : Placed (Session E) => good p.object.engine) := by
  have hhost : ∀ {α : Type} (op : HostOp α),
      Moves (Retains fun p : Placed (Session E) => good p.object.engine)
        (Op.onHost op) := by
    intro α op p
    rw [Op.ends_onHost]
    exact (ends_true _).imp (fun _ _ _ => id) fun _ _ _ => id
  exact {
    variableCount := h.kept.variableCount.within fun _ _ _ hq => hq
    valueOf := fun i => (h.kept.valueOf i).within fun _ _ _ hq => hq
    addLiteral := fun l => (h.kept.addLiteral l).within fun _ _ _ hq => hq
    terminateClause := h.kept.terminateClause.within fun _ _ _ hq => hq
    alloc := fun _ => hhost _
    realloc := fun _ _ _ => hhost _
    poke := fun _ _ _ => hhost _
    note := fun _ => hhost _
    update := fun g hg s host hs => by
      show good (g s).engine
      rw [(hg s).2]
      exact hs }

/-- A session with a good engine can be destroyed. -/
theorem destroy_ends_safely (h : ResetsSafely good)
    {p : Placed (Session E)} (hp : good p.object.engine) :
    Ends (fun _ _ => True) never (destroy p) := by
  unfold destroy
  rw [Op.read_bind_apply]
  split
  · trivial
  rw [Op.update_bind_apply, ends_bind, onEngine, Op.ends_within]
  exact (h.reset _ hp).imp (fun _ _ _ => trivial) fun _ _ hf => hf

end Session

namespace Cursor

variable {c : Cursor E} {host : Host}

/-- And a cursor over it can be closed if it has no buffer. -/
theorem close_ends_safely (h : ResetsSafely good)
    (hgood : good c.session.engine) (hc : c.scratch = none) :
    Ends (fun _ q => q.object.exhausted = c.exhausted) never
      (close ⟨c, host⟩) := by
  have hscratch : releaseScratch ⟨{ c with closed := true }, host⟩
      = .ok () ⟨{ c with closed := true }, host⟩ := by
    unfold releaseScratch
    rw [Op.read_bind_apply]
    simp only [hc]
    rfl
  unfold close
  rw [Op.read_bind_apply]
  split
  · rfl
  rw [Op.update_bind_apply, Op.ends_thenAlways, hscratch, ends_ok,
    ends_onSession]
  refine (Session.destroy_ends_safely h ?_).imp (fun _ _ _ => rfl)
    fun _ _ hf => hf
  exact hgood

-- ============================================================ advances

omit [Engine E] in
theorem onSession_ok {x : Op (Session E) α} {a : α}
    {p : Placed (Session E)} (h : x ⟨c.session, host⟩ = .ok a p) :
    onSession x ⟨c, host⟩
      = .ok a ⟨{ c with session := p.object }, p.host⟩ := by
  simp only [onSession, Op.within, h]

omit [Engine E] in
theorem onSession_error {x : Op (Session E) α} {f : Fault}
    {p : Placed (Session E)} (h : x ⟨c.session, host⟩ = .error f p) :
    onSession x ⟨c, host⟩
      = .error f ⟨{ c with session := p.object }, p.host⟩ := by
  simp only [onSession, Op.within, h]

/-- What an advance comes to once the session has answered: a solution is
ruled out, and nothing else is done. -/
def afterAnswer (c : Cursor E) (answer : Answer) (p : Placed (Session E)) :
    EStateM.Result Fault (Placed (Cursor E)) (Outcome × Option Solution) :=
  match answer with
  | .unsatisfiable =>
      .ok (.unsatisfiable, none) ⟨{ c with session := p.object }, p.host⟩
  | .unknown =>
      .ok (.unknown, none) ⟨{ c with session := p.object }, p.host⟩
  | .solution s =>
      match Session.block c.scratch p with
      | .ok b q => .ok (.satisfiable, some s)
          ⟨{ c with
            session := q.object, scratch := some b, count := c.count + 1 },
            q.host⟩
      | .error f q => .error f ⟨{ c with session := q.object }, q.host⟩

/-- An advance asks the session once, as `solve` does, and then rules the
solution out. -/
theorem advance_eq (c : Cursor E) (host : Host) :
    advance ⟨c, host⟩
      = match Session.answer ⟨c.session, host⟩ with
        | .ok answer p => afterAnswer c answer p
        | .error f p =>
            .error f ⟨{ c with session := p.object }, p.host⟩ := by
  unfold advance Session.answer
  cases hinvoke : Session.invoke Session.noBudget ⟨c.session, host⟩ with
  | error f p =>
      rw [bind_of_error (onSession_error hinvoke), bind_of_error hinvoke]
  | ok outcome p =>
      rw [bind_of_ok (onSession_ok hinvoke), bind_of_ok hinvoke]
      cases outcome with
      | unsatisfiable => rfl
      | unknown => rfl
      | satisfiable =>
          simp only [if_true]
          cases hdecode : Session.decode p with
          | error f q =>
              rw [bind_of_error (onSession_error hdecode),
                bind_of_error hdecode]
          | ok s q =>
              rw [bind_of_ok (onSession_ok hdecode), bind_of_ok hdecode,
                Op.read_bind_apply]
              simp only [pure_apply, afterAnswer]
              cases hblock : Session.block c.scratch q with
              | error f r =>
                  rw [bind_of_error (onSession_error hblock)]
              | ok b r =>
                  rw [bind_of_ok (onSession_ok hblock)]
                  rfl

/-- How the first `next` ends, by what the session has answered and how it
stands then: a solution is handed out unless it cannot be ruled out. -/
def FirstStep (answer : Answer) (p : Placed (Session E))
    (first : EStateM.Result Fault (Placed (Cursor E)) (Option Solution)) :
    Prop :=
  match answer with
  | .solution s =>
      Ends (fun _ _ => AnswersWith (some s) first)
        (fun f _ => FailsWith f first) (Session.block none p)
  | .unsatisfiable | .unknown =>
      Ends (fun r q => r = none ∧ q.object.exhausted = true) never first

/-- A cursor that nothing has been done with. -/
structure Fresh (c : Cursor E) : Prop where
  scratch : c.scratch = none
  exhausted : c.exhausted = false
  closed : c.closed = false

/-- The end of an enumeration without a solution. -/
theorem finish_ends (h : ResetsSafely good) (hc : c.scratch = none)
    (outcome : Outcome) {p : Placed (Session E)}
    (hp : good p.object.engine) :
    Ends (fun r q => r = none ∧ q.object.exhausted = true) never
      ((do
        let c ← Op.read
        Op.onHost (Host.note (.enumerationFinished c.count outcome))
        Op.update fun c => { c with exhausted := true }
        close
        return none : Op (Cursor E) (Option Solution))
        ⟨{ c with session := p.object }, p.host⟩) := by
  show Ends _ _ ((close >>= fun _ => pure none)
    (⟨{ c with session := p.object, exhausted := true },
      { p.host with
        log := p.host.log.push (.enumerationFinished c.count outcome) }⟩ :
      Placed (Cursor E)))
  rw [ends_bind]
  refine (close_ends_safely h ?_ ?_).imp ?_ fun _ _ hf => hf
  · exact hp
  · exact hc
  · exact fun _ q hq => ⟨rfl, hq⟩

/-- A cursor that is open hands out the solution that it comes to. -/
theorem next_of_found (hexhausted : c.exhausted = false)
    (hclosed : c.closed = false) {outcome : Outcome} {s : Solution}
    {q : Placed (Cursor E)}
    (hadvance : advance ⟨c, host⟩ = .ok (outcome, some s) q) :
    AnswersWith (some s) (next ⟨c, host⟩) := by
  unfold next
  rw [Op.read_bind_apply]
  simp only [hexhausted, hclosed, Bool.or_self, Bool.false_eq_true, if_false]
  rw [AnswersWith, ends_bind, Op.ends_orRelease, hadvance]
  rfl

/-- Where its advance fails it closes, and hands on why. -/
theorem next_of_failure (hexhausted : c.exhausted = false)
    (hclosed : c.closed = false) {f : Fault} {q : Placed (Cursor E)}
    (hadvance : advance ⟨c, host⟩ = .error f q)
    (hclose : Ends (fun _ _ => True) never (close q)) :
    FailsWith f (next ⟨c, host⟩) := by
  unfold next
  rw [Op.read_bind_apply]
  simp only [hexhausted, hclosed, Bool.or_self, Bool.false_eq_true, if_false]
  rw [FailsWith, ends_bind, Op.ends_orRelease, hadvance, ends_error]
  exact hclose.imp (fun _ _ _ => rfl) fun _ _ hf => hf.elim

/-- The first `next` asks what `solve` asks. -/
theorem next_first (h : ResetsSafely good) (hgood : good c.session.engine)
    (hc : c.Fresh) :
    Ends (fun answer p => FirstStep answer p (next ⟨c, host⟩))
      (fun f _ => FailsWith f (next ⟨c, host⟩))
      (Session.answer ⟨c.session, host⟩) := by
  have hadvance := advance_eq c host
  -- whatever fails, the cursor is closed and the fault goes on
  have hfail : ∀ f (p : Placed (Session E)), good p.object.engine →
      advance ⟨c, host⟩ = .error f ⟨{ c with session := p.object }, p.host⟩ →
        FailsWith f (next ⟨c, host⟩) := by
    intro f p hp hf
    refine next_of_failure hc.exhausted hc.closed hf ?_
    refine (close_ends_safely h ?_ ?_).imp (fun _ _ _ => trivial)
      fun _ _ hf => hf
    · exact hp
    · exact hc.scratch
  have hend : ∀ outcome (p : Placed (Session E)), good p.object.engine →
      advance ⟨c, host⟩
          = .ok (outcome, none) ⟨{ c with session := p.object }, p.host⟩ →
        Ends (fun r q => r = none ∧ q.object.exhausted = true) never
          (next ⟨c, host⟩) := by
    intro outcome p hp hok
    unfold next
    rw [Op.read_bind_apply]
    simp only [hc.exhausted, hc.closed, Bool.or_self, Bool.false_eq_true,
      if_false]
    rw [ends_bind, Op.ends_orRelease, hok]
    exact finish_ends h hc.scratch outcome hp
  have hkept := Session.answer_moves (Session.good_allows h)
    ((h.kept.solve _).within fun _ _ _ hq => hq) ⟨c.session, host⟩
  cases hanswer : Session.answer ⟨c.session, host⟩ with
  | error f p =>
      rw [hanswer] at hadvance hkept
      exact hfail f p (hkept hgood) hadvance
  | ok answer p =>
      rw [hanswer] at hadvance hkept
      have hp : good p.object.engine := hkept hgood
      simp only [afterAnswer] at hadvance
      cases answer with
      | unsatisfiable => exact hend _ p hp hadvance
      | unknown => exact hend _ p hp hadvance
      | solution s =>
          rw [ends_ok, FirstStep, ← hc.scratch]
          have hblocked :=
            Session.block_moves (Session.good_allows h).toDeals c.scratch p
          cases hblock : Session.block c.scratch p with
          | error f q =>
              rw [hblock] at hadvance hblocked
              exact hfail f q (hblocked hp) hadvance
          | ok b q =>
              rw [hblock] at hadvance
              exact next_of_found hc.exhausted hc.closed hadvance

end Cursor

-- ============================================================ sessions

namespace Session

variable {p : Placed (Session E)}

/-- A session that is destroyed behind its answer has still answered. -/
theorem answerAndDestroy_sameEnd (h : ResetsSafely good)
    (hp : good p.object.engine) :
    SameEnd (answer p) (answerAndDestroy p) := by
  have hkept := answer_moves (good_allows h)
    ((h.kept.solve _).within fun _ _ _ hq => hq) p
  unfold answerAndDestroy
  cases hanswer : answer p with
  | ok a q =>
      rw [hanswer] at hkept
      rw [SameEnd, ends_ok, AnswersWith, ends_bind, Op.ends_orRelease,
        hanswer, ends_ok, ends_bind]
      exact (destroy_ends_safely h (hkept hp)).imp (fun _ _ _ => rfl)
        fun _ _ hf => hf
  | error f q =>
      rw [hanswer] at hkept
      rw [SameEnd, ends_error, FailsWith, ends_bind, Op.ends_orRelease,
        hanswer, ends_error]
      exact (destroy_ends_safely h (hkept hp)).imp (fun _ _ _ => rfl)
        fun _ _ hf => hf.elim

/-- What a session makes of the code of a search: three codes, each in
kind a whole number, say something; the code of a solution lets the session
decode one; what is no code is an inconsistency, reported as one if it can
be written. -/
structure Reads (code : Value) (p : Placed (Session E))
    (r : EStateM.Result Fault Host Answer) : Prop where
  unsatisfiable : AnswersWith .unsatisfiable r ↔ code = .int 20
  unknown : AnswersWith .unknown r ↔ code = .int 0
  decodes : (∃ q, invoke noBudget p = .ok .satisfiable q) ↔ code = .int 10
  decoded : ∀ q, invoke noBudget p = .ok .satisfiable q →
    Ends (fun s _ => AnswersWith (.solution s) r) (fun f _ => FailsWith f r)
      (decode q)
  inconsistent : code ≠ .int 20 → code ≠ .int 0 → code ≠ .int 10 →
    FailsWith (.engineCode code) r
      ∧ (Fault.engineCode code).errorClass
        = if code.isWritable then .internalConsistency else .value

end Session

omit [Engine E] in
/-- A fault about a code is an inconsistency unless its message would be
too long. -/
theorem Fault.errorClass_engineCode (code : Value) :
    (engineCode code).errorClass
      = if code.isWritable then .internalConsistency else .value := by
  unfold errorClass reported
  cases h : code.isWritable with
  | true => simp [mentioned, h, ownClass]
  | false => simp [mentioned, h, ownClass]

section

variable {ε σ : Type} {a b : α} {f : ε} {r : EStateM.Result ε σ α}

omit [Engine E] in
theorem AnswersWith.unique (h : AnswersWith a r) (h' : AnswersWith b r) :
    a = b := by
  cases r with
  | ok c s => exact Eq.trans (Eq.symm h) h'
  | error g s => exact h.elim

theorem FailsWith.not_answersWith (h : FailsWith f r) :
    ¬ AnswersWith a r := by
  cases r with
  | ok b s => exact h.elim
  | error g s => exact id

end

namespace Session

open TableEngine (codeOf)

variable {p : Placed (Session E)} {code : Value}
  {r : EStateM.Result Fault Host Answer}

/-- A code that stands for nothing. -/
theorem reads_of_error {f : Fault} {q : Placed (Session E)}
    (hrun : invoke noBudget p = .error f q) (hf : f = .engineCode code)
    (hnone : ∀ outcome, Outcome.ofCode code ≠ .ok outcome)
    (hr : FailsWith f r) : Reads code p r := by
  subst hf
  have hnot : ∀ outcome, code ≠ .int (codeOf outcome) :=
    fun outcome h => hnone outcome (Outcome.ofCode_eq_ok_iff.mpr h)
  constructor
  · exact iff_of_false hr.not_answersWith (hnot .unsatisfiable)
  · exact iff_of_false hr.not_answersWith (hnot .unknown)
  · refine iff_of_false ?_ (hnot .satisfiable)
    rintro ⟨q', hq'⟩
    rw [hrun] at hq'
    cases hq'
  · intro q' hq'
    rw [hrun] at hq'
    cases hq'
  · exact fun _ _ _ => ⟨hr, Fault.errorClass_engineCode code⟩

/-- The code that says that there is no solution. -/
theorem reads_of_unsatisfiable {q : Placed (Session E)}
    (hrun : invoke noBudget p = .ok .unsatisfiable q)
    (hcode : Outcome.ofCode code = .ok .unsatisfiable)
    (hr : AnswersWith .unsatisfiable r) : Reads code p r := by
  cases Outcome.ofCode_eq_ok_iff.mp hcode
  have hdecodes : ∀ q', invoke noBudget p ≠ .ok .satisfiable q' :=
    fun q' hq' => by cases Eq.trans (Eq.symm hrun) hq'
  constructor
  · exact iff_of_true hr rfl
  · refine iff_of_false (fun h => ?_) (by simp [codeOf])
    cases hr.unique h
  · exact iff_of_false (fun ⟨q', hq'⟩ => hdecodes q' hq')
      (by simp [codeOf])
  · exact fun q' hq' => absurd hq' (hdecodes q')
  · exact fun h _ _ => absurd rfl h

/-- The code that says that none is known. -/
theorem reads_of_unknown {q : Placed (Session E)}
    (hrun : invoke noBudget p = .ok .unknown q)
    (hcode : Outcome.ofCode code = .ok .unknown)
    (hr : AnswersWith .unknown r) : Reads code p r := by
  cases Outcome.ofCode_eq_ok_iff.mp hcode
  have hdecodes : ∀ q', invoke noBudget p ≠ .ok .satisfiable q' :=
    fun q' hq' => by cases Eq.trans (Eq.symm hrun) hq'
  constructor
  · refine iff_of_false (fun h => ?_) (by simp [codeOf])
    cases hr.unique h
  · exact iff_of_true hr rfl
  · exact iff_of_false (fun ⟨q', hq'⟩ => hdecodes q' hq')
      (by simp [codeOf])
  · exact fun q' hq' => absurd hq' (hdecodes q')
  · exact fun _ h _ => absurd rfl h

/-- The code of a solution. -/
theorem reads_of_solution {q : Placed (Session E)}
    (hrun : invoke noBudget p = .ok .satisfiable q)
    (hcode : Outcome.ofCode code = .ok .satisfiable)
    (hr : Ends (fun s _ => AnswersWith (.solution s) r)
      (fun f _ => FailsWith f r) (decode q)) : Reads code p r := by
  cases Outcome.ofCode_eq_ok_iff.mp hcode
  have hnoWord : ∀ word, AnswersWith word r → ∃ s, word = .solution s := by
    intro word hword
    cases hdecode : decode q with
    | ok s q' =>
        rw [hdecode] at hr
        exact ⟨s, hword.unique hr⟩
    | error f q' =>
        rw [hdecode] at hr
        exact absurd hword hr.not_answersWith
  constructor
  · refine iff_of_false (fun h => ?_) (by simp [codeOf])
    obtain ⟨s, hs⟩ := hnoWord _ h
    cases hs
  · refine iff_of_false (fun h => ?_) (by simp [codeOf])
    obtain ⟨s, hs⟩ := hnoWord _ h
    cases hs
  · exact iff_of_true ⟨q, hrun⟩ rfl
  · intro q' hq'
    rw [hrun, EStateM.Result.ok.injEq] at hq'
    rw [← hq'.2]
    exact hr
  · exact fun _ _ h => absurd rfl h

/-- Whatever ends as the answer of a session does reads the code of the
search. -/
theorem answer_reads {q : Placed E}
    (halive : p.object.destroyed = false)
    (hsolve : Engine.solve noBudget ⟨p.object.engine, p.host⟩ = .ok code q)
    (hr : SameEnd (answer p) r) : Reads code p r := by
  have hinvoke := invoke_of_code halive hsolve
  unfold answer at hr
  cases hrun : invoke noBudget p with
  | error f q' =>
      rw [hrun] at hinvoke
      rw [bind_of_error hrun] at hr
      exact reads_of_error hrun hinvoke.1.1 hinvoke.1.2 hr
  | ok outcome q' =>
      rw [hrun] at hinvoke
      rw [bind_of_ok hrun] at hr
      cases outcome with
      | unsatisfiable => exact reads_of_unsatisfiable hrun hinvoke.1 hr
      | unknown => exact reads_of_unknown hrun hinvoke.1 hr
      | satisfiable =>
          refine reads_of_solution hrun hinvoke.1 ?_
          rw [SameEnd, ends_bind] at hr
          exact hr.imp (fun _ _ h => h) fun _ _ h => h

end Session

-- =============================================================== callers

/-- A session that has been created is alive, and its engine is as good as
it was made. -/
theorem Session.create_good (h : ResetsSafely good) {make : HostOp E}
    {host : Host}
    (hmake : Ends (fun e _ => good e) (fun _ _ => True) (make host))
    (config : Config) (clauses : Value) :
    Ends (fun s _ => s.destroyed = false ∧ good s.engine)
      (fun _ _ => True) (create make config clauses host) := by
  have hquiet : Quiet (Retains fun p : Placed E => good p.object) :=
    fun _ _ _ _ => id
  refine (create_obeys h.kept hquiet make config clauses host).imp_answer ?_
  rintro s host' ⟨halive, e, host₁, hmade, hkept⟩
  rw [hmade] at hmake
  exact ⟨halive, hkept hmake⟩

section

variable {make : HostOp E} {clauses vars verbose propLimit : Value}
  {host host₁ : Host} {config : Config} {s : Session E}

/-- Settings that pass leave the host alone. -/
theorem checkedConfig_ok
    (hconfig : Config.build vars verbose propLimit = .ok config) :
    checkedConfig vars verbose propLimit host = .ok config host := by
  unfold checkedConfig
  rw [hconfig]
  rfl

/-- So do those that do not. -/
theorem checkedConfig_error {f : Fault}
    (hconfig : Config.build vars verbose propLimit = .error f) :
    checkedConfig vars verbose propLimit host = .error f host := by
  unfold checkedConfig
  rw [hconfig]
  rfl

/-- `solve` ends as the answer of the session that it makes. -/
theorem solve_sameEnd (h : ResetsSafely good) (hgood : good s.engine)
    (hconfig : Config.build vars verbose propLimit = .ok config)
    (hcreate : Session.create make config clauses host = .ok s host₁) :
    SameEnd (Session.answer ⟨s, host₁⟩)
      (solve make clauses vars verbose propLimit host) := by
  have hends : SameEnd (Session.answer ⟨s, host₁⟩)
      (Session.answerAndDestroy ⟨s, host₁⟩) :=
    Session.answerAndDestroy_sameEnd h hgood
  unfold solve
  rw [bind_of_ok (checkedConfig_ok hconfig), bind_of_ok hcreate]
  refine hends.imp ?_ ?_
  · intro answer _ hanswer
    rw [AnswersWith, ends_bind, Op.ends_on]
    exact hanswer
  · intro f _ hf
    rw [FailsWith, ends_bind, Op.ends_on]
    exact hf

/-- `enumerate` ends with a cursor over it. -/
theorem enumerate_eq
    (hconfig : Config.build vars verbose propLimit = .ok config)
    (hcreate : Session.create make config clauses host = .ok s host₁) :
    enumerate make clauses vars verbose propLimit host
      = .ok (.ofSession s) host₁ := by
  unfold enumerate
  rw [bind_of_ok (checkedConfig_ok hconfig)]
  exact bind_of_ok hcreate

end

/-- Solving at once and taking the first solution of a cursor agree, if no
engine fails to be reset; and what is answered, the code of the search
decides. -/
theorem solve_agrees (h : ResetsSafely good) {make : HostOp E}
    {host : Host}
    (hmake : Ends (fun e _ => good e) (fun _ _ => True) (make host))
    (clauses vars verbose propLimit : Value) :
    Ends
      (fun answer _ => ∃ c host₁ p,
        enumerate make clauses vars verbose propLimit host = .ok c host₁
          ∧ Session.answer ⟨c.session, host₁⟩ = .ok answer p
          ∧ Cursor.FirstStep answer p (Cursor.next ⟨c, host₁⟩))
      (fun f _ =>
        FailsWith f (enumerate make clauses vars verbose propLimit host)
          ∨ ∃ c host₁,
            enumerate make clauses vars verbose propLimit host = .ok c host₁
              ∧ FailsWith f (Cursor.next ⟨c, host₁⟩))
      (solve make clauses vars verbose propLimit host)
    ∧ ∀ config s host₁ code q,
        Config.build vars verbose propLimit = .ok config →
        Session.create make config clauses host = .ok s host₁ →
        Engine.solve Session.noBudget ⟨s.engine, host₁⟩ = .ok code q →
          Session.Reads code ⟨s, host₁⟩
            (solve make clauses vars verbose propLimit host) := by
  constructor
  · cases hconfig : Config.build vars verbose propLimit with
    | error f =>
        unfold solve enumerate
        rw [bind_of_error (checkedConfig_error hconfig),
          bind_of_error (checkedConfig_error hconfig)]
        exact Or.inl rfl
    | ok config =>
        cases hcreate : Session.create make config clauses host with
        | error f host₁ =>
            unfold solve enumerate
            rw [bind_of_ok (checkedConfig_ok hconfig),
              bind_of_ok (checkedConfig_ok hconfig),
              bind_of_error hcreate, bind_of_error hcreate]
            exact Or.inl rfl
        | ok s host₁ =>
            -- the session is the same for both, and so is its first answer
            have henumerate := enumerate_eq hconfig hcreate
            have hcreated := Session.create_good h hmake config clauses
            rw [hcreate] at hcreated
            have hfresh : (Cursor.ofSession s).Fresh := ⟨rfl, rfl, rfl⟩
            have hfirst : Ends
                (fun answer p => Cursor.FirstStep answer p
                  (Cursor.next ⟨.ofSession s, host₁⟩))
                (fun f _ => FailsWith f
                  (Cursor.next ⟨.ofSession s, host₁⟩))
                (Session.answer ⟨s, host₁⟩) :=
              Cursor.next_first h hcreated.2 hfresh
            have hsame := solve_sameEnd h hcreated.2 hconfig hcreate
            refine (hsame.ends hfirst).imp ?_ ?_
            · rintro answer _ ⟨p, hanswer, hstep⟩
              exact ⟨.ofSession s, host₁, p, henumerate, hanswer, hstep⟩
            · rintro f _ ⟨p, -, hf⟩
              exact Or.inr ⟨.ofSession s, host₁, henumerate, hf⟩
  · intro config s host₁ code q hconfig hcreate hcode
    have hcreated := Session.create_good h hmake config clauses
    rw [hcreate] at hcreated
    obtain ⟨halive, hgood⟩ := hcreated
    exact Session.answer_reads halive hcode
      (solve_sameEnd h hgood hconfig hcreate)

/-- A scripted engine that is not told to fail at its reset does not. -/
theorem Scripted.resetsSafely : ResetsSafely fun e : Scripted =>
    e.script.failures.lookup "reset" = none where
  kept := obeys.imp fun p q hsame hp => by
    have hscript : q.object.script = p.object.script :=
      congrArg Prod.fst hsame
    show q.object.script.failures.lookup "reset" = none
    rw [hscript]
    exact hp
  reset p hp := by
    show Ends _ _ (enter .reset p)
    unfold enter
    rw [Op.read_bind_apply]
    simp only [Call.method, Op.update_bind_apply, hp, reduceCtorEq, if_false]
    trivial

/-- Solving at once and taking the first solution, where there is one. -/
theorem solve_agrees_one_solution :
    let script : Script := { models := [[.int (-1)]] }
    let make : HostOp Scripted := pure { script := script }
    let host := Host.new (.open false) none
    let v : Value := .seq .list [.seq .list [.int (-1)]]
    Ends
      (fun answer _ =>
        (∃ c host₁ p, enumerate make v (.int (-1)) (.int 0) (.int 0) host
            = .ok c host₁
          ∧ Session.answer ⟨c.session, host₁⟩ = .ok answer p
          ∧ Cursor.FirstStep answer p (Cursor.next ⟨c, host₁⟩))
        ∧ (match answer with
          | .solution s => s.map Value.fullText
          | _ => []) = ["-1"])
      (fun _ _ => False)
      (solve make v (.int (-1)) (.int 0) (.int 0) host) := by
  intro script make host v
  have hmake : Ends
      (fun (e : Scripted) _ => e.script.failures.lookup "reset" = none)
      (fun _ _ => True) (make host) := rfl
  have hagrees := (solve_agrees Scripted.resetsSafely hmake v (.int (-1))
    (.int 0) (.int 0)).1
  generalize hsolved : solve make v (.int (-1)) (.int 0) (.int 0) host
    = solved
  have hconcrete : Ends
      (fun answer _ => (match answer with
        | .solution s => s.map Value.fullText
        | _ => []) = ["-1"])
      (fun _ _ => False) solved := by
    rw [← hsolved]
    decide +kernel
  rw [hsolved] at hagrees
  cases solved with
  | ok answer host₁ => exact ⟨hagrees, hconcrete⟩
  | error f host₁ => exact hconcrete

/-- A code that stands for nothing is not always reported as an
inconsistency: this one is too long to be written. -/
theorem not_always_inconsistent :
    ¬ ∀ (E : Type) [Engine E] (good : E → Prop), ResetsSafely good →
      ∀ (make : HostOp E) (host : Host),
        Ends (fun e _ => good e) (fun _ _ => True) (make host) →
        ∀ (clauses vars verbose propLimit : Value) (config : Config)
          (s : Session E) (host₁ : Host) (code : Value) (q : Placed E),
          Config.build vars verbose propLimit = .ok config →
          Session.create make config clauses host = .ok s host₁ →
          Engine.solve Session.noBudget ⟨s.engine, host₁⟩ = .ok code q →
          code ≠ .int 20 → code ≠ .int 0 → code ≠ .int 10 →
          Ends (fun _ _ => False)
            (fun f _ => f.errorClass = .internalConsistency)
            (solve make clauses vars verbose propLimit host) := by
  intro hall
  let long : Value := .number (.fraction (Number.firstUnwritable : Nat))
  let make : HostOp Scripted := pure { script := { codes := [long] } }
  let host := Host.new (.open false) none
  let v : Value := .seq .list [.seq .list [.int 1]]
  have hmake : Ends
      (fun (e : Scripted) _ => e.script.failures.lookup "reset" = none)
      (fun _ _ => True) (make host) := rfl
  generalize hsolved : solve make v (.int (-1)) (.int 0) (.int 0) host
    = solved
  have hrun : Ends (fun _ _ => False) (fun f _ => f.errorClass = .value)
      solved := by
    rw [← hsolved]
    decide +kernel
  generalize hcreate : Session.create make {} v host = created
  have hcode : Ends
      (fun s host₁ => Ends (fun code _ => code.whole? = none)
        (fun _ _ => False)
        (Engine.solve Session.noBudget ⟨s.engine, host₁⟩))
      (fun _ _ => False) created := by
    rw [← hcreate]
    decide +kernel
  cases created with
  | error f host₁ => exact hcode
  | ok s host₁ =>
      rw [ends_ok] at hcode
      cases hsearch : Engine.solve Session.noBudget ⟨s.engine, host₁⟩ with
      | error f q =>
          rw [hsearch] at hcode
          exact hcode
      | ok code q =>
          rw [hsearch] at hcode
          have hnot : ∀ n : Int, code ≠ .int n := by
            rintro n rfl
            cases hcode
          have hclass := hall Scripted _ Scripted.resetsSafely make host
            hmake v (.int (-1)) (.int 0) (.int 0) {} s host₁ code q rfl
            hcreate hsearch (hnot 20) (hnot 0) (hnot 10)
          rw [hsolved] at hclass
          cases solved with
          | ok answer host' => exact hrun
          | error f host' =>
              have hsame : ErrorClass.internalConsistency = .value :=
                Eq.trans (Eq.symm hclass) hrun
              cases hsame

end SatSession
