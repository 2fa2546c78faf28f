/-
Asking a session, and what it decodes.

A session over a seated engine always answers an invocation
(`invoke_ends`), and after a satisfiable one it decodes the assignment
that the search gave: entry `i` is `i` or `-i` as the value table shows
variable `i` (`decode_eq`). Nothing is changed by decoding, so it can be
done any number of times. Blocking starts from the same answer, and is
left here where it asks for its buffer (`block_of_ready`).
-/
import SatSession.Proofs.Sessions.Opening
import SatSession.Proofs.Conversation.Standing

namespace SatSession.Session

open TableEngine

variable {s : Session TableEngine} {host : Host} {a : Assignment}

-- ========================================================= invocations

/-- The code of an outcome stands for that outcome. -/
theorem ofCode_codeOf (outcome : Outcome) :
    Outcome.ofCode (.int (codeOf outcome)) = .ok outcome := by
  cases outcome <;> rfl

/-- What an engine answers, its session hands on. -/
theorem onEngine_ok {α : Type} {op : Op TableEngine α} {x : α}
    {e' : TableEngine} {host' : Host}
    (h : op ⟨s.engine, host⟩ = .ok x ⟨e', host'⟩) :
    onEngine op ⟨s, host⟩ = .ok x ⟨{ s with engine := e' }, host'⟩ := by
  simp only [onEngine, Op.within, h]

/-- A session after an invocation. -/
def asked (s : Session TableEngine) (outcome : Outcome) (e : TableEngine) :
    Session TableEngine :=
  { s with
    engine := e
    last := some outcome
    invocations := s.invocations + 1 }

/-- A host that has been told of an invocation. -/
def told (s : Session TableEngine) (outcome : Outcome) (host : Host) :
    Host :=
  { host with
    log := host.log.push (.invocation (s.invocations + 1) outcome) }

/-- An invocation was answered. -/
structure Answered (limit : Int) (s : Session TableEngine) (host : Host)
    (outcome : Outcome) (p : Placed (Session TableEngine)) : Prop where
  search : ∃ q, Searched (limitInForce limit (-1)) s.engine host outcome q
    ∧ p = ⟨s.asked outcome q.object, s.told outcome q.host⟩

/-- An invocation is always answered. -/
theorem invoke_ends (hs : Seated s.engine host.heap)
    (hintact : s.destroyed = false) {verbosity limit : Int}
    (hset : Settings s.engine verbosity limit) :
    Ends (Answered limit s host) never (invoke noBudget ⟨s, host⟩) := by
  unfold invoke
  rw [Op.read_bind_apply]
  simp only [hintact, Bool.false_eq_true, if_false]
  rw [ends_bind, onEngine, Op.ends_within]
  refine (solve_ends hs hset (-1)).imp_ok ?_
  intro _ q hpost
  obtain ⟨outcome, rfl, hsearched⟩ := hpost
  rw [Op.update_bind_apply, ofCode_codeOf]
  exact ⟨q, hsearched, rfl⟩

-- ============================================================ decoding

/-- A session that shows an assignment. -/
structure Showing (a : Assignment) (s : Session TableEngine)
    (host : Host) : Prop where
  intact : s.destroyed = false
  last : s.last = some .satisfiable
  model : s.engine.hasModel = true
  shows : Shows a s.engine host.heap

/-- After a satisfiable answer the session shows the assignment. -/
theorem Answered.showing {limit : Int} {p : Placed (Session TableEngine)}
    (hintact : s.destroyed = false)
    (h : Answered limit s host .satisfiable p) :
    ∃ a, s.engine.verdict (limitInForce limit (-1)) = .sat a
      ∧ Showing a p.object p.host := by
  obtain ⟨q, hsearched, rfl⟩ := h.search
  obtain ⟨a, hverdict⟩ := Verdict.eq_sat hsearched.said.symm
  refine ⟨a, hverdict, hintact, rfl, ?_, hsearched.shows a hverdict⟩
  show q.object.hasModel = true
  rw [hsearched.object]
  rfl

/-- The polarity of a variable in the assignment shown. -/
theorem polarity_eq (h : Showing a s host) {i : Nat} (h1 : 1 ≤ i)
    (hi : i ≤ s.engine.varCount) :
    polarity i ⟨s, host⟩
      = .ok (.int (if a i then 1 else -1)) ⟨s, host⟩ := by
  have hvalue := onEngine_ok (valueOf_eq h.model h.shows h1 hi)
  unfold polarity
  refine (bind_of_ok hvalue).trans ?_
  cases a i <;> rfl

/-- Without an assignment there is no polarity. -/
theorem polarity_unshown (hflag : s.engine.hasModel = false) (i : Nat) :
    polarity i ⟨s, host⟩ = .error .noModel ⟨s, host⟩ := by
  have hread : onEngine (Engine.valueOf (.int (i : Int))) ⟨s, host⟩
      = .error .noModel ⟨s, host⟩ := by
    simp only [onEngine, Op.within]
    rw [show Engine.valueOf _ _ = _ from valueOf_noModel hflag _]
  exact bind_of_error hread

/-- The entry of a variable in the assignment shown. -/
theorem signedVariable_eq (h : Showing a s host) {i : Nat} (h1 : 1 ≤ i)
    (hi : i ≤ s.engine.varCount) :
    signedVariable i ⟨s, host⟩ = .ok (.int (signed a i)) ⟨s, host⟩ := by
  unfold signedVariable
  rw [bind_of_ok (polarity_eq h h1 hi), Value.mul_int, settle_ok]
  unfold signed
  cases a i <;> simp

/-- The count of variables, with the place before the first. -/
theorem variablesBelow_eq (n : Nat) (p : Placed (Session TableEngine)) :
    variablesBelow (.int (n + 1)) p = .ok n p := by
  unfold variablesBelow
  simp only [Value.whole?, Number.whole?]
  show EStateM.Result.ok ((n : Int) + 1 - 1).toNat p = _
  congr 1
  omega

/-- In a session whose last answer was satisfiable, decoding collects the
entries of all variables. -/
theorem decode_of_ready (hintact : s.destroyed = false)
    (hlast : s.last = some .satisfiable) :
    decode ⟨s, host⟩
      = Op.collect signedVariable s.engine.varCount 1 ⟨s, host⟩ := by
  have hcount : onEngine Engine.variableCount ⟨s, host⟩
      = .ok (.int s.engine.varCount) ⟨s, host⟩ := rfl
  unfold decode
  rw [bind_of_ok (requireModel_eq hintact hlast), bind_of_ok hcount,
    Value.add_int, settle_ok, pure_bind, bind_of_ok (variablesBelow_eq _ _)]

/-- Decoding answers the list of the assignment shown, and changes
nothing. -/
theorem decode_eq (h : Showing a s host) :
    decode ⟨s, host⟩
      = .ok ((signedList a s.engine.varCount).map Value.int) ⟨s, host⟩ := by
  rw [decode_of_ready h.intact h.last,
    collect_eq (fun i => Value.int (signed a i)) s.engine.varCount 1
      fun i h1 hi => signedVariable_eq h h1 (by omega)]
  simp [signedList]

-- ============================================================ blocking

/-- In a session whose last answer was satisfiable, blocking finds a buffer,
notes the polarities there, and adds their opposites as a clause. -/
theorem block_of_ready (hintact : s.destroyed = false)
    (hlast : s.last = some .satisfiable) (scratch : Option BlockId) :
    block scratch ⟨s, host⟩
      = (do
          let buffer ← scratchFor scratch (.int (s.engine.varCount + 1))
          Op.each (notePolarity buffer) s.engine.varCount 1
          Op.each (addOpposite buffer) s.engine.varCount 1
          onEngine Engine.terminateClause
          return buffer : Op (Session TableEngine) BlockId) ⟨s, host⟩ := by
  have hcount : onEngine Engine.variableCount ⟨s, host⟩
      = .ok (.int s.engine.varCount) ⟨s, host⟩ := rfl
  have hbelow : (variablesBelow (.int (s.engine.varCount + 1))
      : Op (Session TableEngine) Nat) = pure s.engine.varCount :=
    funext (variablesBelow_eq _)
  unfold block
  rw [bind_of_ok (requireModel_eq hintact hlast), bind_of_ok hcount,
    Value.add_int, settle_ok, pure_bind]
  simp only [hbelow, pure_bind]

/-- In any other session blocking is refused at once. -/
theorem block_refused (h : s.destroyed = true ∨ s.last ≠ some .satisfiable)
    (scratch : Option BlockId) :
    ∃ f, block scratch ⟨s, host⟩ = .error f ⟨s, host⟩
      ∧ f.errorClass = .preconditionViolation := by
  obtain ⟨f, hrefused, hclass⟩ := @requireModel_refused _ s host h
  exact ⟨f, bind_of_error hrefused, hclass⟩

-- ========================================================== destroying

/-- A session that has been destroyed. -/
def gone (s : Session TableEngine) : Session TableEngine :=
  { s with engine := s.engine.gone, last := none, destroyed := true }

/-- The host of a session that has been destroyed. -/
def hostAfter (s : Session TableEngine) (host : Host) : Host :=
  let host := s.engine.tablesBack host
  { host with log := host.log.push (.sessionDestroyed s.invocations) }

/-- A session gives the tables of its engine back. -/
theorem destroy_eq (hp : host.Plain) (ht : host.TakesBack)
    (hs : Seated s.engine host.heap) (hintact : s.destroyed = false) :
    destroy ⟨s, host⟩ = .ok () ⟨s.gone, s.hostAfter host⟩ := by
  have hreset : onEngine (E := TableEngine) Engine.reset
      ⟨{ s with destroyed := true, last := none }, host⟩
      = .ok () ⟨s.gone, s.engine.tablesBack host⟩ :=
    onEngine_ok (s := { s with destroyed := true, last := none })
      (reset_eq hp ht hs)
  unfold destroy
  rw [Op.read_bind_apply]
  simp only [hintact, Bool.false_eq_true, if_false]
  rw [Op.update_bind_apply, bind_of_ok hreset]
  rfl

/-- The tables are owned no more. -/
theorem holding_hostAfter {base : Host} {own : List BlockId}
    (h : Host.Holding (s.engine.tables ++ own) base host) :
    Host.Holding own base (s.hostAfter host) :=
  (holding_tablesBack h).within
    (Host.within_note (e := .sessionDestroyed s.invocations) own _ rfl)

theorem handed_hostAfter (s : Session TableEngine) (host : Host) :
    (s.hostAfter host).heap.blocks.size = host.heap.blocks.size :=
  (Heap.handed_released ..).trans (Heap.handed_released ..)

/-- Destroying a session touches no block but the tables of its engine. -/
theorem size_hostAfter (host : Host) {b : BlockId}
    (hb : b ∉ s.engine.tables) :
    (s.hostAfter host).heap.size b = host.heap.size b := by
  have hvalues : b ≠ s.engine.values := fun h => hb (by simp [h, tables])
  have hstore : b ≠ s.engine.store := fun h => hb (by simp [h, tables])
  show ((host.heap.released _).released _).size b = _
  rw [Heap.size_released, if_neg hstore, Heap.size_released,
    if_neg hvalues]

/-- It is noted, but no answer is. -/
theorem answers_hostAfter (s : Session TableEngine) (host : Host) :
    (s.hostAfter host).answers = host.answers := by
  simp [hostAfter, TableEngine.tablesBack, Host.takenBack, Host.answers,
    LogEntry.answer?]

end SatSession.Session
