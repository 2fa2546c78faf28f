/-
Three views of one history.

An engine can be asked for its clauses in three ways: the store can be
decoded, the asserted formulas can be read, and the counter tells their
number. Whatever is called, in whatever order, and whatever memory is
denied on the way, the three agree, and what they tell is the draft made
by the calls that succeeded (`views_agree`).

The invariant is `Upkeep`: the engine keeps the draft so far, on a host
that is as plain as it was. One call either moves the draft on and
succeeds, or fails and leaves it (`perform_ends`); the run follows by
`turns_keep`.
-/
import SatSession.Proofs.Turns
import SatSession.Proofs.Tables.Onward

namespace SatSession

-- ============================================================ the calls

/-- A call of an engine with a whole number for its argument. -/
inductive NumberCall where
  | addLiteral (n : Int)
  | terminateClause
  | reserveVariables (n : Int)
  | setPropagationLimit (n : Int)
  | solve (budget : Int)
  deriving DecidableEq, Repr

/-- Makes a call; the code that a search answers is dropped. -/
def NumberCall.perform {E : Type} [Engine E] : NumberCall → Op E Unit
  | addLiteral n => Engine.addLiteral (.int n)
  | terminateClause => Engine.terminateClause
  | reserveVariables n => Engine.reserveVariables (.int n)
  | setPropagationLimit n => Engine.setPropagationLimit (.int n)
  | solve budget => do
      let _ ← Engine.solve (.int budget)

/-- The draft after a call that succeeded. -/
def Draft.told (d : Draft) : NumberCall → Draft
  | .addLiteral n => if n = 0 then d.close else d.add n
  | .terminateClause => d.close
  | .reserveVariables _ | .setPropagationLimit _ | .solve _ => d

namespace TableEngine

variable {e : TableEngine} {host host' : Host} {d : Draft}
  {p : Placed TableEngine}

-- ========================================================== one call

/-- What a live engine keeps up from call to call. -/
structure Upkeep (d : Draft) (p : Placed TableEngine) : Prop where
  plain : p.host.Plain
  keeps : Keeps d p.object p.host.heap
  settings : ∃ verbosity limit, Settings p.object verbosity limit

/-- A call that keeps the engine the same keeps up what the store keeps. -/
theorem Upkeep.onward (h : Upkeep d ⟨e, host⟩) {d' : Draft}
    (hon : Onward e host p) (hk : Keeps d' p.object p.host.heap) :
    Upkeep d' p := by
  obtain ⟨verbosity, limit, hset⟩ := h.settings
  exact ⟨h.plain.of_sameRules hon.within.rules, hk, verbosity, limit,
    hon.settings hset⟩

/-- A zero closes the clause. -/
theorem addLiteral_zero (hlive : e.live = true) :
    addLiteral (.int 0) ⟨e, host⟩ = terminateClause ⟨e, host⟩ := by
  unfold addLiteral
  rw [bind_of_ok (checkLive_eq hlive)]
  rfl

/-- A clause is closed, or its terminator is refused and it stays open. -/
theorem upkeep_terminateClause (h : Upkeep d ⟨e, host⟩) :
    Ends (fun _ p => Upkeep d.close p) (fun _ p => Upkeep d p)
      (terminateClause ⟨e, host⟩) := by
  refine (terminateClause_ends h.plain h.keeps).imp ?_ ?_
  · intro _ p hp
    exact h.onward hp.onward (h.keeps.closed hp)
  · intro f p hp
    refine h.onward hp.onward ?_
    rw [hp.rest]
    exact h.keeps

/-- A literal joins the open clause, or the clause is what it was. -/
theorem upkeep_addLiteral (h : Upkeep d ⟨e, host⟩) {l : Int}
    (hl : l ≠ 0) :
    Ends (fun _ p => Upkeep (d.add l) p) (fun _ p => Upkeep d p)
      (addLiteral (.int l) ⟨e, host⟩) := by
  refine (addLiteral_ends h.plain h.keeps.seated hl).imp ?_ ?_
  · intro _ p hp
    exact h.onward hp.onward (h.keeps.added hl hp)
  · intro f p hp
    exact h.onward hp.onward (h.keeps.notAdded hp)

/-- A reservation touches no clause. -/
theorem upkeep_reserveVariables (h : Upkeep d ⟨e, host⟩) (n : Int) :
    Ends (fun _ p => Upkeep d p) (fun _ p => Upkeep d p)
      (reserveVariables (.int n) ⟨e, host⟩) := by
  refine (reserveVariables_ends h.plain h.keeps.seated n).imp ?_ ?_
  · intro _ p hp
    exact h.onward hp.onward (h.keeps.ensured hp)
  · intro f p hp
    refine h.onward hp.onward ?_
    rw [hp.rest]
    exact h.keeps

/-- A search touches no clause, and whole numbers for limits never fail
it. -/
theorem upkeep_solve (h : Upkeep d ⟨e, host⟩) (budget : Int) :
    Ends (fun _ p => Upkeep d p) never (solve (.int budget) ⟨e, host⟩) := by
  have hs := h.keeps.seated
  obtain ⟨verbosity, limit, hset⟩ := h.settings
  refine (solve_ends hs hset budget).imp_ok ?_
  intro code p hpost
  obtain ⟨outcome, -, hp⟩ := hpost
  exact h.onward (hp.onward hs) (h.keeps.searched hp)

/-- A call moves the draft on and succeeds, or fails and leaves it. -/
theorem perform_ends (h : Upkeep d p) (call : NumberCall) :
    Ends (fun _ p => Upkeep (d.told call) p) (fun _ p => Upkeep d p)
      (call.perform p) := by
  obtain ⟨e, host⟩ := p
  cases call with
  | addLiteral n =>
      show Ends _ _ (addLiteral (.int n) ⟨e, host⟩)
      by_cases hn : n = 0
      · rw [hn, addLiteral_zero h.keeps.seated.live]
        exact upkeep_terminateClause h
      · rw [Draft.told, if_neg hn]
        exact upkeep_addLiteral h hn
  | terminateClause => exact upkeep_terminateClause h
  | reserveVariables n => exact upkeep_reserveVariables h n
  | setPropagationLimit n =>
      obtain ⟨verbosity, limit, hset⟩ := h.settings
      have hk := h.keeps
      have hs := hk.seated
      exact ⟨h.plain, { hk with seated := { hs with } }, verbosity, n,
        hset.verbosity, rfl⟩
  | solve budget =>
      show Ends _ _ ((solve (.int budget) >>= fun _ => pure ())
        ⟨e, host⟩)
      rw [ends_bind]
      exact (upkeep_solve h budget).imp_ok fun _ _ hp => hp

-- ========================================================== the views

/-- All three views of an engine are its draft. -/
theorem Upkeep.views (h : Upkeep d p) :
    clauses p = .ok d.closed p
      ∧ p.object.asserted.toList = d.closed.map Formula.ofClause
      ∧ p.object.clauseCount = d.closed.length :=
  ⟨h.keeps.clauses_eq, h.keeps.asserted, h.keeps.count⟩

/-- A literal out of range is an error about a value, and leaves no
trace. -/
theorem Upkeep.range (h : Upkeep d p) {n : Int}
    (hn : Word.literalMax < n.natAbs) :
    ∃ f, addLiteral (.int n) p = .error f p
      ∧ f.errorClass = .value := by
  refine ⟨.literalRange (.int n),
    addLiteral_range h.keeps.seated.live hn, ?_⟩
  unfold Fault.errorClass Fault.reported
  split <;> rfl

/-- After any calls of a fresh engine, on a host that may deny any of its
requests, the store, the formulas and the counter tell the clauses made by
the calls that succeeded, and a literal out of range is refused without a
trace. -/
theorem views_agree (hp : host.Plain) {search : Search}
    (hmade : create search host = .ok e host') (calls : List NumberCall) :
    let p := afterTurns NumberCall.perform calls ⟨e, host'⟩
    let d := (Turn.succeeded
      (turns NumberCall.perform calls ⟨e, host'⟩)).foldl Draft.told {}
    clauses p = .ok d.closed p
      ∧ p.object.asserted.toList = d.closed.map Formula.ofClause
      ∧ p.object.clauseCount = d.closed.length
      ∧ ∀ n : Int, Word.literalMax < n.natAbs →
          ∃ f, addLiteral (.int n) p = .error f p
            ∧ f.errorClass = .value := by
  intro p d
  have hfresh := create_ends hp search
  rw [hmade] at hfresh
  obtain ⟨⟨values, store, hobject⟩, hkeeps, hholding, -⟩ := hfresh
  have hstart : Upkeep {} ⟨e, host'⟩ :=
    ⟨hp.of_sameRules hholding.rules, hkeeps, 0, 0, by rw [hobject]; rfl,
      by rw [hobject]; rfl⟩
  -- over the turns: the draft of those that succeeded is kept up
  have hrun := turns_keep NumberCall.perform
    (fun done p => Upkeep ((Turn.succeeded done).foldl Draft.told {}) p)
    ?_ calls [] ⟨e, host'⟩ hstart
  · have hend : Upkeep d p := hrun
    exact ⟨hend.views.1, hend.views.2.1, hend.views.2.2,
      fun n hn => hend.range hn⟩
  · intro done p call h
    rw [Turn.succeeded_append, List.foldl_append]
    rcases Turn.take_of_ends (perform_ends h call) with
      ⟨hfault, hup⟩ | ⟨f, hfault, hup⟩
    · rw [Turn.succeeded_ok hfault, Turn.call_take]
      exact hup
    · rw [Turn.succeeded_fault hfault]
      exact hup

/-- Two literals, one out of range between them, a terminator, and a
literal that is left open. -/
theorem views_agree_one_clause :
    let start := Host.new (.open false) none
    let calls : List NumberCall :=
      [.addLiteral 1, .addLiteral 0x80000000, .addLiteral (-2),
        .terminateClause, .addLiteral 3]
    let p := afterTurns NumberCall.perform calls
      ⟨fresh (fun _ _ => .unsat) 0 1, (start.given 17).given 64⟩
    create (fun _ _ => .unsat) start
        = .ok (fresh (fun _ _ => .unsat) 0 1) ((start.given 17).given 64)
      ∧ clauses p = .ok [[1, -2]] p
      ∧ p.object.asserted.toList = [.disjunction [1, -2]]
      ∧ p.object.clauseCount = 1 := by
  intro start calls
  have hmade : create (fun _ _ => .unsat) start
      = .ok (fresh (fun _ _ => .unsat) 0 1) ((start.given 17).given 64) :=
    rfl
  have hcalls : Turn.succeeded (turns NumberCall.perform calls
      ⟨fresh (fun _ _ => .unsat) 0 1, (start.given 17).given 64⟩)
      = [.addLiteral 1, .addLiteral (-2), .terminateClause,
          .addLiteral 3] := by
    decide +kernel
  have hviews := views_agree ⟨rfl, rfl, rfl⟩ hmade calls
  simp only [hcalls] at hviews
  generalize afterTurns NumberCall.perform calls
    (⟨fresh _ 0 1, _⟩ : Placed TableEngine) = p at hviews ⊢
  exact ⟨hmade, hviews.1, hviews.2.1, hviews.2.2.1⟩

end TableEngine

end SatSession
