/-
Solving in one call is sound and complete.

On a host that grants everything, a problem of literals that fit into
words is always answered (`solve_right`): with a total list over all
variables that satisfies every clause, or that there is none, or, under a
limit only, that the search gave up. What the search has to offer for
that is soundness; which assignment it finds does not matter.

The proof goes along the life of the session: it is opened with the
clauses in the engine, the verdict of its one search is about these
clauses, and what it decodes is the assignment of the verdict.
-/
import SatSession.Search.Learning
import SatSession.Solve
import SatSession.Proofs.Sessions.Asking
import SatSession.Proofs.Tables.Verdicts

namespace SatSession

open TableEngine

variable {host : Host} {s : Session TableEngine}
  {clauses : List (List Int)}

/-- An answer that is right for some clauses over some variables, if the
search was under a limit. -/
def Answer.Right (n : Nat) (clauses : List (List Int)) (limit : Int) :
    Answer → Prop
  | .solution literals => ∃ s, literals = s.map Value.int
      ∧ Total n s ∧ Satisfies s clauses
  | .unsatisfiable => ∀ s, Total n s → ¬ Satisfies s clauses
  | .unknown => 0 < limit

-- ========================================================= one session

/-- Settings in range pass the check. -/
theorem config_build_eq {vars verbose propLimit : Int}
    (hvars : -1 ≤ vars) (hverbose : 0 ≤ verbose)
    (hlimit : 0 ≤ propLimit) :
    Config.build (.int vars) (.int verbose) (.int propLimit)
      = .ok ⟨vars, verbose, propLimit⟩ := by
  have h1 : Config.atLeast .vars (-1) vars = .ok () :=
    if_neg (by omega)
  have h2 : Config.atLeast .verbose 0 verbose = .ok () :=
    if_neg (by omega)
  have h3 : Config.atLeast .propLimit 0 propLimit = .ok () :=
    if_neg (by omega)
  show (do
    Config.atLeast .vars (-1) vars
    Config.atLeast .verbose 0 verbose
    Config.atLeast .propLimit 0 propLimit
    return ⟨vars, verbose, propLimit⟩ : Except Fault Config) = _
  rw [h1, h2, h3]
  rfl

namespace Session

/-- A session that holds some clauses answers for them, and stays
seated. -/
theorem answer_ends (hk : Keeps { closed := clauses } s.engine host.heap)
    (hintact : s.destroyed = false) {verbosity limit : Int}
    (hset : Settings s.engine verbosity limit)
    (hsound : s.engine.search.Sound) :
    Ends (fun answer p => answer.Right s.engine.varCount clauses limit
          ∧ Seated p.object.engine p.host.heap
          ∧ p.object.destroyed = false
          ∧ Host.SameRules host p.host)
      never (Session.answer ⟨s, host⟩) := by
  have hs := hk.seated
  -- what the verdict means for the clauses, before it is known
  have hmeans := hk.verdict_means hsound (limitInForce limit (-1))
  unfold Session.answer
  rw [ends_bind]
  refine (invoke_ends hs hintact hset).imp_ok ?_
  intro outcome p hanswered
  obtain ⟨q, hsearched, hp⟩ := hanswered.search
  have hseated : Seated p.object.engine p.host.heap := by
    rw [hp]
    exact (hk.searched hsearched).seated
  have hrules : Host.SameRules host p.host := by
    rw [hp]
    exact hsearched.within.rules.trans ⟨rfl, rfl, rfl, rfl, rfl⟩
  have hdestroyed : p.object.destroyed = false := by
    rw [hp]
    exact hintact
  have hsaid := hsearched.said
  cases outcome with
  | satisfiable =>
      obtain ⟨a, hverdict, hshowing⟩ := hanswered.showing hintact
      rw [hverdict] at hmeans
      have hcount : p.object.engine.varCount = s.engine.varCount := by
        rw [hp]
        show q.object.varCount = _
        rw [hsearched.object]
      show Ends _ _ ((decode >>= fun literals =>
        pure (Answer.solution literals)) p)
      rw [bind_of_ok (decode_eq hshowing), hcount]
      exact ⟨⟨_, rfl, total_signedList a _, hmeans⟩, hseated, hdestroyed,
        hrules⟩
  | unsatisfiable =>
      rw [Verdict.eq_unsat hsaid.symm] at hmeans
      exact ⟨hmeans, hseated, hdestroyed, hrules⟩
  | unknown =>
      rw [Verdict.eq_unknown hsaid.symm] at hmeans
      exact ⟨limit_pos hmeans, hseated, hdestroyed, hrules⟩

/-- The session is destroyed after its answer. -/
theorem answerAndDestroy_ends (hp : host.Plain) (ht : host.TakesBack)
    (hk : Keeps { closed := clauses } s.engine host.heap)
    (hintact : s.destroyed = false) {verbosity limit : Int}
    (hset : Settings s.engine verbosity limit)
    (hsound : s.engine.search.Sound) :
    Ends (fun answer _ => answer.Right s.engine.varCount clauses limit)
      never (Session.answerAndDestroy ⟨s, host⟩) := by
  unfold answerAndDestroy
  rw [ends_bind, Op.ends_orRelease]
  refine (answer_ends hk hintact hset hsound).imp_ok ?_
  intro answer p hpost
  obtain ⟨s', host'⟩ := p
  obtain ⟨hright, hseated, hdestroyed, hrules⟩ := hpost
  have hdestroy := destroy_eq (hp.of_sameRules hrules)
    (ht.of_sameRules hrules) hseated hdestroyed
  rw [bind_of_ok hdestroy]
  exact hright

end Session

-- ============================================================ one call

/-- A right answer without a limit decides the problem. -/
theorem Answer.Right.decides {n : Nat} {answer : Answer}
    (h : answer.Right n clauses 0) :
    ((∃ s, Total n s ∧ Satisfies s clauses)
        ↔ ∃ literals, answer = .solution literals)
      ∧ ((∀ s, Total n s → ¬ Satisfies s clauses)
        ↔ answer = .unsatisfiable) := by
  cases answer with
  | solution literals =>
      obtain ⟨s, -, htotal, hsat⟩ := h
      refine ⟨⟨fun _ => ⟨literals, rfl⟩, fun _ => ⟨s, htotal, hsat⟩⟩, ?_⟩
      exact ⟨fun hnone => absurd hsat (hnone s htotal), fun hno => by
        cases hno⟩
  | unsatisfiable =>
      refine ⟨⟨?_, ?_⟩, ⟨fun _ => rfl, fun _ => h⟩⟩
      · intro hex
        obtain ⟨s, htotal, hsat⟩ := hex
        exact absurd hsat (h s htotal)
      · intro hex
        obtain ⟨literals, hno⟩ := hex
        cases hno
  | unknown => exact absurd h (by simp [Answer.Right])

/-- On a host that grants everything, and with a sound search, well-formed
clauses get a right answer. -/
theorem solve_answers (hg : host.Generous) {search : Search}
    (hsound : search.Sound) {v : Value} (hv : v.IsClauseSet clauses)
    (hrange : InRange clauses) {vars verbose propLimit : Int}
    (hvars : -1 ≤ vars) (hverbose : 0 ≤ verbose)
    (hlimit : 0 ≤ propLimit) :
    Ends
      (fun answer _ =>
        answer.Right (variablesOf vars clauses) clauses propLimit)
      never
      (solve (TableEngine.create search) v (.int vars) (.int verbose)
        (.int propLimit) host) := by
  unfold solve checkedConfig
  rw [config_build_eq hvars hverbose hlimit, pure_bind, ends_bind]
  refine (Session.create_ends hg.plain hg.takesBack search _ v).imp ?_ ?_
  · intro s host₁ hpost
    obtain ⟨cs, hcs, hopened⟩ := hpost
    obtain rfl := hv.unique hcs
    have hrules := hopened.holding.rules
    have hg₁ := hg.of_sameRules hrules
    have hintact : s.destroyed = false := by rw [hopened.object]
    rw [ends_bind, Op.ends_on]
    refine (Session.answerAndDestroy_ends hg₁.plain hg₁.takesBack
      hopened.keeps hintact hopened.settings
      (by rw [hopened.search]; exact hsound)).imp_ok ?_
    intro answer p hright
    rw [hopened.vars] at hright
    exact hright
  · intro f host₁ hnot
    exact hnot.unfit hg ⟨clauses, hv, hrange⟩

/-- A list over all variables is answered if there is one to be found. -/
theorem solve_finds (hg : host.Generous) {search : Search}
    (hsound : search.Sound) {v : Value} (hv : v.IsClauseSet clauses)
    (hrange : InRange clauses) {vars : Int} (hvars : -1 ≤ vars)
    (hmodel : ∃ s, Total (variablesOf vars clauses) s
      ∧ Satisfies s clauses) :
    ∃ literals host',
      solve (TableEngine.create search) v (.int vars) (.int 0) (.int 0) host
        = .ok (.solution literals) host'
      ∧ literals.length = variablesOf vars clauses := by
  obtain ⟨answer, host', hsolve, hright⟩ :=
    (solve_answers hg hsound hv hrange hvars (Int.le_refl 0)
      (Int.le_refl 0)).exists_ok
  obtain ⟨literals, rfl⟩ := hright.decides.1.mp hmodel
  obtain ⟨s, rfl, htotal, -⟩ := hright
  refine ⟨_, host', hsolve, ?_⟩
  rw [List.length_map]
  exact htotal.length

/-- On a host that grants everything, and with a sound search, solving
well-formed clauses succeeds with a right answer; without a limit the
answer decides the problem. -/
theorem solve_right (hg : host.Generous) {search : Search}
    (hsound : search.Sound) {v : Value} (hv : v.IsClauseSet clauses)
    (hrange : InRange clauses) {vars verbose propLimit : Int}
    (hvars : -1 ≤ vars) (hverbose : 0 ≤ verbose)
    (hlimit : 0 ≤ propLimit) :
    ∃ answer host',
      solve (TableEngine.create search) v (.int vars) (.int verbose)
          (.int propLimit) host
        = .ok answer host'
      ∧ answer.Right (variablesOf vars clauses) clauses propLimit
      ∧ (propLimit = 0 →
          ((∃ s, Total (variablesOf vars clauses) s ∧ Satisfies s clauses)
              ↔ ∃ literals, answer = .solution literals)
            ∧ ((∀ s, Total (variablesOf vars clauses) s →
                  ¬ Satisfies s clauses)
              ↔ answer = .unsatisfiable)) := by
  obtain ⟨answer, host', hsolve, hright⟩ :=
    (solve_answers hg hsound hv hrange hvars hverbose hlimit).exists_ok
  refine ⟨answer, host', hsolve, hright, ?_⟩
  intro heq
  subst heq
  exact hright.decides

/-- One clause of two literals, and a variable that it does not name. -/
theorem solve_right_three_variables :
    ∃ literals host',
      solve (TableEngine.create Learning.search)
          (.seq .list [.seq .tuple [.int 1, .int (-2)]]) (.int 3) (.int 0)
          (.int 0) .boundless
        = .ok (.solution literals) host'
      ∧ ∃ s, literals = s.map Value.int ∧ Total 3 s
        ∧ Satisfies s [[1, -2]] := by
  have hv : Value.IsClauseSet (.seq .list [.seq .tuple [.int 1, .int (-2)]])
      [[1, -2]] :=
    ⟨_, rfl, .cons ⟨_, rfl, rfl⟩ .nil⟩
  have hrange : InRange [[1, -2]] := by
    simp [InRange, Word.literalMax]
  have hmodel : ∃ s, Total 3 s ∧ Satisfies s [[1, -2]] :=
    ⟨[1, 2, 3], mem_models.mp (by decide)⟩
  obtain ⟨answer, host', hsolve, hright, hdecides⟩ :=
    solve_right Host.generous_boundless Learning.search_sound hv hrange
      (show -1 ≤ 3 by decide) (Int.le_refl 0) (Int.le_refl 0)
  obtain ⟨literals, rfl⟩ := (hdecides rfl).1.mp hmodel
  exact ⟨literals, host', hsolve, hright⟩

end SatSession
