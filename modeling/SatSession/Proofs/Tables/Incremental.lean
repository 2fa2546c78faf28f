/-
Incremental solving does not depend on the history.

Calls of an engine may come in any order, fail halfway for want of memory,
and go on after a reset. Two things are said of the engine that they leave
(`model_never_stale`):

- a search without a limit decides the clauses that are closed at that
  time, whatever was searched, refused or left open before;
- a variable can be read just if the last search that was answered found
  an assignment and no clause was closed and no reset made since. What is
  then read satisfies all closed clauses, for those are the clauses that
  the assignment was found for; variables that came later read as false.

Which turn found the assignment on show is told by the account of the run
alone (`OnShow`). The invariant is that the flag and the value table say
the same (`Told`); one turn keeps it (`Told.turn`).
-/
import SatSession.Proofs.Tables.Abreast
import SatSession.Search.Learning

namespace SatSession

-- ============================================================ the calls

/-- A call of an engine: one with a whole number, or the reset. -/
inductive EngineCall where
  | number (call : NumberCall)
  | reset
  deriving DecidableEq, Repr

namespace EngineCall

/-- Makes a call. -/
def perform {E : Type} [Engine E] : EngineCall → Op E Unit
  | number call => call.perform
  | reset => Engine.reset

/-- The limit that calls leave installed: the last one set, none at the
start. -/
def limitAfter (calls : List EngineCall) : Int :=
  calls.foldl (fun limit call =>
    match call with
    | number call => call.limit limit
    | reset => limit) 0

end EngineCall

namespace TableEngine

-- ===================================================== what is on show

/-- A turn in which a search was answered with an assignment. -/
structure Found (t : Turn EngineCall TableEngine) : Prop where
  search : ∃ budget, t.call = .number (.solve budget)
    ∧ solve (.int budget) t.before = .ok (.int 10) t.after

/-- A turn after which no assignment found before it is on show: a search
was answered, a clause closed or a reset made. -/
def Supersedes (t : Turn EngineCall TableEngine) : Prop :=
  t.fault = none ∧ match t.call with
    | .number (.solve _) | .reset => True
    | .number call => call.closes = true

/-- The turn that found what is on show after some turns. -/
def OnShow (t : Turn EngineCall TableEngine)
    (done : List (Turn EngineCall TableEngine)) : Prop :=
  Turn.Latest Found Supersedes t done

section

variable {t u : Turn EngineCall TableEngine}
  {done : List (Turn EngineCall TableEngine)}

/-- What is shown agrees with the account of the turns. -/
structure Agrees (shown : Option Nat)
    (done : List (Turn EngineCall TableEngine)) : Prop where
  found : ∀ t, OnShow t done → shown = some t.after.object.varCount
  nothing : (∀ t, ¬ OnShow t done) → shown = none

variable {shown : Option Nat}

/-- A turn that neither finds nor supersedes leaves what is shown. -/
theorem Agrees.keep (h : Agrees shown done) (hnot : ¬ Found u)
    (hkept : ¬ Supersedes u) : Agrees shown (done ++ [u]) := by
  have hiff : ∀ t, OnShow t (done ++ [u]) ↔ OnShow t done := fun t =>
    Turn.latest_concat_of_neither hnot hkept
  refine ⟨fun t ht => h.found t ((hiff t).mp ht), fun hnone => ?_⟩
  exact h.nothing fun t ht => hnone t ((hiff t).mpr ht)

/-- Nothing is shown where nothing is on show. -/
theorem agrees_none (hnone : ∀ t, ¬ OnShow t done) : Agrees none done :=
  ⟨fun t ht => absurd ht (hnone t), fun _ => rfl⟩

/-- What has just been found is shown. -/
theorem agrees_found (hfound : Found u) (hover : Supersedes u) :
    Agrees (some u.after.object.varCount) (done ++ [u]) := by
  have hiff : ∀ t, OnShow t (done ++ [u]) ↔ t = u := fun t =>
    Turn.latest_concat_of_both hfound hover
  refine ⟨fun t ht => ?_, fun hnone => ?_⟩
  · rw [(hiff t).mp ht]
  · exact absurd ((hiff u).mpr rfl) (hnone u)

end

-- =========================================================== after a reset

variable {e : TableEngine} {host : Host} {p : Placed TableEngine}

/-- An engine after its reset. -/
structure Spent (e : TableEngine) : Prop where
  dead : e.live = false
  flag : e.hasModel = false

theorem checkLive_spent (h : Spent e) :
    checkLive ⟨e, host⟩ = .error .engineReset ⟨e, host⟩ :=
  checkLive_reset h.dead

/-- A second reset does nothing. -/
theorem reset_spent (h : Spent e) : reset ⟨e, host⟩ = .ok () ⟨e, host⟩ := by
  have hdead : ¬ e.live = true := by
    rw [show e.live = false from h.dead]
    exact Bool.false_ne_true
  unfold reset
  rw [Op.read_bind_apply, if_neg hdead]
  rfl

/-- Nothing but the limit can be changed any more: no search is answered,
and the host is left alone. -/
theorem Spent.perform (h : Spent p.object) (call : EngineCall) :
    Ends (fun _ q => Spent q.object
          ∧ (∀ budget, call ≠ .number (.solve budget))
          ∧ q.object.tables = p.object.tables ∧ q.host = p.host)
      (fun f q => f = .engineReset ∧ q = p) (call.perform p) := by
  obtain ⟨e, host⟩ := p
  have hcheck := @checkLive_spent e host h
  cases call with
  | reset =>
      show Ends _ _ (TableEngine.reset ⟨e, host⟩)
      rw [reset_spent h]
      exact ⟨h, by simp, rfl, rfl⟩
  | number call =>
      cases call with
      | addLiteral n =>
          show Ends _ _ (TableEngine.addLiteral (.int n) ⟨e, host⟩)
          unfold TableEngine.addLiteral
          rw [bind_of_error hcheck]
          exact ⟨rfl, rfl⟩
      | terminateClause =>
          show Ends _ _ (TableEngine.terminateClause ⟨e, host⟩)
          unfold TableEngine.terminateClause
          rw [bind_of_error hcheck]
          exact ⟨rfl, rfl⟩
      | reserveVariables n =>
          show Ends _ _ (TableEngine.reserveVariables (.int n) ⟨e, host⟩)
          unfold TableEngine.reserveVariables
          rw [bind_of_error hcheck]
          exact ⟨rfl, rfl⟩
      | setPropagationLimit n =>
          exact ⟨⟨h.dead, h.flag⟩, by simp, rfl, rfl⟩
      | solve budget =>
          show Ends _ _ ((TableEngine.solve (.int budget) >>= fun _ =>
            pure ()) ⟨e, host⟩)
          unfold TableEngine.solve
          rw [bind_of_error (bind_of_error hcheck)]
          exact ⟨rfl, rfl⟩

-- ============================================================== one turn

variable {done : List (Turn EngineCall TableEngine)} {d : Draft}
  {shown : Option Nat} {limit : Int} {own : List BlockId}
  {e : TableEngine} {host host' : Host} {p : Placed TableEngine}

/-- How an engine stands to the account of its calls. -/
inductive Told (done : List (Turn EngineCall TableEngine))
    (p : Placed TableEngine) : Prop where
  | live (own : List BlockId) (shown : Option Nat) (d : Draft)
      (abreast : Abreast own shown d
        (EngineCall.limitAfter (done.map Turn.call)) p)
      (agrees : Agrees shown done)
  | spent (gone : Spent p.object) (nothing : ∀ t, ¬ OnShow t done)
      (reset : .reset ∈ done.map Turn.call)

theorem limitAfter_concat (calls : List EngineCall) (call : EngineCall) :
    EngineCall.limitAfter (calls ++ [call])
      = match call with
        | .number call => call.limit (EngineCall.limitAfter calls)
        | .reset => EngineCall.limitAfter calls := by
  unfold EngineCall.limitAfter
  rw [List.foldl_append]
  rfl

/-- A search with the code of an assignment finds one in its turn. -/
theorem found_take {p q : Placed TableEngine} {budget : Int}
    (h : solve (.int budget) p = .ok (.int 10) q) :
    Found (Turn.take EngineCall.perform (.number (.solve budget)) p) := by
  have hrun : (EngineCall.number (.solve budget)).perform p = .ok () q :=
    bind_of_ok (f := fun _ => pure ()) h
  have htake : Turn.take EngineCall.perform (.number (.solve budget)) p
      = ⟨.number (.solve budget), p, none, q⟩ := by
    unfold Turn.take
    rw [hrun]
  rw [htake]
  exact ⟨budget, rfl, h⟩

/-- Only a search finds anything. -/
theorem not_found_of_ne {u : Turn EngineCall TableEngine}
    (h : ∀ budget, u.call ≠ .number (.solve budget)) : ¬ Found u := by
  intro hfound
  obtain ⟨budget, hcall, -⟩ := hfound.search
  exact h budget hcall

section

variable {call : NumberCall}

/-- A call that is no search can at most take away what is shown. -/
theorem Told.other (h : Abreast own shown d
      (EngineCall.limitAfter (done.map Turn.call)) p)
    (hagrees : Agrees shown done)
    (hcall : ∀ budget, call ≠ .solve budget) :
    let u := Turn.take EngineCall.perform (.number call) p
    Told (done ++ [u]) u.after := by
  intro u
  have hu : u.call = .number call := Turn.call_take ..
  have hnot : ¬ Found u := not_found_of_ne fun budget hsolve => by
    rw [hu] at hsolve
    exact hcall budget (EngineCall.number.inj hsolve)
  have hover : Supersedes u ↔ u.fault = none ∧ call.closes = true := by
    unfold Supersedes
    rw [hu]
    cases call with
    | solve budget => exact absurd rfl (hcall budget)
    | _ => exact Iff.rfl
  have hlimit : EngineCall.limitAfter ((done ++ [u]).map Turn.call)
      = call.limit (EngineCall.limitAfter (done.map Turn.call)) := by
    rw [List.map_append, List.map_singleton, limitAfter_concat, hu]
  have hends : Ends _ _ (EngineCall.perform (.number call) p) :=
    h.perform hcall
  rcases Turn.take_of_ends hends with
    ⟨hfault, hafter⟩ | ⟨f, hfault, hafter⟩
  · rw [← hlimit] at hafter
    by_cases hcloses : call.closes = true
    · rw [if_pos hcloses] at hafter
      exact .live _ none _ hafter (agrees_none fun t =>
        Turn.not_latest_concat hnot (hover.mpr ⟨hfault, hcloses⟩))
    · rw [if_neg hcloses] at hafter
      exact .live _ shown _ hafter (hagrees.keep hnot fun hsup =>
        hcloses (hover.mp hsup).2)
  · rw [← hlimit] at hafter
    refine .live _ shown d hafter (hagrees.keep hnot fun hsup => ?_)
    have hnone := hsup.1
    rw [show u.fault = some f from hfault] at hnone
    cases hnone

end

/-- A search that is answered replaces what was shown. -/
theorem Told.search (h : Abreast own shown d
      (EngineCall.limitAfter (done.map Turn.call)) p) (budget : Int) :
    let u := Turn.take EngineCall.perform (.number (.solve budget)) p
    Told (done ++ [u]) u.after := by
  intro u
  obtain ⟨e, host⟩ := p
  obtain ⟨code, q, hsolve, outcome, rfl, -, hafter⟩ :=
    (h.solve budget).exists_ok
  have hu : u = ⟨.number (.solve budget), ⟨e, host⟩, none, q⟩ := by
    have hrun : (EngineCall.number (.solve budget)).perform
        (⟨e, host⟩ : Placed TableEngine) = .ok () q :=
      bind_of_ok (f := fun _ => pure ()) hsolve
    show Turn.take _ _ _ = _
    unfold Turn.take
    rw [hrun]
  have hlimit : EngineCall.limitAfter ((done ++ [u]).map Turn.call)
      = EngineCall.limitAfter (done.map Turn.call) := by
    rw [List.map_append, List.map_singleton, limitAfter_concat, hu]
    rfl
  have hover : Supersedes u := by
    rw [hu]
    exact ⟨rfl, trivial⟩
  rw [← hlimit] at hafter
  have hq : u.after = q := by rw [hu]
  rw [hq]
  by_cases hsat : outcome = .satisfiable
  · subst hsat
    have hfound : Found u := found_take hsolve
    rw [shownFor, if_pos rfl] at hafter
    have hagrees := @agrees_found _ done hfound hover
    rw [hq] at hagrees
    exact .live _ _ d hafter hagrees
  · have hnot : ¬ Found u := by
      intro hfound
      obtain ⟨budget', hcall, hten⟩ := hfound.search
      rw [hu] at hcall hten
      cases hcall
      rw [show TableEngine.solve (.int budget) ⟨e, host⟩ = _ from hsolve]
        at hten
      cases outcome with
      | satisfiable => exact hsat rfl
      | unsatisfiable => cases hten
      | unknown => cases hten
    rw [shownFor, if_neg hsat] at hafter
    exact .live _ none d hafter
      (agrees_none fun t => Turn.not_latest_concat hnot hover)

/-- A reset ends it all, the limit excepted. -/
theorem Told.spend (h : Abreast own shown d limit p) :
    let u := Turn.take EngineCall.perform .reset p
    Told (done ++ [u]) u.after := by
  intro u
  obtain ⟨e, host⟩ := p
  have hreset := reset_eq h.plain h.takesBack h.keeps.seated
  have hu : u = ⟨.reset, ⟨e, host⟩, none, ⟨e.gone, e.tablesBack host⟩⟩ := by
    show Turn.take _ _ _ = _
    unfold Turn.take
    rw [show EngineCall.reset.perform (⟨e, host⟩ : Placed TableEngine)
      = .ok () ⟨e.gone, e.tablesBack host⟩ from hreset]
  have hnot : ¬ Found u := not_found_of_ne fun budget hsolve => by
    rw [hu] at hsolve
    cases hsolve
  have hover : Supersedes u := by
    rw [hu]
    exact ⟨rfl, trivial⟩
  refine .spent ?_ (fun t => Turn.not_latest_concat hnot hover) ?_
  · rw [hu]
    exact ⟨rfl, rfl⟩
  · rw [List.map_append, hu]
    simp

/-- One turn more, whatever is called. -/
theorem Told.turn (h : Told done p) (call : EngineCall) :
    Told (done ++ [Turn.take EngineCall.perform call p])
      (Turn.take EngineCall.perform call p).after := by
  cases h with
  | live own shown d habreast hagrees =>
      cases call with
      | reset => exact Told.spend habreast
      | number call =>
          cases call with
          | solve budget => exact Told.search habreast budget
          | _ => exact Told.other habreast hagrees (by simp)
  | spent hgone hnothing hreset =>
      generalize hu : Turn.take EngineCall.perform call p = u
      have hcall : u.call = call := by
        rw [← hu]
        exact Turn.call_take ..
      have hends := Turn.take_of_ends (hgone.perform call)
      rw [hu] at hends
      have hbefore : u.before = p := by
        rw [← hu]
        exact Turn.before_take ..
      have hnot : ¬ Found u := by
        intro hfound
        obtain ⟨budget, hsolve, hten⟩ := hfound.search
        rw [hbefore] at hten
        unfold TableEngine.solve at hten
        rw [bind_of_error (checkLive_spent hgone)] at hten
        cases hten
      refine .spent ?_ (fun t ht => ?_) ?_
      · rcases hends with ⟨-, hafter, -⟩ | ⟨f, -, -, hsame⟩
        · exact hafter
        · rw [hsame]
          exact hgone
      · rcases Turn.latest_concat.mp ht with ⟨-, hfound⟩ | ⟨ht, -⟩
        · exact hnot hfound
        · exact hnothing t ht
      · rw [List.map_append]
        exact List.mem_append_left _ hreset

-- ================================================================= runs

/-- Whatever is called in whatever order, and whatever memory is refused:
without a limit a live engine decides the clauses that are closed; what is
on show satisfies them and is read for just the known variables, false for
those that came later; and if nothing is on show nothing can be read. -/
theorem model_never_stale (hp : host.Plain) (ht : host.TakesBack)
    {search : Search} (hsound : search.Sound)
    (hmade : create search host = .ok e host')
    (calls : List EngineCall) :
    let done := turns EngineCall.perform calls ⟨e, host'⟩
    let p := afterTurns EngineCall.perform calls ⟨e, host'⟩
    (.reset ∉ calls → ∀ budget : Int,
        EngineCall.limitAfter calls ≤ 0 → budget ≤ 0 →
        ∃ closed code q, clauses p = .ok closed p
          ∧ solve (.int budget) p = .ok (.int code) q
          ∧ (code = 10 ∧ Satisfiable closed
            ∨ code = 20 ∧ ¬ Satisfiable closed))
      ∧ (∀ t, OnShow t done → ∃ closed a, clauses p = .ok closed p
          ∧ (∀ c ∈ closed, clauseHolds a c = true)
          ∧ (∀ i : Nat, 1 ≤ i → i ≤ p.object.varCount →
              valueOf (.int i) p = .ok (.int (if a i then 1 else -1)) p)
          ∧ (∀ i : Int, i < 1 ∨ (p.object.varCount : Int) < i →
              ∃ f, valueOf (.int i) p = .error f p
                ∧ f.errorClass = .value)
          ∧ ∀ i, t.after.object.varCount < i → a i = false)
      ∧ ((∀ t, ¬ OnShow t done) → ∀ index : Value,
          ∃ f, valueOf index p = .error f p
            ∧ f.errorClass = .preconditionViolation) := by
  intro done p
  -- before the first turn nothing has been found and nothing is shown
  have hstart : Told [] ⟨e, host'⟩ :=
    .live _ none {} (made_abreast hp ht hsound hmade)
      (agrees_none fun t => Turn.not_latest_nil)
  have hend : Told done p :=
    turns_keep EngineCall.perform Told (fun _ _ call h => h.turn call) calls
      [] ⟨e, host'⟩ hstart
  have hcalls : done.map Turn.call = calls := map_call_turns ..
  cases hend with
  | live own shown d habreast hagrees =>
      rw [hcalls] at habreast
      have hclauses : clauses p = .ok d.closed p := habreast.keeps.clauses_eq
      refine ⟨fun _ budget hlimit hbudget => ?_, fun t ht => ?_,
        fun hnone index => ?_⟩
      · obtain ⟨code, q, hsolve, hcase⟩ := habreast.decides hlimit hbudget
        exact ⟨d.closed, code, q, hclauses, hsolve, hcase⟩
      · have hshown := hagrees.found t ht
        obtain ⟨a, ha⟩ := habreast.display.exhibits _ hshown
        have hmodel : p.object.hasModel = true := by
          rw [habreast.display.flag, hshown]
          rfl
        refine ⟨d.closed, a, hclauses, ha.satisfies, fun i h1 hi => ?_,
          fun i hi => ?_, ha.beyond⟩
        · exact valueOf_eq hmodel ha.shows h1 hi
        · refine ⟨_, valueOf_range hmodel hi, ?_⟩
          unfold Fault.errorClass Fault.reported
          split <;> rfl
      · have hshown := hagrees.nothing hnone
        have hmodel : p.object.hasModel = false := by
          rw [habreast.display.flag, hshown]
          rfl
        exact ⟨_, valueOf_noModel hmodel index, rfl⟩
  | spent hgone hnothing hreset =>
      rw [hcalls] at hreset
      refine ⟨fun hno => absurd hreset hno,
        fun t ht => absurd ht (hnothing t), fun _ index => ?_⟩
      exact ⟨_, valueOf_noModel hgone.flag index, rfl⟩

/-- One literal, solved for, and a variable that is reserved behind the
search. -/
def lateVariable : List EngineCall :=
  [.number (.addLiteral 1), .number .terminateClause,
    .number (.solve (-1)), .number (.reserveVariables 2)]

/-- The literal is read as it was found, the late variable as false. -/
theorem model_never_stale_late_variable :
    Ends
      (fun e host' =>
        let p := afterTurns EngineCall.perform lateVariable ⟨e, host'⟩
        valueOf (.int 1) p = .ok (.int 1) p
          ∧ valueOf (.int 2) p = .ok (.int (-1)) p)
      never (create Learning.search .boundless) := by
  -- what is closed before the search and at the end, and the variables
  have hrun : Ends
      (fun e host' =>
        let q := afterTurns EngineCall.perform (lateVariable.take 2)
          ⟨e, host'⟩
        let r := afterTurns EngineCall.perform (lateVariable.take 3)
          ⟨e, host'⟩
        let p := afterTurns EngineCall.perform lateVariable ⟨e, host'⟩
        Ends (fun closed _ => closed = [[1]]) (fun _ _ => False) (clauses q)
          ∧ r.object.varCount = 1
          ∧ Ends (fun closed _ => closed = [[1]]) (fun _ _ => False)
              (clauses p)
          ∧ p.object.varCount = 2)
      (fun _ _ => False) (create Learning.search .boundless) := by
    decide +kernel
  have hg := Host.generous_boundless
  revert hrun
  cases hmade : create Learning.search .boundless with
  | error f host' => exact fun hrun => hrun
  | ok e host' =>
      intro hrun
      obtain ⟨hbefore, hone, hafter, htwo⟩ := hrun
      have hnever := model_never_stale hg.plain hg.takesBack
        Learning.search_sound hmade
      have hsolve : ∃ r, solve (.int (-1)) (afterTurns EngineCall.perform
          (lateVariable.take 2) ⟨e, host'⟩) = .ok (.int 10) r := by
        obtain ⟨closed, code, r, hclosed, hsolve, ⟨rfl, -⟩ | ⟨-, hnone⟩⟩ :=
          (hnever (lateVariable.take 2)).1 (by decide) (-1) (by decide)
            (by decide)
        · exact ⟨r, hsolve⟩
        · rw [hclosed] at hbefore
          obtain rfl : closed = [[1]] := hbefore
          exact absurd ⟨fun _ => true, by decide⟩ hnone
      obtain ⟨r, hsolve⟩ := hsolve
      have hshow : OnShow
          (Turn.take EngineCall.perform (.number (.solve (-1)))
            (afterTurns EngineCall.perform (lateVariable.take 2) ⟨e, host'⟩))
          (turns EngineCall.perform lateVariable ⟨e, host'⟩) := by
        refine ⟨turns EngineCall.perform (lateVariable.take 2) ⟨e, host'⟩,
          turns EngineCall.perform (lateVariable.drop 3) _, rfl,
          found_take hsolve, fun u hu hsup => ?_⟩
        obtain rfl := List.mem_singleton.mp hu
        rw [Supersedes, Turn.call_take] at hsup
        exact absurd hsup.2 (by decide)
      obtain ⟨closed, a, hclosed, hholds, hread, -, hlate⟩ :=
        (hnever lateVariable).2.1 _ hshow
      rw [hclosed] at hafter
      obtain rfl : closed = [[1]] := hafter
      have htrue : a 1 = true := by
        simpa [clauseHolds, litHolds] using hholds [1] (by simp)
      have hfalse : a 2 = false :=
        hlate 2 (Nat.lt_of_le_of_lt (Nat.le_of_eq hone) (by decide))
      have hfirst := hread 1 (Nat.le_refl 1) (by rw [htwo]; decide)
      have hsecond := hread 2 (by decide) (Nat.le_of_eq htwo.symm)
      rw [htrue] at hfirst
      rw [hfalse] at hsecond
      exact ⟨hfirst, hsecond⟩

end TableEngine

end SatSession
