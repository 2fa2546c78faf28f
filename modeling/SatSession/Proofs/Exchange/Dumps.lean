/-
What an engine writes out.

A dump is made from the words in the store and from the number of
variables, while the search sees neither: it is given the formulas that
were asserted. That the three tell of one problem is part of what a live
engine keeps up whatever is called (`Keeps`), so the dump of an engine that
is reached by any calls is a document of the clauses that are searched, and
making it changes nothing (`Keeps.dumps`). Literals of a clause that is not
closed are in none of the three.

A session that says enough prints the dump of its engine while it is made,
and prints nothing else (`create_prints`): the console is an aspect of the
host in which no call of the engine shows, which is a law that engines with
tables obey.
-/
import SatSession.Proofs.Exchange.Reading
import SatSession.Proofs.Conversation.Laws
import SatSession.Proofs.Sessions.Using

namespace SatSession

open TableEngine

variable {e : TableEngine} {host host' : Host} {d : Draft}
  {p : Placed TableEngine}

-- ============================================================= the dump

/-- The comment lines of a dump. -/
def dumpPieces : List (List Char) := Text.lines problemComment.toList

/-- A text is a dump of an engine that knows `n` variables: a document of
the clauses that it asserted. -/
structure Dumped (p : Placed TableEngine) (n : Nat)
    (clauses : List (List Int)) (text : String) : Prop where
  renders : Dimacs.Renders dumpPieces n clauses text
  inRange : ∀ c ∈ clauses, ∀ l ∈ c, 1 ≤ l.natAbs ∧ l.natAbs ≤ n
  asserted : p.object.asserted.toList = clauses.map Formula.ofClause
  /-- What satisfies the clauses of the document satisfies what the search
  is asked for, and the other way round. -/
  satisfies : ∀ a : Assignment, Satisfies (signedList a n) clauses
    ↔ ∀ f ∈ p.object.asserted.toList, f.holds a = true

/-- An engine has a dump, and making it leaves all as it is. -/
def Dumps (p : Placed TableEngine) : Prop :=
  ∃ (n : Nat) (clauses : List (List Int)) (text : String),
    (Engine.variableCount : Op TableEngine Value) p = .ok (.int n) p
      ∧ TableEngine.clauses p = .ok clauses p
      ∧ (Engine.writeProblem : Op TableEngine String) p = .ok text p
      ∧ Dumped p n clauses text

namespace TableEngine

/-- What is written of the closed clauses is a document of them. -/
theorem Keeps.renders (hk : Keeps d e host.heap) :
    Dimacs.Renders dumpPieces e.varCount d.closed
      (Dimacs.write problemComment e.varCount d.closed) :=
  Dimacs.write_renders problemComment e.varCount fun c hc l hl =>
    (hk.admitted c (List.mem_append_left _ hc) l hl).nonzero

/-- What an engine that keeps a draft writes out is a dump of the closed
clauses. -/
theorem Keeps.dumped (hk : Keeps d p.object p.host.heap) :
    Dumped p p.object.varCount d.closed
      (Dimacs.write problemComment p.object.varCount d.closed) := by
  have hclosed : ∀ c ∈ d.closed, ∀ l ∈ c, Admitted p.object.varCount l :=
    fun c hc => hk.admitted c (List.mem_append_left _ hc)
  refine ⟨hk.renders, fun c hc l hl => ?_, hk.asserted, fun a => ?_⟩
  · have hadmitted := hclosed c hc l hl
    exact ⟨Int.natAbs_pos.mpr hadmitted.nonzero, hadmitted.exists_var⟩
  · simp only [hk.asserted, List.forall_mem_map, Formula.holds_ofClause]
    refine forall₂_congr fun c hc => (clauseHolds_iff_mem fun l hl => ?_).symm
    exact ⟨(hclosed c hc l hl).nonzero, (hclosed c hc l hl).exists_var⟩

/-- An engine that keeps a draft has a dump. -/
theorem Keeps.dumps (hk : Keeps d p.object p.host.heap) : Dumps p :=
  ⟨_, _, _, rfl, hk.clauses_eq, hk.writeProblem_eq, hk.dumped⟩

end TableEngine

-- ========================================================== the console

/-- No method of an engine with tables prints. -/
theorem TableEngine.obeys_console : Obeys (Same (beside Host.console)) :=
  obeys Host.aloof_console

namespace Session

/-- What is printed of an engine while a session is made: its dump, if the
session says enough, and nothing otherwise. -/
def printout (verbose : Int) (varCount : Nat) (clauses : List (List Int)) :
    String :=
  if 2 ≤ verbose then Dimacs.write problemComment varCount clauses else ""

/-- The end of a loading prints the printout. -/
theorem printProblem_prints (hk : Keeps d e host.heap) (verbose : Int)
    (count : Nat) :
    Ends (fun _ p => p.object = e ∧ p.host.console
          = host.console ++ printout verbose e.varCount d.closed) never
      ((if 2 ≤ verbose then do
          let text ← Engine.writeProblem
          Op.onHost (Host.print text)
          return count
        else return count : Op TableEngine Nat) ⟨e, host⟩) := by
  unfold printout
  split
  next hverbose =>
    rw [ends_bind]
    show Ends _ _ (TableEngine.writeProblem ⟨e, host⟩)
    rw [hk.writeProblem_eq]
    exact ⟨rfl, rfl⟩
  next hverbose => exact ⟨rfl, String.append_empty.symm⟩

/-- Loading prints the printout of what was loaded and nothing else. -/
theorem load_prints (hp : host.Plain) (hk : Keeps {} e host.heap)
    (hvars : e.varCount = 0) (hset : Settings e 0 0) (config : Config)
    (v : Value) :
    Ends (fun _ p => ∃ cs, v.IsClauseSet cs ∧ p.host.console
          = host.console
            ++ printout config.verbose p.object.varCount cs)
      (fun _ _ => True)
      ((load config v : Op TableEngine Nat) ⟨e, host⟩) := by
  let e₁ : TableEngine := { e with verbosity := .int config.verbose }
  have hs := hk.seated
  have hk₁ : Keeps {} e₁ host.heap := { hk with seated := { hs with } }
  have hquiet₁ : Leaves (beside Host.console)
      (if config.vars ≠ -1 then Engine.reserveVariables (.int config.vars)
        else pure () : Op TableEngine Unit) :=
    .ite (obeys_console.reserveVariables _) (.pure _)
  unfold load
  dsimp only
  rw [ends_bind]
  change Ends _ _ ((if config.vars ≠ -1 then _ else _ : Op TableEngine Nat)
    ⟨e₁, host⟩)
  rw [ends_when]
  refine ((reserve_ends hp hk₁ hvars config.vars True).and
    (hquiet₁ ⟨e₁, host⟩)).imp ?_ fun _ _ _ => trivial
  intro _ p hpost
  obtain ⟨e₂, host₂⟩ := p
  obtain ⟨⟨hk₂, hon₂, -⟩, hsame₂⟩ := hpost
  let e₃ : TableEngine :=
    { e₂ with propagationLimit := .int config.propLimit }
  have hs₂ := hk₂.seated
  have hk₃ : Keeps {} e₃ host₂.heap := { hk₂ with seated := { hs₂ with } }
  have hp₂ := hp.of_sameRules hon₂.within.rules
  rw [ends_when, setLimit_eq (hon₂.limit.trans hset.limit), ends_ok,
    ends_bind]
  refine ((loadClauses_ends hp₂ hk₃ v).and
    (loadClauses_moves obeys_console.loads v ⟨e₃, host₂⟩)).imp ?_ fun _ _ _ => trivial
  intro count p hpost
  obtain ⟨e₄, host₄⟩ := p
  obtain ⟨⟨cs, hcs, -, hloaded⟩, hsame₄⟩ := hpost
  have hconsole : host₄.console = host.console := hsame₄.trans hsame₂
  rw [← hconsole]
  refine (printProblem_prints hloaded.keeps config.verbose count).imp_ok ?_
  rintro _ q ⟨rfl, hprinted⟩
  exact ⟨cs, hcs, hprinted⟩

/-- Making a session prints the printout of its clauses and nothing
else. -/
theorem create_prints (hp : host.Plain) (search : Search) (config : Config)
    (v : Value) :
    Ends (fun s host' => ∃ cs, v.IsClauseSet cs ∧ host'.console
          = host.console
            ++ printout config.verbose s.engine.varCount cs)
      (fun _ _ => True)
      (create (TableEngine.create search) config v host) := by
  unfold create
  rw [ends_bind]
  have hmake := TableEngine.create_ends hp search
  refine (hmake.and (create_leaves Host.aloof_console search host)).imp ?_
    fun _ _ _ => trivial
  intro e host₁ hpost
  obtain ⟨hmade, hsame⟩ := hpost
  obtain ⟨values, store, hobject⟩ := hmade.object
  have hp₁ := hp.of_sameRules hmade.holding.rules
  have hvars : e.varCount = 0 := by rw [hobject]; rfl
  have hset : Settings e 0 0 := by rw [hobject]; exact ⟨rfl, rfl⟩
  have hconsole : host₁.console = host.console := hsame
  rw [ends_bind, Op.ends_on]
  unfold prepare
  rw [ends_bind, Op.ends_orRelease, ← hconsole]
  refine (load_prints hp₁ hmade.keeps hvars hset config v).imp ?_ ?_
  · rintro count p ⟨cs, hcs, hprinted⟩
    rw [noteCount_eq]
    exact ⟨cs, hcs, hprinted⟩
  · intro f p _
    exact ends_true _

/-- What a session prints while it is made reads back as its clauses. -/
theorem create_prints_clauses (hp : host.Plain) (ht : host.TakesBack)
    {search : Search} {config : Config} {v : Value}
    {s : Session TableEngine}
    (hmade : create (TableEngine.create search) config v host
      = .ok s host') :
    ∃ clauses text, v.IsClauseSet clauses
      ∧ Dimacs.Renders dumpPieces (variablesOf config.vars clauses) clauses
          text
      ∧ host'.console
          = host.console ++ if 2 ≤ config.verbose then text else "" := by
  have hends := (create_ends hp ht search config v).and
    (create_prints hp search config v)
  rw [hmade] at hends
  obtain ⟨⟨clauses, hwrites, hopened⟩, printed, hprinted, hconsole⟩ := hends
  obtain rfl : printed = clauses := hprinted.unique hwrites
  have hrenders := hopened.keeps.renders
  rw [hopened.vars] at hrenders
  refine ⟨printed, _, hwrites, hrenders, ?_⟩
  rw [hconsole, printout, hopened.vars]

end Session

-- ================================================================= runs

/-- What is written out is a document of the problem that is solved.

Whatever is called on an engine before its reset, and whatever of it the
host denies, the engine has a dump: its header names the variables that
the engine counts and as many clauses as there are clause lines, its
literals are about these variables, and its clauses are those asserted, so
that it is satisfied by what satisfies the search. The same goes for the
engine of a session as long as it is live, whatever was called of the
session and behind its back. And what a session prints while it is made
reads back as the clauses it was made of, over all variables of the
problem. -/
theorem dumps_what_is_solved (hp : host.Plain) (search : Search) :
    (∀ e host₁, TableEngine.create search host = .ok e host₁ →
      ∀ calls : List LiveCall,
        Dumps (afterTurns LiveCall.perform calls ⟨e, host₁⟩))
    ∧ ∀ (config : Config) (v : Value) (s : Session TableEngine) host₁,
      host.TakesBack →
      Session.create (TableEngine.create search) config v host
        = .ok s host₁ →
      (∃ clauses text, v.IsClauseSet clauses
        ∧ Dimacs.Renders dumpPieces (variablesOf config.vars clauses)
            clauses text
        ∧ host₁.console
            = host.console ++ if 2 ≤ config.verbose then text else "")
      ∧ ∀ calls : List UseCall,
        (∀ call ∈ calls, call.Proper s.engine.tables) →
        let p := afterTurns UseCall.perform calls ⟨s, host₁⟩
        p.object.engine.live = true → Dumps ⟨p.object.engine, p.host⟩ := by
  refine ⟨?_, ?_⟩
  · intro e host₁ hmade calls
    obtain ⟨t, hinuse, -, -⟩ := (made_of_create hp hmade).used hp calls
    exact hinuse.tallies.keeps.dumps
  · intro config v s host₁ ht hmade
    refine ⟨Session.create_prints_clauses hp ht hmade, ?_⟩
    intro calls hproper p hlive
    have hstanding : Session.Standing s.engine.tables p :=
      Session.standing_of_created hp ht hmade calls hproper
    cases hstanding with
    | working hworks =>
        obtain ⟨search, t, ht⟩ := hworks.tallies
        exact ht.keeps.dumps
    | resting hempty =>
        have hdead : p.object.engine.live = false := hempty.dead
        rw [hdead] at hlive
        cases hlive

/-- A session with two clauses over three variables prints them, and can
still be written out after it was searched and blocked and while a literal
is waiting for its clause to be closed. -/
theorem dumps_what_is_solved_two_clauses :
    Ends
      (fun s host₁ =>
        (∃ text, host₁.console = "" ++ text
          ∧ Dimacs.Renders dumpPieces 3 [[1, -2], [2]] text)
        ∧ (let p := afterTurns UseCall.perform
            [.session (.invoke (-1)), .session (.block none),
              .session (.tell (.addLiteral 5))] ⟨s, host₁⟩
          Dumps ⟨p.object.engine, p.host⟩))
      never
      (Session.create (TableEngine.create Learning.search)
        { vars := 3, verbose := 2 }
        (.list [.list [.int 1, .int (-2)], .list [.int 2]]) .boundless) := by
  have hg := Host.generous_boundless
  have hv : (Value.list [.list [.int 1, .int (-2)],
      .list [.int 2]]).IsClauseSet [[1, -2], [2]] :=
    ⟨_, rfl, .cons ⟨_, rfl, rfl⟩ (.cons ⟨_, rfl, rfl⟩ .nil)⟩
  generalize Value.list [.list [.int 1, .int (-2)],
    .list [.int 2]] = v at hv ⊢
  have hmakes := Session.create_ends hg.plain hg.takesBack Learning.search
    { vars := 3, verbose := 2 } v
  cases hmade : Session.create (TableEngine.create Learning.search)
    { vars := 3, verbose := 2 } v .boundless with
  | error f host₁ =>
      rw [hmade] at hmakes
      exact absurd ⟨_, hv, by unfold InRange; decide⟩ (hmakes.unfit hg)
  | ok s host₁ =>
      obtain ⟨hprints, hdumps⟩ :=
        (dumps_what_is_solved hg.plain Learning.search).2
          { vars := 3, verbose := 2 } v s host₁ hg.takesBack hmade
      obtain ⟨clauses, text, hwrites, hrenders, hconsole⟩ := hprints
      obtain rfl : clauses = [[1, -2], [2]] := hwrites.unique hv
      refine ⟨⟨text, hconsole, hrenders⟩, ?_⟩
      have hworks := Session.working_afterTurns hg.plain hg.takesBack hmade
        [.session (.invoke (-1)), .session (.block none),
          .session (.tell (.addLiteral 5))]
        (by simp [UseCall.Proper, UseCall.ends])
      obtain ⟨_, _, ht⟩ := hworks.tallies
      exact hdumps _ (by simp [UseCall.Proper]) ht.keeps.seated.live

end SatSession
