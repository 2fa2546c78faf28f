/-
Opening a session over an engine with tables.

A session is opened with all clauses loaded and nothing else in the
tables, or it is not opened and the host has its memory back
(`create_ends`). The second needs a cause: the host denied something, or
the clauses are not well-formed. The work is in `load_ends`; what
remains is the guard around it and the two notes on the host.
-/
import SatSession.Proofs.Tables.Loading

namespace SatSession

open TableEngine

variable {e : TableEngine} {host : Host} {p : Placed TableEngine}

/-- The number of variables of a problem: those asked for, or as many as
the literals name if these are more. -/
def variablesOf (vars : Int) (clauses : List (List Int)) : Nat :=
  max vars.toNat (largest clauses)

namespace Session

/-- An engine set up by some settings, with clauses loaded. -/
structure Ready (config : Config) (clauses : List (List Int))
    (e : TableEngine) (host : Host) (p : Placed TableEngine) : Prop where
  keeps : Keeps { closed := clauses } p.object p.host.heap
  moved : Moved e host p
  settings : Settings p.object config.verbose config.propLimit
  vars : p.object.varCount = variablesOf config.vars clauses

-- ============================================================= loading

/-- Setting the number of variables, if one is asked for. -/
theorem reserve_ends (hp : host.Plain) (hk : Keeps {} e host.heap)
    (hvars : e.varCount = 0) (vars : Int) (fit : Prop) :
    Ends (fun _ p => Keeps {} p.object p.host.heap ∧ Onward e host p
          ∧ p.object.varCount = vars.toNat)
      (Spoiled fit e host)
      ((if vars ≠ -1 then Engine.reserveVariables (.int vars) else pure ()
        : Op TableEngine Unit) ⟨e, host⟩) := by
  split
  next =>
    refine (reserveVariables_ends hp hk.seated vars).imp ?_ ?_
    · intro _ p hq
      refine ⟨hk.ensured hq, hq.onward, ?_⟩
      rw [hq.object]
      show max e.varCount vars.toNat = _
      rw [hvars, Nat.zero_max]
    · intro f p hq
      exact hq.spoiled hk.seated fit
  next hdefault =>
    refine ⟨hk, .refl e host, ?_⟩
    rw [hvars, not_not.mp hdefault]
    rfl

/-- Setting the limit, if one is asked for. -/
theorem setLimit_eq (hlimit : e.propagationLimit = .int 0) (limit : Int) :
    (if limit ≠ 0 then Engine.setPropagationLimit (.int limit) else pure ()
      : Op TableEngine Unit) ⟨e, host⟩
      = .ok () ⟨{ e with propagationLimit := .int limit }, host⟩ := by
  split
  next => rfl
  next hdefault =>
    rw [not_not.mp hdefault, ← hlimit]
    rfl

/-- Writing the problem out, if that is asked for, changes the console
alone. -/
theorem printProblem_ends {d : Draft} (hk : Keeps d e host.heap)
    (verbose : Int) (count : Nat) :
    Ends (fun n p => n = count ∧ ∃ console,
          p = ⟨e, { host with console := console }⟩)
      never
      ((if 2 ≤ verbose then do
          let text ← Engine.writeProblem
          Op.onHost (Host.print text)
          return count
        else return count : Op TableEngine Nat) ⟨e, host⟩) := by
  split
  next =>
    rw [ends_bind]
    show Ends _ _ (TableEngine.writeProblem ⟨e, host⟩)
    rw [hk.writeProblem_eq]
    exact ⟨rfl, _, rfl⟩
  next => exact ⟨rfl, host.console, rfl⟩

/-- A fresh engine is set up and the clauses are loaded, or it is
spoiled. -/
theorem load_ends (hp : host.Plain) (hk : Keeps {} e host.heap)
    (hvars : e.varCount = 0) (hset : Settings e 0 0) (config : Config)
    (v : Value) :
    Ends (fun count p => ∃ cs, v.IsClauseSet cs ∧ count = cs.length
          ∧ Ready config cs e host p)
      (Spoiled v.WellFormed e host)
      ((load config v : Op TableEngine Nat) ⟨e, host⟩) := by
  -- the engine after each of the three settings
  let e₁ : TableEngine := { e with verbosity := .int config.verbose }
  have hs := hk.seated
  have hk₁ : Keeps {} e₁ host.heap := { hk with seated := { hs with } }
  have hmoved₁ : Moved e host ⟨e₁, host⟩ := moved_set ..
  unfold load
  dsimp only
  rw [ends_bind]
  change Ends _ _ ((if config.vars ≠ -1 then _ else _ : Op TableEngine Nat)
    ⟨e₁, host⟩)
  rw [ends_when]
  refine (reserve_ends hp hk₁ hvars config.vars v.WellFormed).imp ?_ ?_
  · intro _ p hpost
    obtain ⟨e₂, host₂⟩ := p
    obtain ⟨hk₂, hon₂, hcount₂⟩ := hpost
    have hmoved₂ := hmoved₁.trans hon₂.toMoved
    let e₃ : TableEngine :=
      { e₂ with propagationLimit := .int config.propLimit }
    have hs₂ := hk₂.seated
    have hk₃ : Keeps {} e₃ host₂.heap := { hk₂ with seated := { hs₂ with } }
    have hmoved₃ : Moved e host ⟨e₃, host₂⟩ :=
      hmoved₂.trans (moved_set ..)
    have hset₃ : Settings e₃ config.verbose config.propLimit :=
      ⟨hon₂.verbosity, rfl⟩
    rw [ends_when, setLimit_eq (hon₂.limit.trans hset.limit), ends_ok,
      ends_bind]
    have hp₃ := hp.of_sameRules hmoved₃.within.rules
    refine (loadClauses_ends hp₃ hk₃ v).imp ?_ ?_
    · intro count p hpost
      obtain ⟨e₄, host₄⟩ := p
      obtain ⟨cs, hcs, rfl, hloaded⟩ := hpost
      have hmoved₄ := hmoved₃.trans hloaded.onward.toMoved
      refine (printProblem_ends hloaded.keeps config.verbose _).imp_ok ?_
      intro n p hpost
      obtain ⟨rfl, console, rfl⟩ := hpost
      have hw := Host.within_print e.tables host₄ console
      refine ⟨cs, hcs, rfl, hloaded.keeps, hmoved₄.onHost hw,
        hloaded.onward.settings hset₃, ?_⟩
      have hvars₄ : e₄.varCount = max e₂.varCount (largest cs) :=
        hloaded.vars
      rw [hvars₄, hcount₂]
      rfl
    · intro f p hspoiled
      exact hspoiled.after hmoved₃ id
  · intro f p hspoiled
    exact hspoiled.after hmoved₁ id

-- ============================================================ preparing

/-- An engine that was given up and has given its tables back. -/
structure GivenUp (fit : Prop) (e : TableEngine) (host : Host) (f : Fault)
    (p : Placed TableEngine) : Prop where
  fault : f.Foreseen
  reset : ∃ q, p = ⟨q.object.gone, q.object.tablesBack q.host⟩
    ∧ Moved e host q
  unfit : host.Generous → ¬ fit

/-- An engine with tables answers a whole number, so that nobody objects
to the note of a session. -/
theorem noteCount_eq (count : Nat) (p : Placed TableEngine) :
    (do
      let varCount ← Engine.variableCount
      Op.onHost (Host.noteCreated count varCount)
        : Op TableEngine Unit) p
      = Op.onHost (Host.note
          (.sessionCreated count (.int p.object.varCount))) p := by
  rw [← Host.noteCreated_int]
  rfl

/-- A fresh engine is made ready, or gives its tables back. -/
theorem prepare_ends (hp : host.Plain) (ht : host.TakesBack)
    (hk : Keeps {} e host.heap) (hvars : e.varCount = 0)
    (hset : Settings e 0 0) (config : Config) (v : Value) :
    Ends (fun _ p => ∃ cs, v.IsClauseSet cs ∧ Ready config cs e host p)
      (GivenUp v.WellFormed e host)
      ((prepare config v : Op TableEngine Unit) ⟨e, host⟩) := by
  unfold prepare
  rw [ends_bind, Op.ends_orRelease]
  refine (load_ends hp hk hvars hset config v).imp ?_ ?_
  · intro count p hpost
    obtain ⟨e', host'⟩ := p
    obtain ⟨cs, hcs, rfl, hready⟩ := hpost
    rw [noteCount_eq]
    have hw := Host.within_note
      (e := .sessionCreated cs.length (.int e'.varCount)) e.tables host' rfl
    exact ⟨cs, hcs, hready.keeps, hready.moved.onHost hw, hready.settings,
      hready.vars⟩
  · intro f q hspoiled
    have hrules := hspoiled.moved.within.rules
    have hreset := reset_eq (hp.of_sameRules hrules)
      (ht.of_sameRules hrules) hspoiled.seated
    show Ends _ _ (TableEngine.reset q)
    rw [hreset]
    exact ⟨hspoiled.fault, ⟨q, rfl, hspoiled.moved⟩, hspoiled.unfit⟩

-- ============================================================= creation

/-- A session was opened, and owns its tables. -/
structure Opened (search : Search) (config : Config)
    (clauses : List (List Int)) (host : Host) (s : Session TableEngine)
    (host' : Host) : Prop where
  object : s = { engine := s.engine, config := config }
  keeps : Keeps { closed := clauses } s.engine host'.heap
  search : s.engine.search = search
  settings : Settings s.engine config.verbose config.propLimit
  vars : s.engine.varCount = variablesOf config.vars clauses
  fitted : Fitted s.engine
  holding : Host.Holding s.engine.tables host host'
  answers : host'.answers = host.answers

/-- No session was opened, and no memory is kept. -/
structure NotOpened (fit : Prop) (host : Host) (f : Fault) (host' : Host) :
    Prop where
  fault : f.Foreseen
  holding : Host.Holding [] host host'
  unfit : host.Generous → ¬ fit

/-- A session is opened, or the memory is as it was. -/
theorem create_ends (hp : host.Plain) (ht : host.TakesBack)
    (search : Search) (config : Config) (v : Value) :
    Ends (fun s host' => ∃ cs, v.IsClauseSet cs
          ∧ Opened search config cs host s host')
      (NotOpened v.WellFormed host)
      (create (TableEngine.create search) config v host) := by
  unfold create
  rw [ends_bind]
  refine (TableEngine.create_ends hp search).imp ?_ ?_
  · intro e host₁ hpost
    obtain ⟨⟨values, store, hobject⟩, hkeeps, hholding, hanswers⟩ := hpost
    have hp₁ := hp.of_sameRules hholding.rules
    have ht₁ := ht.of_sameRules hholding.rules
    have hvars : e.varCount = 0 := by rw [hobject]; rfl
    have hset : Settings e 0 0 := by rw [hobject]; exact ⟨rfl, rfl⟩
    have hsearch : e.search = search := by rw [hobject]; rfl
    have hfitted : Fitted e := by rw [hobject]; exact fresh_fitted ..
    rw [ends_bind, Op.ends_on]
    refine (prepare_ends hp₁ ht₁ hkeeps hvars hset config v).imp ?_ ?_
    · intro _ p hpost
      obtain ⟨e', host'⟩ := p
      obtain ⟨cs, hcs, hready⟩ := hpost
      have hmoved := hready.moved
      have htables : e'.tables = e.tables := hmoved.tables
      refine ⟨cs, hcs, rfl, hready.keeps, hmoved.search.trans hsearch,
        hready.settings, hready.vars, hmoved.fitted hfitted, ?_, ?_⟩
      · rw [show ({ engine := e', config := config } :
          Session TableEngine).engine.tables = e.tables from htables]
        exact hholding.within hmoved.within
      · exact hmoved.within.answers.trans hanswers
    · intro f p hpost
      obtain ⟨hfault, ⟨q, rfl, hmoved⟩, hunfit⟩ := hpost
      refine ⟨hfault, ?_, fun hg => hunfit (hg.of_sameRules hholding.rules)⟩
      refine holding_tablesBack ?_
      rw [hmoved.tables, List.append_nil]
      exact hholding.within hmoved.within
  · intro f host' hnot
    have hnot := hnot ht
    refine ⟨?_, hnot.holding, fun hg => absurd hg hnot.denied⟩
    rcases hnot.fault with rfl | rfl
    · trivial
    · trivial

end Session

end SatSession
