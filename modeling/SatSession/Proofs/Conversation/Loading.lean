/-
A session is made of an engine that has been loaded, or the engine is given
up.

What an engine is told until a session is made of it is fixed by the
settings and the clauses (`loadingCalls`); in front of the fault that ends
a loading there is a beginning of these calls and nothing else
(`load_tells`). The guard around the loading then resets the engine, so
that the calls end with a reset and hold no other one (`GivenUp`).

The guard ends before the session is noted, and the note asks the engine
for its number of variables. If the engine fails there, or the reader of
the log objects to its answer (`Uncounted`), it has been loaded completely,
no session is made of it, and it is not reset either (`LeftLoaded`). There
is no other way for this to happen (`Session.created_or_reset`).
-/
import SatSession.Proofs.Conversation.Record
import SatSession.Proofs.ClauseData
import SatSession.Engine.Scripted

namespace SatSession

variable {E α β : Type}

-- =========================================== the calls of a loading

/-- The calls that hand a clause over. -/
def clauseCalls (clause : List Int) : List Call :=
  clause.map (fun l => Call.addLiteral (.int l)) ++ [.terminateClause]

/-- The calls that set an engine up. -/
def settingCalls (config : Config) : List Call :=
  [.setVerbosity (.int config.verbose)]
    ++ (if config.vars ≠ -1 then
        [.reserveVariables (.int config.vars)] else [])
    ++ (if config.propLimit ≠ 0 then
        [.setPropagationLimit (.int config.propLimit)] else [])

/-- The calls that set an engine up and load clauses. -/
def loadingCalls (config : Config) (clauses : List (List Int)) :
    List Call :=
  settingCalls config ++ clauses.flatMap clauseCalls
    ++ (if 2 ≤ config.verbose then [.writeProblem] else [])

/-- Setting up and loading takes neither a search nor a reset. -/
theorem idle_of_mem_loadingCalls {config : Config}
    {clauses : List (List Int)} {c : Call}
    (hmem : c ∈ loadingCalls config clauses) :
    c.isSolve = false ∧ c.isReset = false := by
  simp only [loadingCalls, settingCalls, clauseCalls, List.mem_append,
    List.mem_flatMap, List.mem_map, List.mem_singleton,
    List.mem_ite_nil_right] at hmem
  rcases hmem with (((rfl | ⟨-, rfl⟩) | ⟨-, rfl⟩) | hclause) | ⟨-, rfl⟩
  · exact ⟨rfl, rfl⟩
  · exact ⟨rfl, rfl⟩
  · exact ⟨rfl, rfl⟩
  · obtain ⟨clause, -, ⟨l, -, rfl⟩ | rfl⟩ := hclause
    · exact ⟨rfl, rfl⟩
    · exact ⟨rfl, rfl⟩
  · exact ⟨rfl, rfl⟩

/-- A loading is made of settings, literals and terminators. -/
theorem reset_notMem_loadingCalls (config : Config)
    (clauses : List (List Int)) :
    Call.reset ∉ loadingCalls config clauses := by
  intro hmem
  cases (idle_of_mem_loadingCalls hmem).2

namespace Session

variable [Engine E]

/-- Sets an engine up, the first part of a loading. -/
def setUp (config : Config) : Op E Unit := do
  Engine.setVerbosity (.int config.verbose)
  if config.vars ≠ -1 then Engine.reserveVariables (.int config.vars)
  if config.propLimit ≠ 0 then
    Engine.setPropagationLimit (.int config.propLimit)

/-- Prints the problem if that is wanted, the last part of a loading. -/
def showProblem (config : Config) : Op E Unit := do
  if 2 ≤ config.verbose then
    let text ← Engine.writeProblem
    Op.onHost (Host.print text)

/-- Loading in its parts. -/
theorem load_eq (config : Config) (v : Value) :
    (load config v : Op E Nat) = do
      setUp config
      let count ← loadClauses v
      showProblem config
      return count := by
  unfold load setUp showProblem
  by_cases hvars : config.vars ≠ -1 <;>
    by_cases hlimit : config.propLimit ≠ 0 <;>
    by_cases hverbose : 2 ≤ config.verbose <;>
    simp only [hvars, hlimit, hverbose, if_true, if_false, bind_assoc,
      pure_bind, not_false_eq_true, ne_eq]

end Session

namespace Recorded

-- ======================================================= fixed calls

/-- An operation that makes the given calls, or fails at one of them. -/
def Makes (calls : List Call) (x : Op (Recorded E) α) : Prop :=
  Tells said (fun _ told => told.map Exchange.call = calls)
    (fun _ told => told.map Exchange.call <+: calls) x

namespace Makes

variable {calls more : List Call} {x : Op (Recorded E) α}

theorem pure (a : α) : Makes [] (pure a : Op (Recorded E) α) :=
  Tells.pure rfl

/-- Calls are made one part after the other. -/
theorem bind {f : α → Op (Recorded E) β} (hx : Makes calls x)
    (hf : ∀ a, Makes more (f a)) : Makes (calls ++ more) (x >>= f) := by
  refine Tells.bind hx (fun a told htold => ?_) fun _ told htold => ?_
  · refine (hf a).imp ?_ ?_
    · intro _ rest hrest
      rw [List.map_append, htold, hrest]
    · intro _ rest hrest
      rw [List.map_append, htold]
      exact (List.prefix_append_right_inj calls).mpr hrest
  · exact htold.trans (List.prefix_append calls more)

theorem hear (call : Call) (response : α → Response) (op : Op E α) :
    Makes [call] (hear call response op) := by
  refine hear_tells.imp ?_ ?_
  · rintro a told rfl
    rfl
  · rintro f told rfl
    exact List.prefix_refl _

theorem onHost (op : HostOp α) :
    Makes [] (Op.onHost op : Op (Recorded E) α) := by
  refine (Tells.of_leaves (onHost_leaves_said op)).imp ?_ ?_
  · rintro a told rfl
    rfl
  · rintro f told rfl
    exact List.prefix_refl _

/-- Calls that are made only on a condition. -/
theorem ite {c : Prop} [Decidable c] {x : Op (Recorded E) PUnit}
    (hx : Makes calls x) :
    Makes (if c then calls else []) (if c then x else Pure.pure ⟨⟩) := by
  by_cases hc : c
  · rw [if_pos hc, if_pos hc]
    exact hx
  · rw [if_neg hc, if_neg hc]
    exact pure _

theorem when {c : Prop} [Decidable c] {x : Op (Recorded E) PUnit}
    {k : PUnit → Op (Recorded E) α} (hx : Makes calls x)
    (hk : ∀ u, Makes more (k u)) :
    Makes ((if c then calls else []) ++ more)
      (if c then x >>= k else k ⟨⟩) := by
  by_cases hc : c
  · rw [if_pos hc, if_pos hc]
    exact hx.bind hk
  · rw [if_neg hc, if_neg hc]
    exact hk ⟨⟩

/-- Going through a list makes the calls of all items in order. -/
theorem forM {calls : α → List Call} {f : α → Op (Recorded E) PUnit}
    (hf : ∀ a, Makes (calls a) (f a)) (items : List α) :
    Makes (items.flatMap calls) (items.forM f) := by
  induction items with
  | nil => exact pure _
  | cons a rest ih =>
      rw [List.flatMap_cons]
      exact (hf a).bind fun _ => ih

end Makes

variable [Engine E]

-- ============================================================ loading

/-- A clause is handed over literal by literal and then closed. -/
theorem loadClause_makes (clause : List Int) :
    Makes (clauseCalls clause)
      (loadClause clause : Op (Recorded E) Unit) := by
  have hliterals : Makes (clause.flatMap fun l => [.addLiteral (.int l)])
      (clause.forM fun l =>
        (Engine.addLiteral (.int l) : Op (Recorded E) Unit)) :=
    Makes.forM (fun l => .hear _ _ _) clause
  rw [← List.map_eq_flatMap] at hliterals
  exact hliterals.bind fun _ => .hear _ _ _

/-- A value is loaded as the clause that it writes. -/
theorem loadNext_tells (count : Nat) (v : Value) :
    Tells said (fun _ told => ∃ clause : List Int, v.IsClause clause
        ∧ told.map Exchange.call = clauseCalls clause)
      (fun _ told => ∃ clause : List Int,
        told.map Exchange.call <+: clauseCalls clause)
      (loadNext count v : Op (Recorded E) Nat) := by
  unfold loadNext
  cases hclause : Clause.validate v (.int count) with
  | error f => exact .throw ⟨[], List.nil_prefix⟩
  | ok clause =>
      obtain ⟨hwrites, -⟩ := Clause.validate_iff.mp hclause
      refine Tells.bind (loadClause_makes clause) ?_ ?_
      · intro _ told htold
        refine .pure ⟨clause, hwrites, ?_⟩
        rw [List.append_nil]
        exact htold
      · intro f told htold
        exact ⟨clause, htold⟩

/-- Values are loaded one after the other as the clauses they write. -/
theorem foldlM_loadNext_tells (items : List Value) :
    ∀ count : Nat,
      Tells said (fun _ told => ∃ clauses : List (List Int),
          List.Forall₂ Value.IsClause items clauses
            ∧ told.map Exchange.call = clauses.flatMap clauseCalls)
        (fun _ told => ∃ clauses : List (List Int),
          told.map Exchange.call <+: clauses.flatMap clauseCalls)
        (items.foldlM loadNext count : Op (Recorded E) Nat) := by
  induction items with
  | nil =>
      intro count
      exact .pure ⟨[], .nil, rfl⟩
  | cons v items ih =>
      intro count
      rw [List.foldlM_cons]
      refine Tells.bind (loadNext_tells count v) ?_ ?_
      · intro count' told htold
        obtain ⟨clause, hclause, hcalls⟩ := htold
        refine (ih count').imp ?_ ?_
        · intro _ more hmore
          obtain ⟨clauses, hclauses, hrest⟩ := hmore
          refine ⟨clause :: clauses, .cons hclause hclauses, ?_⟩
          rw [List.map_append, hcalls, hrest, List.flatMap_cons]
        · intro _ more hmore
          obtain ⟨clauses, hrest⟩ := hmore
          refine ⟨clause :: clauses, ?_⟩
          rw [List.map_append, hcalls, List.flatMap_cons]
          exact (List.prefix_append_right_inj _).mpr hrest
      · intro f told htold
        obtain ⟨clause, hcalls⟩ := htold
        refine ⟨[clause], ?_⟩
        simpa using hcalls

/-- All clauses are handed over, or a beginning of what they consist of. -/
theorem loadClauses_tells (v : Value) :
    Tells said (fun _ told => ∃ clauses, v.IsClauseSet clauses
        ∧ told.map Exchange.call = clauses.flatMap clauseCalls)
      (fun _ told => ∃ clauses : List (List Int),
        told.map Exchange.call <+: clauses.flatMap clauseCalls)
      (loadClauses v : Op (Recorded E) Nat) := by
  unfold loadClauses Value.IsClauseSet
  cases v.sequence? with
  | none => exact .throw ⟨[], List.nil_prefix⟩
  | some items =>
      simp only [Items.foldlM_eq, Option.some.injEq, exists_eq_left']
      exact foldlM_loadNext_tells items.toList 0

theorem setUp_makes (config : Config) :
    Makes (settingCalls config)
      (Session.setUp config : Op (Recorded E) Unit) := by
  unfold settingCalls
  rw [List.append_assoc]
  exact .bind (.hear _ _ _) fun _ =>
    .when (.hear _ _ _) fun _ => .ite (.hear _ _ _)

theorem showProblem_makes (config : Config) :
    Makes (if 2 ≤ config.verbose then [.writeProblem] else [])
      (Session.showProblem config : Op (Recorded E) Unit) := by
  refine .ite ?_
  exact .bind (.hear _ _ _) fun text => .onHost _

/-- A loading that succeeds makes all the calls, and one that fails makes
the first of them. -/
theorem load_tells (config : Config) (v : Value) :
    Tells said (fun _ told => ∃ clauses, v.IsClauseSet clauses
        ∧ told.map Exchange.call = loadingCalls config clauses)
      (fun _ told => ∃ clauses : List (List Int),
        told.map Exchange.call <+: loadingCalls config clauses)
      (Session.load config v : Op (Recorded E) Nat) := by
  rw [Session.load_eq]
  refine Tells.bind (setUp_makes config) ?_ ?_
  · intro _ told htold
    refine Tells.bind (loadClauses_tells v) ?_ ?_
    · intro count loaded hloaded
      obtain ⟨clauses, hclauses, hcalls⟩ := hloaded
      have hshow := (showProblem_makes (E := E) config).bind fun _ =>
        Makes.pure count
      rw [List.append_nil] at hshow
      refine hshow.imp ?_ ?_
      · intro _ shown hshown
        refine ⟨clauses, hclauses, ?_⟩
        simp only [List.map_append, htold, hcalls, hshown, loadingCalls,
          List.append_assoc]
      · intro f shown hshown
        refine ⟨clauses, ?_⟩
        simp only [List.map_append, htold, hcalls, loadingCalls,
          List.append_assoc, List.prefix_append_right_inj]
        exact hshown
    · intro f loaded hloaded
      obtain ⟨clauses, hcalls⟩ := hloaded
      refine ⟨clauses, ?_⟩
      simp only [List.map_append, htold, loadingCalls, List.append_assoc,
        List.prefix_append_right_inj]
      exact hcalls.trans (List.prefix_append _ _)
  · intro f told htold
    refine ⟨[], htold.trans ?_⟩
    simp only [loadingCalls, List.append_assoc]
    exact List.prefix_append _ _

end Recorded

-- ========================================================== creation

namespace Recorded

/-- A session is made of this engine: it has been set up, every clause has
been handed over and closed, and it has not been reset. -/
structure Loaded (config : Config) (v : Value) (r : Recorded E) :
    Prop where
  calls : ∃ clauses, v.IsClauseSet clauses
    ∧ r.calls = loadingCalls config clauses ++ [.variableCount]
  unreset : Call.reset ∉ r.calls

/-- The engine is given up: some first calls of a loading have been made,
and then a reset, the only one. -/
structure GivenUp (config : Config) (r : Recorded E) : Prop where
  calls : ∃ early, r.calls = early ++ [.reset] ∧ Call.reset ∉ early
    ∧ ∃ clauses, early <+: loadingCalls config clauses

/-- How the question for the number of variables ends without a session:
the engine fails, or the reader of the log objects to its answer. -/
inductive Uncounted (reader : LogReader) (f : Fault) : Response → Prop
  | failed : Uncounted reader f (.failed f)
  | objected {n : Value} (h : reader.objection? n = some f) :
      Uncounted reader f (.value n)

/-- The engine has been loaded, no session is made of it, and it is not
reset: its variables could not be counted. -/
structure LeftLoaded (config : Config) (v : Value) (f : Fault)
    (p : Placed (Recorded E)) : Prop where
  calls : ∃ clauses, v.IsClauseSet clauses
    ∧ p.object.calls = loadingCalls config clauses ++ [.variableCount]
  uncounted : ∃ response,
    p.object.record.getLast? = some ⟨.variableCount, response⟩
      ∧ Uncounted p.host.reader f response
  unreset : Call.reset ∉ p.object.calls

variable {config : Config} {v : Value} {f : Fault} {r : Recorded E}

/-- No reset is among the calls of a loading and the question for the
variables. -/
theorem reset_notMem_loaded {clauses : List (List Int)}
    (h : r.calls = loadingCalls config clauses ++ [.variableCount]) :
    Call.reset ∉ r.calls := by
  rw [h]
  intro hmem
  rcases List.mem_append.mp hmem with hmem | hmem
  · exact reset_notMem_loadingCalls config clauses hmem
  · simp at hmem

end Recorded

namespace Session

open Recorded

variable {config : Config} {v : Value} [Engine E]

/-- The number of variables is asked for once all clauses are loaded. There
will be a session if the engine answers, whatever it answers, as long as
the reader of the log does not object. -/
theorem count_ends {told : List Exchange} {clauses : List (List Int)}
    (hclauses : v.IsClauseSet clauses)
    (htold : told.map Exchange.call = loadingCalls config clauses)
    {q : Placed (Recorded E)} (hq : q.object.record = told) (count : Nat) :
    Ends (fun _ p => Loaded config v p.object)
      (LeftLoaded config v)
      ((do
        let varCount ← Engine.variableCount
        Op.onHost (Host.noteCreated count varCount) :
          Op (Recorded E) Unit) q) := by
  have hcalls : ∀ (r : Recorded E) response,
      r.record = q.object.record ++ [⟨.variableCount, response⟩] →
        r.calls = loadingCalls config clauses ++ [.variableCount] := by
    intro r response hr
    rw [Recorded.calls, hr, hq, List.map_append, htold]
    rfl
  rw [ends_bind]
  refine hear_ends.imp ?_ ?_
  · intro n p hp
    have hn := hcalls _ _ hp
    rw [Op.ends_onHost]
    refine Host.ends_noteCreated
      ⟨⟨clauses, hclauses, hn⟩, reset_notMem_loaded hn⟩ fun f hf => ?_
    refine ⟨⟨clauses, hclauses, hn⟩, ⟨_, ?_, .objected hf⟩,
      reset_notMem_loaded hn⟩
    rw [hp, List.getLast?_concat]
  · intro f p hp
    have hf := hcalls _ _ hp
    refine ⟨⟨clauses, hclauses, hf⟩, ⟨_, ?_, .failed⟩,
      reset_notMem_loaded hf⟩
    rw [hp, List.getLast?_concat]

/-- What becomes of a fresh engine. -/
theorem prepare_loads {p : Placed (Recorded E)}
    (hfresh : p.object.record = []) :
    Ends (fun _ q => Loaded config v q.object)
      (fun f q => GivenUp config q.object ∨ LeftLoaded config v f q)
      (prepare config v p) := by
  unfold prepare
  rw [ends_bind, Op.ends_orRelease]
  refine (load_tells config v p).imp ?_ ?_
  · intro count q hq
    obtain ⟨told, hrecord, clauses, hclauses, htold⟩ := hq
    rw [said, said, hfresh, List.nil_append] at hrecord
    exact (count_ends hclauses htold hrecord count).imp (fun _ _ h => h)
      fun _ _ h => Or.inr h
  · intro f q hq
    obtain ⟨told, hrecord, clauses, htold⟩ := hq
    rw [said, said, hfresh, List.nil_append] at hrecord
    -- whether or not the reset fails, it is the last call
    have hgiven : ∀ (r : Recorded E) response,
        r.record = q.object.record ++ [⟨.reset, response⟩] →
          GivenUp config r := by
      intro r response hr
      refine ⟨told.map Exchange.call, ?_, fun hmem => ?_, clauses, htold⟩
      · rw [Recorded.calls, hr, hrecord, List.map_append]
        rfl
      · exact reset_notMem_loadingCalls config clauses
          (htold.subset hmem)
    refine hear_ends.imp ?_ ?_
    · intro _ p hp
      exact Or.inl (hgiven _ _ hp)
    · intro g p hp
      exact Or.inl (hgiven _ _ hp)

/-- A session that is created is alive, and its engine is loaded. -/
theorem create_loads (make : HostOp E) (config : Config) (v : Value)
    (host : Host) :
    Ends (fun s _ => s.destroyed = false ∧ Loaded config v s.engine)
      (fun _ _ => True) (create (Recorded.making make) config v host) := by
  unfold create Recorded.making
  rw [ends_bind, ends_bind]
  refine (ends_true (make host)).imp_answer ?_
  intro e host₁ _
  rw [ends_pure, ends_bind, Op.ends_on]
  refine (prepare_loads rfl).imp ?_ fun _ _ _ => trivial
  exact fun _ q hq => ⟨rfl, hq⟩

/-- An engine that has been made is loaded and made into a session, or it
is reset once and at last, or it has been loaded and its variables cannot be
counted. What `create` leaves behind when it fails is only the
host, so that the engine is to be looked at where it fails, in `prepare`. -/
theorem created_or_reset {make : HostOp E} {host host₁ : Host} {e : E}
    (hmake : make host = .ok e host₁) (config : Config) (v : Value) :
    Ends
      (fun _ q =>
        create (Recorded.making make) config v host
            = .ok { engine := q.object, config := config } q.host
          ∧ Loaded config v q.object)
      (fun f q =>
        create (Recorded.making make) config v host = .error f q.host
          ∧ (GivenUp config q.object ∨ LeftLoaded config v f q))
      (prepare config v ⟨{ engine := e }, host₁⟩) := by
  have hmade : Recorded.making make host = .ok { engine := e } host₁ := by
    unfold Recorded.making
    rw [bind_of_ok hmake]
    rfl
  let fresh : Placed (Recorded E) := ⟨{ engine := e }, host₁⟩
  have hloads : Ends (fun _ q => Loaded config v q.object)
      (fun f q => GivenUp config q.object ∨ LeftLoaded config v f q)
      (prepare config v fresh) := prepare_loads rfl
  unfold create
  rw [bind_of_ok hmade]
  cases hrun : prepare config v ⟨({ engine := e } : Recorded E), host₁⟩ with
  | ok u q =>
      rw [hrun] at hloads
      have hon : Op.on ({ engine := e } : Recorded E) (prepare config v)
          host₁ = .ok (u, q.object) q.host := by
        simp only [Op.on, hrun]
      refine ⟨?_, hloads⟩
      rw [bind_of_ok hon]
      rfl
  | error f q =>
      rw [hrun] at hloads
      have hon : Op.on ({ engine := e } : Recorded E) (prepare config v)
          host₁ = .error f q.host := by
        simp only [Op.on, hrun]
      exact ⟨bind_of_error hon, hloads⟩

/-- The second literal is refused: the clause stays open, and the engine is
reset. -/
theorem created_or_reset_refused_literal :
    let engine : Scripted :=
      { script := { failures := [("add_literal", 2)] } }
    let host := Host.new (.open false) none
    let v : Value := .seq .list [.seq .list [.int 1, .int 2]]
    Ends (fun _ _ => False)
      (fun f q =>
        create (Recorded.making (pure engine)) {} v host = .error f q.host
          ∧ q.object.calls.map Call.method
            = ["set_verbosity", "add_literal", "add_literal", "reset"]
          ∧ GivenUp {} q.object)
      (prepare {} v ⟨{ engine := engine }, host⟩) := by
  intro engine host v
  have hmake : (pure engine : HostOp Scripted) host = .ok engine host := rfl
  have hends := created_or_reset hmake {} v
  have hrun : Ends (fun _ _ => False)
      (fun _ q => q.object.calls.map Call.method
        = ["set_verbosity", "add_literal", "add_literal", "reset"])
      (prepare {} v ⟨({ engine := engine } : Recorded Scripted), host⟩) := by
    decide +kernel
  cases hprepare : prepare {} v
      ⟨({ engine := engine } : Recorded Scripted), host⟩ with
  | ok u q =>
      rw [hprepare] at hrun
      exact hrun
  | error f q =>
      rw [hprepare] at hends hrun
      obtain ⟨hcreate, hgiven | hleft⟩ := hends
      · exact ⟨hcreate, hrun, hgiven⟩
      · obtain ⟨clauses, -, hcalls⟩ := hleft.calls
        have hlast : (q.object.calls.map Call.method).getLast?
            = some "variable_count" := by
          rw [hcalls, List.map_append]
          exact List.getLast?_concat
        rw [hrun] at hlast
        simp at hlast

/-- An engine that no session is made of is not always reset: this one
fails when its variables are counted. -/
theorem not_always_reset :
    ¬ ∀ (E : Type) [Engine E] (make : HostOp E) (host host₁ : Host) (e : E),
      make host = .ok e host₁ →
        ∀ (config : Config) (v : Value),
          Ends
            (fun _ q => (∃ clauses, v.IsClauseSet clauses
                ∧ q.object.calls
                  = loadingCalls config clauses ++ [.variableCount])
              ∧ Call.reset ∉ q.object.calls)
            (fun _ q => ∃ early, q.object.calls = early ++ [.reset]
              ∧ Call.reset ∉ early)
            (prepare config v
              ⟨({ engine := e } : Recorded E), host₁⟩) := by
  intro hall
  let engine : Scripted :=
    { script := { failures := [("variable_count", 1)] } }
  let host := Host.new (.open false) none
  let v : Value := .seq .list [.seq .list [.int 1, .int 2]]
  have hends := hall Scripted (pure engine) host host engine rfl {} v
  have hrun : Ends (fun _ _ => False)
      (fun _ q => q.object.calls.map Call.method
        = ["set_verbosity", "add_literal", "add_literal",
          "terminate_clause", "variable_count"])
      (prepare {} v ⟨({ engine := engine } : Recorded Scripted), host⟩) := by
    decide +kernel
  cases hprepare : prepare {} v
      ⟨({ engine := engine } : Recorded Scripted), host⟩ with
  | ok u q =>
      rw [hprepare] at hrun
      exact hrun
  | error f q =>
      rw [hprepare] at hends hrun
      obtain ⟨early, hcalls, -⟩ := hends
      have hlast : (q.object.calls.map Call.method).getLast?
          = some "reset" := by
        rw [hcalls, List.map_append]
        exact List.getLast?_concat
      rw [hrun] at hlast
      simp at hlast

end Session

end SatSession
