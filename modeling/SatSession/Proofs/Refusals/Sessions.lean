/-
Sessions and cursors, held to rules.

A fault goes on through a session as it came. Two places release something
first, and there the release must succeed in the run that was refused
memory, or its own fault would hide the refusal: an engine that could not
be loaded is reset (`prepare_inStep`), and a cursor that could not advance
is closed (`next_inStep`). Both times it is what the run held to the rules
still owns that says so, and that is known of the state before the call.
-/
import SatSession.Proofs.Refusals.Tables
import SatSession.Proofs.Cursors.Advancing
import SatSession.Proofs.Sessions.Restoring

namespace SatSession

open Ruled TableEngine

variable {r : Rules} {may : Prop}

namespace Session

variable {α : Type}

-- ============================================================ invocations

/-- What the engine does in step, the session that owns it does in step. -/
theorem onEngine_inStep {op : Op TableEngine α}
    {p : Placed (Session TableEngine)}
    (h : InStep may r op ⟨p.object.engine, p.host⟩) :
    InStep may r (onEngine op) p := .within h

/-- An invocation asks for nothing besides its search. -/
theorem invoke_inStep (budget : Value) (p : Placed (Session TableEngine)) :
    InStep may r (invoke budget) p := by
  unfold invoke
  refine .read_bind (.ite (fun _ => .throw (by simp)) fun _ => ?_)
  refine (onEngine_inStep (solve_inStep budget _)).bind fun code p' _ => ?_
  refine .update_bind ?_
  cases Outcome.ofCode code with
  | error _ => exact .update_bind (.throw (by simp))
  | ok outcome =>
      refine .update_bind (.read_bind ?_)
      exact (Host.note_inStep _).onHost.bind fun _ _ _ => .pure _

/-- The guard looks at what the session remembers, which is the same in
both runs. -/
theorem requireModel_inStep (p : Placed (Session TableEngine)) :
    InStep may r requireModel p := by
  unfold requireModel
  refine .read_bind (.ite (fun _ => .throw (by simp)) fun _ => ?_)
  exact .ite (fun _ => .throw (by simp)) fun _ => .pure ()

/-- A session is destroyed for good in both runs, even if the reset
fails. -/
theorem destroy_inStep (p : Placed (Session TableEngine)) :
    InStep may r destroy p := by
  unfold destroy
  refine .read_bind (.ite (fun _ => .pure ()) fun _ => .update_bind ?_)
  refine (onEngine_inStep (reset_inStep _)).bind fun _ p' _ => ?_
  exact .read_bind (Host.note_inStep _).onHost

-- ================================================================ opening

/-- A clause is handed over literal by literal, up to the first refusal. -/
theorem loadClause_inStep (literals : List Int) (p : Placed TableEngine) :
    InStep True r (loadClause literals) p :=
  (InStep.forM (fun l p => addLiteral_inStep l p) literals p).bind
    fun _ p' _ => terminateClause_inStep p'

/-- A clause that is none fails before the engine is told of it. -/
theorem loadNext_inStep (count : Nat) (clause : Value)
    (p : Placed TableEngine) : InStep True r (loadNext count clause) p := by
  unfold loadNext
  cases hvalid : Clause.validate clause (.int count) with
  | error f =>
      exact .throw (Clause.validate_objects _ _ f hvalid).ne_outOfMemory
  | ok literals =>
      exact (loadClause_inStep literals p).bind fun _ _ _ => .pure _

/-- The clauses are handed over one by one, up to the first refusal. -/
theorem loadClauses_inStep (v : Value) (p : Placed TableEngine) :
    InStep True r (loadClauses v) p := by
  unfold loadClauses
  cases v.sequence? with
  | none => exact .throw (by simp)
  | some items =>
      show InStep True r (items.foldlM loadNext 0) p
      rw [Items.foldlM_eq]
      exact .foldlM loadNext_inStep _ 0 p

/-- Settings and clauses are handed over up to the first refusal; what a
session prints, both runs print. -/
theorem load_inStep (config : Config) (v : Value) (p : Placed TableEngine) :
    InStep True r (load config v) p := by
  unfold load
  refine InStep.update.bind fun _ p' _ => ?_
  refine .when (fun _ => reserveVariables_inStep config.vars p')
    fun p' => ?_
  refine .when (fun _ => .update) fun p' => ?_
  refine (loadClauses_inStep v p').bind fun count p' _ => ?_
  refine .ite (fun _ => ?_) fun _ => .pure _
  refine (writeProblem_inStep p').bind fun text p' _ => ?_
  exact (Host.print_inStep text).onHost.bind fun _ _ _ => .pure _

/-- A fresh engine is made ready, or gives its tables back, in either
run. -/
theorem prepare_inStep {e : TableEngine} {host : Host}
    (hk : Keeps {} e host.heap) (hvars : e.varCount = 0)
    (hset : Settings e 0 0) (config : Config) (v : Value) :
    InStep True r (prepare config v) ⟨e, host⟩ := by
  intro hs
  have hs : host.Generous := hs
  have hk' : Keeps {} e (under r host).heap :=
    { hk with seated := { hk.seated with } }
  unfold prepare
  refine InStep.bind (.orRelease (load_inStep config v _) reset_inStep
    fun _ => ?_) (fun count p' _ => ?_) hs
  · refine (load_ends (hs.plain_under r) hk' hvars hset config v).imp
      (fun _ _ _ => trivial) ?_
    intro f q hspoiled
    have hrules := hspoiled.moved.within.rules
    have hreset := reset_eq ((hs.plain_under r).of_sameRules hrules)
      ((hs.takesBack_under r).of_sameRules hrules) hspoiled.seated
    show Ends _ _ (TableEngine.reset q)
    rw [hreset]
    exact Nat.le_refl _
  · refine (variableCount_inStep p').bind fun n p' hn => ?_
    -- the count is a whole number, which no reader objects to
    obtain ⟨m, rfl⟩ : ∃ m, n = .int m := by
      cases hn
      exact ⟨_, rfl⟩
    rw [Host.noteCreated_int]
    exact (Host.note_inStep _).onHost

/-- A session is made in both runs, or the ruled one has given back what it
took. -/
theorem create_inStep (search : Search) (config : Config) (v : Value)
    (host : Host) :
    InStep True r (create (TableEngine.create search) config v) host := by
  intro hs
  have hs : host.Generous := hs
  unfold create
  refine InStep.bind (TableEngine.create_inStep search host)
    (fun e host₁ hrun => ?_) hs
  have hmade := TableEngine.create_ends hs.plain search
  rw [hrun] at hmade
  obtain ⟨⟨values, store, hobject⟩, hkeeps, hholding, -⟩ := hmade
  have hvars : e.varCount = 0 := by rw [hobject]; rfl
  have hset : Settings e 0 0 := by rw [hobject]; exact ⟨rfl, rfl⟩
  exact (prepare_inStep hkeeps hvars hset config v).on.bind
    fun _ _ _ => .pure _

-- ============================================================== solutions

/-- An answer that is no polarity is a fault of its own. -/
theorem polarity_inStep (index : Nat) (p : Placed (Session TableEngine)) :
    InStep may r (polarity index) p := by
  unfold polarity
  refine (onEngine_inStep (valueOf_inStep _ _)).bind fun v p' _ => ?_
  refine .settle_bind fun _ _ => .ite (fun _ => .pure v) fun _ => ?_
  refine .settle_bind fun _ _ => .ite (fun _ => .pure v) fun _ => ?_
  exact .throw (by simp)

theorem variablesBelow_inStep (bound : Value)
    (p : Placed (Session TableEngine)) :
    InStep may r (variablesBelow bound) p := by
  unfold variablesBelow
  cases bound.whole? with
  | some n => exact .pure _
  | none => exact .throw (by simp)

/-- A solution is read with questions only. -/
theorem decode_inStep (p : Placed (Session TableEngine)) :
    InStep may r decode p := by
  unfold decode
  refine (requireModel_inStep p).bind fun _ p' _ => ?_
  refine (onEngine_inStep (variableCount_inStep _)).bind
    fun n p' _ => .settle_bind fun bound _ => ?_
  refine (variablesBelow_inStep bound p').bind fun count p' _ => ?_
  refine .collect (fun index p => ?_) count 1 p'
  exact (polarity_inStep index p).bind fun _ _ _ => .settle

/-- The scratch block is asked for once, anew or for another size, and a
refusal is reported before it is used. -/
theorem scratchFor_inStep (scratch : Option BlockId) (n : Nat)
    (p : Placed (Session TableEngine)) :
    InStep True r (scratchFor scratch (.int n)) p := by
  unfold scratchFor
  cases scratch with
  | none =>
      refine (Host.alloc_asks n).onHost.demand ?_ ?_
      · intro q _
        exact ⟨⟨.blockingBuffer, rfl⟩, Nat.le_refl _⟩
      · intro b p' _ hgranted
        cases b with
        | none => exact absurd rfl hgranted
        | some b => exact .pure b
  | some b =>
      refine .get_bind rfl (.settle_bind fun _ _ => ?_)
      refine .ite (fun _ => ?_) fun _ => .pure b
      exact Host.growth_inStep b _ n _ fun _ => .pure b

/-- A polarity is noted in a block that is there. -/
theorem notePolarity_inStep (scratch : BlockId) (index : Nat)
    (p : Placed (Session TableEngine)) :
    InStep may r (notePolarity scratch index) p := by
  unfold notePolarity
  refine (polarity_inStep index p).bind fun v p' _ => ?_
  refine .settle_bind fun _ _ => ?_
  exact (InStep.onHeap (Heap.poke_inStep scratch index _)).onHost

/-- Each literal of the blocking clause may be refused its place in the
engine. -/
theorem addOpposite_inStep (scratch : BlockId) (index : Nat)
    (p : Placed (Session TableEngine)) :
    InStep True r (addOpposite scratch index) p := by
  unfold addOpposite
  refine .get_bind rfl ?_
  cases p.host.heap.byte? scratch index with
  | none => exact .throw (by simp)
  | some byte => exact onEngine_inStep (addLiteral_inStep _ _)

/-- Blocking runs out of memory for the scratch block or for the clause. -/
theorem block_inStep (scratch : Option BlockId)
    (p : Placed (Session TableEngine)) :
    InStep True r (block scratch) p := by
  unfold block
  refine (requireModel_inStep p).bind fun _ p' _ => ?_
  refine (onEngine_inStep (variableCount_inStep _)).bind
    fun n p'' hn => .settle_bind fun bytes hbytes => ?_
  obtain rfl : Value.int p'.object.engine.varCount = n :=
    (EStateM.Result.ok.inj hn).1
  obtain rfl : Value.int (p'.object.engine.varCount + 1 : Nat) = bytes :=
    Except.ok.inj hbytes
  refine (scratchFor_inStep scratch _ p'').bind fun buffer p' _ => ?_
  refine (variablesBelow_inStep _ p').bind fun count p' _ => ?_
  refine (InStep.each (notePolarity_inStep buffer) count 1 p').bind
    fun _ p' _ => ?_
  refine (InStep.each (addOpposite_inStep buffer) count 1 p').bind
    fun _ p' _ => ?_
  refine (onEngine_inStep (terminateClause_inStep _)).bind fun _ _ _ => ?_
  exact .pure buffer

-- ================================================================ one call

/-- Once everything is loaded, one search and one solution ask for
nothing. -/
theorem answer_inStep (p : Placed (Session TableEngine)) :
    InStep may r Session.answer p := by
  unfold Session.answer
  refine (invoke_inStep _ p).bind fun outcome p' _ => ?_
  cases outcome with
  | satisfiable => exact (decode_inStep p').bind fun _ _ _ => .pure _
  | unsatisfiable => exact .pure _
  | unknown => exact .pure _

/-- The answer has no part in the end of the session, which comes in either
case and asks for nothing. -/
theorem answerAndDestroy_inStep (p : Placed (Session TableEngine)) :
    InStep False r answerAndDestroy p := by
  unfold answerAndDestroy
  refine (InStep.orRelease (answer_inStep p) destroy_inStep
    False.elim).bind fun answer p' _ => ?_
  exact (destroy_inStep p').bind fun _ _ _ => .pure answer

end Session

-- ================================================================ cursors

/-- Settings are checked before anything is asked for. -/
theorem checkedConfig_inStep (vars verbose propLimit : Value)
    (host : Host) :
    InStep may r (checkedConfig vars verbose propLimit) host := by
  unfold checkedConfig
  cases hbuild : Config.build vars verbose propLimit with
  | ok config => exact .pure config
  | error f =>
      exact .throw (Config.build_objects _ _ _ f hbuild).ne_outOfMemory

/-- Solving asks for nothing more once the session is made. -/
theorem solve_inStep (search : Search)
    (v vars verbose propLimit : Value) (host : Host) :
    InStep True r
      (solve (TableEngine.create search) v vars verbose propLimit)
      host := by
  unfold solve
  refine (checkedConfig_inStep _ _ _ host).bind fun config host' _ => ?_
  refine (Session.create_inStep search config v host').bind
    fun s host' _ => ?_
  refine (InStep.on ?_).bind fun _ _ _ => .pure _
  exact (Session.answerAndDestroy_inStep _).mono False.elim

namespace Cursor

variable {α : Type}

/-- Making a cursor asks for nothing besides its session. -/
theorem enumerate_inStep (search : Search)
    (v vars verbose propLimit : Value) (host : Host) :
    InStep True r
      (enumerate (TableEngine.create search) v vars verbose propLimit)
      host := by
  unfold enumerate
  refine (checkedConfig_inStep _ _ _ host).bind fun config host' _ => ?_
  exact (Session.create_inStep search config v host').bind
    fun _ _ _ => .pure _

/-- What the session does in step, the cursor that owns it does in step. -/
theorem onSession_inStep {op : Op (Session TableEngine) α}
    {p : Placed (Cursor TableEngine)}
    (h : InStep may r op ⟨p.object.session, p.host⟩) :
    InStep may r (onSession op) p := .within h

/-- A scratch block that is held is given back, one that is not is not
missed. -/
theorem releaseScratch_inStep (p : Placed (Cursor TableEngine)) :
    InStep may r releaseScratch p := by
  unfold releaseScratch
  refine .read_bind ?_
  cases p.object.scratch with
  | none => exact .pure ()
  | some b =>
      exact .update_bind (.get_bind rfl (Host.free_inStep b _).onHost)

/-- Closing asks for nothing, and destroys the session whatever becomes of
the scratch block. -/
theorem close_inStep (p : Placed (Cursor TableEngine)) :
    InStep False r close p := by
  unfold close
  refine .read_bind (.ite (fun _ => .pure ()) fun _ => .update_bind ?_)
  exact .thenAlways (releaseScratch_inStep _) fun p =>
    onSession_inStep (Session.destroy_inStep _)

/-- An advance searches, reads and blocks; only the blocking may be refused
memory. -/
theorem advance_inStep (p : Placed (Cursor TableEngine)) :
    InStep True r advance p := by
  unfold advance
  refine (onSession_inStep (Session.invoke_inStep _ _)).bind
    fun outcome p' _ => .ite (fun _ => ?_) fun _ => .pure _
  refine (onSession_inStep (Session.decode_inStep _)).bind
    fun solution p' _ => .read_bind ?_
  refine (onSession_inStep (Session.block_inStep _ _)).bind
    fun buffer p' _ => .update_bind (.pure _)

variable {search : Search} {limit : Int} {n : Nat}
  {base host : Host} {c : Cursor TableEngine}

/-- A cursor that is closed, or that runs. -/
def InUse (search : Search) (limit : Int) (n : Nat) (base : Host)
    (c : Cursor TableEngine) (host : Host) : Prop :=
  c.closed = true ∨ ∃ clauses, Running search limit n clauses base c host

/-- An advance leaves a cursor that is closed, or that runs. -/
theorem InUse.next (h : InUse search limit n base c host) :
    InUse search limit n base (endOf (Cursor.next ⟨c, host⟩)).object
      (endOf (Cursor.next ⟨c, host⟩)).host := by
  rcases h with hclosed | ⟨clauses, hrunning⟩
  · rw [next_closed hclosed]
    exact Or.inl hclosed
  · have hnext : Ends
        (fun _ q => InUse search limit n base q.object q.host)
        (fun _ q => InUse search limit n base q.object q.host)
        (Cursor.next ⟨c, host⟩) := by
      refine (next_ends hrunning).imp ?_ ?_
      · intro _ q hpost
        rcases hpost with ⟨literals, -, hproduced⟩ | ⟨-, hfinished⟩
        · obtain ⟨a, -, -, hrunning'⟩ := hproduced.found
          exact Or.inr ⟨_, hrunning'⟩
        · exact Or.inl hfinished.closed
      · intro _ q hfailed
        exact Or.inl hfailed.closed
    cases hrun : Cursor.next (⟨c, host⟩ : Placed (Cursor TableEngine)) with
    | ok a q =>
        rw [hrun] at hnext
        exact hnext
    | error f q =>
        rw [hrun] at hnext
        exact hnext

/-- An advance that is refused something has closed the cursor. -/
theorem next_inStep {p : Placed (Cursor TableEngine)}
    (h : InUse search limit n base p.object (under r p.host)) :
    InStep True r next p := by
  unfold next
  refine .read_bind (.ite (fun _ => .pure none) fun hopen => ?_)
  refine InStep.bind (.orRelease (advance_inStep _)
    (fun p => (close_inStep p).mono False.elim) fun _ => ?_)
    fun found p' _ => ?_
  · rcases h with hclosed | ⟨clauses, hrunning⟩
    · simp [hclosed] at hopen
    · refine (advance_ends hrunning).imp (fun _ _ _ => trivial) ?_
      intro f q hstuck
      obtain ⟨lost, -, hclosable⟩ := hstuck.lost
      refine (close_ends hclosable).imp_ok ?_
      intro _ q' hclosed
      exact Nat.le_of_eq hclosed.requests.symm
  · obtain ⟨outcome, solution⟩ := found
    cases solution with
    | some solution => exact .pure _
    | none =>
        refine .read_bind ?_
        refine (Host.note_inStep _).onHost.bind fun _ p' _ => ?_
        refine .update_bind ?_
        refine ((close_inStep _).mono False.elim).bind fun _ _ _ => ?_
        exact .pure none

end Cursor

end SatSession
