/-
The engine with tables, held to rules.

The engine turns each refusal into the fault that there is no memory for
the table in question, and does so before anything else depends on the
answer. Every call is therefore in step with itself, whatever state it is
made in: a table that does not have the size that the engine believes it
to have is a fault in both runs. Only the making of an engine has to look
at what is there, since a run that is refused the second table gives the
first one back.

The sizes that are asked for are whole numbers. `addLiteral` and
`reserveVariables` are looked at for such numbers alone, which is all that
sessions hand on; an infinite number would run out of memory without being
refused anything.
-/
import SatSession.Proofs.Refusals.Requests
import SatSession.Engine.Table

namespace SatSession

open Ruled

variable {r : Rules} {may : Prop}

namespace TableEngine

-- ============================================================== the store

/-- Writing asks for nothing, and a byte beyond the block is a fault in both
runs. -/
theorem writeBytes_inStep (b : BlockId) :
    ∀ (bytes : List UInt8) (i : Nat) (heap : Heap),
      InStep may r (writeWord.writeBytes b i bytes) heap
  | [], _, _ => .pure ()
  | byte :: rest, i, _ =>
      (Heap.poke_inStep b i byte).bind fun _ heap' _ =>
        writeBytes_inStep b rest (i + 1) heap'

/-- The block has the same size in both runs, so that a word fits in both
or in neither. -/
theorem writeWord_inStep (b : BlockId) (place : Nat) (n : Int)
    (heap : Heap) : InStep may r (writeWord b place n) heap := by
  by_cases hplace : (place + 1) * Word.width ≤ heap.size b
  · have hplace' : (place + 1) * Word.width ≤ (under r heap).size b :=
      hplace
    refine (writeBytes_inStep b (Word.toBytes n) (place * Word.width)
      heap).congr ?_ ?_
    · rw [writeWord, if_pos hplace]
    · rw [writeWord, if_pos hplace']
  · have hplace' : ¬ (place + 1) * Word.width ≤ (under r heap).size b :=
      hplace
    exact .of_error (if_neg hplace) (if_neg hplace') (by simp) id rfl rfl

/-- Reading looks at the size of the block alone before it begins. -/
theorem readWords_inStep (b : BlockId) (start stop : Nat) (heap : Heap) :
    InStep may r (readWords b start stop) heap := by
  by_cases hstop : stop * Word.width ≤ heap.size b
  · have hstop' : stop * Word.width ≤ (under r heap).size b := hstop
    exact .of_ok (if_pos hstop) (if_pos hstop') id rfl rfl
  · have hstop' : ¬ stop * Word.width ≤ (under r heap).size b := hstop
    exact .of_error (if_neg hstop) (if_neg hstop') (by simp) id rfl rfl

theorem storedWords_inStep (start stop : Nat) (p : Placed TableEngine) :
    InStep may r (storedWords start stop) p := by
  unfold storedWords
  refine .read_bind ?_
  exact (InStep.onHeap (readWords_inStep _ start stop _)).onHost

-- ================================================================ growth

/-- The request of the value table is answered at once: refused, it ends
the run out of memory. -/
theorem ensureCapacity_inStep (needed : Nat) (p : Placed TableEngine) :
    InStep True r (ensureCapacity needed) p := by
  unfold ensureCapacity
  refine .read_bind ?_
  exact Host.growth_inStep _ _ _ _ fun _ => .update

/-- A variable is made to exist, at the cost of one request at most. -/
theorem ensureVariable_inStep (n : Int) (p : Placed TableEngine) :
    InStep True r (ensureVariable (.int n)) p := by
  unfold ensureVariable
  refine .read_bind (.settle_bind fun _ _ => ?_)
  refine .when (fun _ => ?_) fun p' => ?_
  · exact ensureCapacity_inStep n.toNat p
  · refine .settle_bind fun _ _ => .ite (fun _ => ?_) fun _ => .pure ()
    exact .update

theorem checkLive_inStep (p : Placed TableEngine) :
    InStep may r checkLive p := by
  unfold checkLive
  exact .read_bind (.ite (fun _ => .throw (by simp)) fun _ => .pure ())

/-- The store asks before anything is written to it, so that a refusal
finds both runs with the same words. -/
theorem push_inStep (n : Int) (p : Placed TableEngine) :
    InStep True r (push (.int n)) p := by
  have hstore : ∀ (e : TableEngine) (p : Placed TableEngine),
      InStep True r (do
        Op.onHost (Host.onHeap (writeWord e.store e.stored n))
        Op.update fun e => { e with stored := e.stored + 1 }) p :=
    fun e p => (InStep.onHeap (writeWord_inStep _ _ n _)).onHost.bind
      fun _ _ _ => .update
  unfold push
  refine .read_bind (.ite (fun _ => ?_) fun _ => hstore p.object p)
  exact Host.growth_inStep _ _ _ _ fun _ =>
    .update_bind (hstore p.object _)

-- ============================================================== the calls

theorem reserveVariables_inStep (n : Int) (p : Placed TableEngine) :
    InStep True r (reserveVariables (.int n)) p :=
  (checkLive_inStep p).bind fun _ p' _ => ensureVariable_inStep n p'

/-- Closing a clause can run out of memory for its terminator and for
nothing else. -/
theorem terminateClause_inStep (p : Placed TableEngine) :
    InStep True r terminateClause p := by
  unfold terminateClause
  refine (checkLive_inStep p).bind fun _ p' _ => .read_bind ?_
  refine (storedWords_inStep _ _ p').bind fun _ p' _ => ?_
  exact (push_inStep 0 p').bind fun _ _ _ => .update

/-- A literal may ask twice, for its variable and for its word, and either
refusal ends the run. -/
theorem addLiteral_inStep (l : Int) (p : Placed TableEngine) :
    InStep True r (addLiteral (.int l)) p := by
  unfold addLiteral
  refine (checkLive_inStep p).bind fun _ p' _ => .settle_bind fun _ _ => ?_
  refine .ite (fun _ => terminateClause_inStep p') fun _ => ?_
  refine .settle_bind fun magnitude hmagnitude => .settle_bind fun _ _ => ?_
  obtain rfl : Value.int l.natAbs = magnitude := Except.ok.inj hmagnitude
  refine .ite (fun _ => .throw (by simp)) fun _ => ?_
  exact (ensureVariable_inStep _ p').bind fun _ p' _ => push_inStep l p'

/-- An assignment is shown in a table that is there already. -/
theorem loadModel_inStep (a : Assignment) (p : Placed TableEngine) :
    InStep may r (loadModel a) p := by
  unfold loadModel
  refine .read_bind ?_
  refine (InStep.onHeap ?_).onHost.bind fun _ _ _ => .update
  exact .each (fun i heap => Heap.poke_inStep _ i _) _ _ _

/-- The search is given the same problem in both runs and knows nothing of
memory. -/
theorem check_inStep (limit : Nat) (p : Placed TableEngine) :
    InStep may r (check limit) p := by
  unfold check
  refine .read_bind (.update_bind ?_)
  cases p.object.search p.object.searches
      ⟨p.object.asserted.toList, p.object.varCount, limit⟩ with
  | sat a => exact (loadModel_inStep a _).bind fun _ _ _ => .pure _
  | unsat => exact .update_bind (.pure _)
  | unknown => exact .update_bind (.pure _)

/-- A limit that the search does not take is no lack of memory. -/
theorem searchLimit_sober {limit : Option Value} {f : Fault}
    (h : searchLimit limit = .error f) (use : MemoryUse) :
    f ≠ .outOfMemory use := by
  unfold searchLimit at h
  split at h <;> cases h
  simp

/-- A search asks for no memory of the host. -/
theorem solve_inStep (budget : Value) (p : Placed TableEngine) :
    InStep may r (solve budget) p := by
  unfold solve
  refine (checkLive_inStep p).bind fun _ p' _ => ?_
  refine .read_bind (.settle_bind fun limit _ => ?_)
  cases hlimit : searchLimit limit with
  | error f => exact .throw (searchLimit_sober hlimit)
  | ok limit =>
      refine (check_inStep limit p').bind fun _ p' _ => ?_
      refine .read_bind (.settle_bind fun _ _ => ?_)
      refine .ite (fun _ => ?_) fun _ => .pure _
      exact (Host.note_inStep _).onHost.bind fun _ _ _ => .pure _

/-- A value is read off the table, with the bytes that both runs have in
it. -/
theorem valueOf_inStep (index : Value) (p : Placed TableEngine) :
    InStep may r (valueOf index) p := by
  unfold valueOf
  refine .read_bind (.ite (fun _ => .throw (by simp)) fun _ => ?_)
  refine .settle_bind fun _ _ => .ite
    (fun _ => InStep.settle.bind fun inRange p' _ => ?_)
    fun _ => (InStep.pure false).bind fun inRange p' _ => ?_
  -- the variable is in range or not, and then its byte is read
  all_goals
    refine .ite (fun _ => .throw (by simp)) fun _ => ?_
    cases index.whole? with
    | none => exact .throw (by simp)
    | some i =>
        refine .get_bind rfl ?_
        cases p'.host.heap.byte? p.object.values i.toNat with
        | none => exact .throw (by simp)
        | some byte => exact .pure _

theorem variableCount_inStep (p : Placed TableEngine) :
    InStep may r Engine.variableCount p := .read_bind (.pure _)

/-- The clauses are read back from a store that holds the same in both
runs. -/
theorem clauses_inStep (p : Placed TableEngine) :
    InStep may r clauses p := by
  unfold clauses
  refine .read_bind (.ite (fun _ => .throw (by simp)) fun _ => ?_)
  exact (storedWords_inStep _ _ p).bind fun _ _ _ => .pure _

theorem writeProblem_inStep (p : Placed TableEngine) :
    InStep may r writeProblem p :=
  (clauses_inStep p).bind fun _ _ _ => .read_bind (.pure _)

/-- Both tables are given back in both runs, with the sizes that the engine
remembers. -/
theorem reset_inStep (p : Placed TableEngine) :
    InStep may r reset p := by
  unfold reset
  refine .read_bind (.ite (fun _ => ?_) fun _ => .pure ())
  refine (Host.free_inStep _ _).onHost.bind fun _ p' _ => ?_
  refine (Host.free_inStep _ _).onHost.bind fun _ p' _ => ?_
  exact .update_bind (Host.note_inStep _).onHost

-- ========================================================== construction

/-- Making an engine. A run that is refused the second table gives the
first one back. -/
theorem create_inStep (search : Search) (host : Host) :
    InStep True r (create search) host := by
  intro hs
  have hs : host.Generous := hs
  unfold create
  refine Asks.demand (Host.alloc_asks _) ?_ ?_ hs
  · intro q _
    exact ⟨⟨.valueTable, rfl⟩, Nat.le_refl _⟩
  intro values host₁ hvalues hgranted
  cases values with
  | none => exact absurd rfl hgranted
  | some values =>
      intro hs₁
      have hs₁ : host₁.Generous := hs₁
      refine Asks.demand (Host.alloc_asks _) ?_ ?_ hs₁
      · intro q hq
        obtain ⟨hfirst, rfl⟩ := hs.of_alloc hvalues
        obtain rfl := Option.some.inj hfirst
        obtain rfl := (hs₁.plain_under r).of_alloc_none hq
        have hp := hs₁.plain_under r
        have hp' : (under r (host.given _)).asked.Plain :=
          ⟨hp.1, hp.2, hp.3⟩
        have hfree := Host.free_eq hp' (hs₁.takesBack_under r)
          ((Heap.size_granted ..).trans (if_pos rfl))
        show Ends _ _ ((Host.free host.heap.blocks.size
          (.int (valueBytes initialCapacity)) >>= fun _ =>
            throw (.outOfMemory .clauseStore)) _)
        rw [bind_of_ok hfree]
        exact ⟨⟨.clauseStore, rfl⟩, Nat.le_refl _⟩
      · intro store host₂ _ hgranted
        cases store with
        | none => exact absurd rfl hgranted
        | some store => exact .pure _

end TableEngine

end SatSession
