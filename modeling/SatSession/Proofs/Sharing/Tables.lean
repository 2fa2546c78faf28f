/-
The engine with tables, in two memories.

Two engines are alike if they differ in nothing but the numbers of their
two blocks, and each of the blocks stands for its counterpart. All that an
engine reads of its memory are the contents of its tables and their sizes,
so that every call ends alike on both sides; what the search is asked and
what it answers are the same outright.

As for engines held to rules, `addLiteral` and `reserveVariables` are
looked at for whole numbers alone, which is all that sessions hand on.
-/
import SatSession.Engine.Table
import SatSession.Proofs.Sharing.Objects

namespace SatSession

variable {places : Places}

/-- Engines that sit in other blocks. -/
instance : Lodger TableEngine where
  Like places e' e := ∃ values store,
    e' = { e with values := values, store := store }
      ∧ Stands places values e.values ∧ Stands places store e.store
  mono hle h := by
    obtain ⟨values, store, heq, hvalues, hstore⟩ := h
    exact ⟨values, store, heq, hvalues.mono hle, hstore.mono hle⟩

namespace TableEngine

-- ============================================================== the store

variable {b own : BlockId}

/-- A byte is written to the block of each side, at the same offset. -/
theorem writeBytes_tuned (hb : Stands places b own) :
    ∀ (bytes : List UInt8) (i : Nat),
      Tuned Agree places (writeWord.writeBytes b i bytes)
        (writeWord.writeBytes own i bytes)
  | [], _ => .answer ()
  | byte :: rest, i =>
      (Heap.poke_tuned hb i byte).then fun _ =>
        writeBytes_tuned hb rest (i + 1)

/-- A test of the size of a block comes out the same in both memories. -/
theorem sized_tuned {α : Type} {x y : HeapOp α} (hb : Stands places b own)
    (size : Nat) (hx : Tuned Agree places x y) :
    Tuned Agree places
      (fun h => if size ≤ h.size b then x h else .error .unstorable h)
      (fun h => if size ≤ h.size own then y h else .error .unstorable h) := by
  intro here s t hle hst
  have hsize : s.size b = t.size own := hst.lodged.size_eq (hb.mono hle)
  show Meet _ _ _ _ (if size ≤ s.size b then x s else _)
    (if size ≤ t.size own then y t else _)
  by_cases hroom : size ≤ s.size b
  · rw [if_pos hroom, if_pos (hsize ▸ hroom)]
    exact hx here s t hle hst
  · rw [if_neg hroom, if_neg (hsize ▸ hroom)]
    exact ⟨rfl, [], .refl hst⟩

/-- A word fits in both blocks or in neither, and is the same bytes in
both. -/
theorem writeWord_tuned (hb : Stands places b own) (place : Nat) (n : Int) :
    Tuned Agree places (writeWord b place n) (writeWord own place n) :=
  sized_tuned hb _ (writeBytes_tuned hb _ _)

/-- Blocks of equal contents show the same words. -/
theorem readWords_tuned (hb : Stands places b own) (start stop : Nat) :
    Tuned Agree places (readWords b start stop)
      (readWords own start stop) := by
  have hread : Tuned Agree places
      (fun h => .ok ((List.range' start (stop - start)).map
        (wordAt (h.contents b))) h : HeapOp (List Int))
      (fun h => .ok ((List.range' start (stop - start)).map
        (wordAt (h.contents own))) h) := by
    intro here s t hle hst
    have hsame := hst.lodged.same b own (hb.mono hle)
    refine ⟨[], ?_, .refl hst⟩
    show List.map (wordAt (s.contents b)) _
      = List.map (wordAt (t.contents own)) _
    exact congrArg (fun block => List.map (wordAt block) _) hsame
  exact sized_tuned hb _ hread

-- ============================================================== the object

/-- A change that leaves the blocks alone and does not look at them. -/
theorem update_tuned {g : TableEngine → TableEngine}
    (hg : ∀ (e : TableEngine) values store,
      g { e with values := values, store := store }
          = { g e with values := values, store := store }
        ∧ (g e).values = e.values ∧ (g e).store = e.store) :
    Tuned Agree places (Op.update g) (Op.update g) := by
  refine .update fun here x y _ hxy => ?_
  obtain ⟨values, store, rfl, hvs, hst⟩ := hxy
  obtain ⟨heq, hvalues, hstore⟩ := hg y values store
  exact ⟨values, store, heq, hvalues ▸ hvs, hstore ▸ hst⟩

/-- Both stores show the same words. -/
theorem storedWords_tuned (start stop : Nat) :
    Tuned Agree places (storedWords start stop) (storedWords start stop) := by
  unfold storedWords
  refine .read_bind fun here x y _ hxy => ?_
  obtain ⟨values, store, rfl, -, hstore⟩ := hxy
  exact (readWords_tuned hstore start stop).onHeap.onHost

-- ================================================================ growth

/-- Both value tables grow to the same size. -/
theorem ensureCapacity_tuned (needed : Nat) :
    Tuned Agree places (ensureCapacity needed) (ensureCapacity needed) := by
  unfold ensureCapacity
  refine .read_bind fun here x y _ hxy => ?_
  obtain ⟨values, store, rfl, hvalues, -⟩ := hxy
  exact Host.growth_tuned hvalues _ _ _
    (update_tuned fun _ _ _ => ⟨rfl, rfl, rfl⟩)

/-- A variable exists on both sides afterwards. -/
theorem ensureVariable_tuned (n : Int) :
    Tuned Agree places (ensureVariable (.int n))
      (ensureVariable (.int n)) := by
  unfold ensureVariable
  refine .read_bind fun here x y _ hxy => ?_
  obtain ⟨values, store, rfl, -, -⟩ := hxy
  refine .settle_bind fun _ _ => .when (fun _ => ?_) ?_
  · exact ensureCapacity_tuned n.toNat
  · refine .settle_bind fun _ _ => .ite (fun _ => ?_) fun _ => .answer ()
    exact update_tuned fun _ _ _ => ⟨rfl, rfl, rfl⟩

/-- An engine is live on both sides or on neither. -/
theorem checkLive_tuned :
    Tuned Agree places checkLive checkLive := by
  unfold checkLive
  refine .read_bind fun here x y _ hxy => ?_
  obtain ⟨values, store, rfl, -, -⟩ := hxy
  exact .ite (fun _ => .throw _) fun _ => .answer ()

/-- Both stores grow at the same word. -/
theorem push_tuned (n : Int) :
    Tuned Agree places (push (.int n)) (push (.int n)) := by
  unfold push
  refine .read_bind fun here x y _ hxy => ?_
  obtain ⟨values, store, rfl, -, hstore⟩ := hxy
  have hword : Tuned Agree here
      (do
        Op.onHost (Host.onHeap (writeWord store y.stored n))
        Op.update fun e => { e with stored := e.stored + 1 } :
          Op TableEngine Unit)
      (do
        Op.onHost (Host.onHeap (writeWord y.store y.stored n))
        Op.update fun e => { e with stored := e.stored + 1 }) :=
    (writeWord_tuned hstore _ n).onHeap.onHost.then fun _ =>
      update_tuned fun _ _ _ => ⟨rfl, rfl, rfl⟩
  refine .ite (fun _ => ?_) fun _ => hword
  exact Host.growth_tuned hstore _ _ _
    (.then (update_tuned fun _ _ _ => ⟨rfl, rfl, rfl⟩) fun _ => hword)

-- ============================================================== the calls

theorem reserveVariables_tuned (n : Int) :
    Tuned Agree places (reserveVariables (.int n))
      (reserveVariables (.int n)) :=
  checkLive_tuned.then fun _ => ensureVariable_tuned n

/-- The clause that is asserted is read from the store of either side, and
is the same. -/
theorem terminateClause_tuned :
    Tuned Agree places terminateClause terminateClause := by
  unfold terminateClause
  refine checkLive_tuned.then fun _ => .read_bind fun here x y _ hxy => ?_
  obtain ⟨values, store, rfl, -, -⟩ := hxy
  refine (storedWords_tuned _ _).then fun _ => ?_
  refine (push_tuned 0).then fun _ => ?_
  exact update_tuned fun _ _ _ => ⟨rfl, rfl, rfl⟩

/-- A literal is in range or not before any memory is looked at. -/
theorem addLiteral_tuned (l : Int) :
    Tuned Agree places (addLiteral (.int l)) (addLiteral (.int l)) := by
  unfold addLiteral
  refine checkLive_tuned.then fun _ => .settle_bind fun _ _ => ?_
  refine .ite (fun _ => terminateClause_tuned) fun _ => ?_
  refine .settle_bind fun magnitude hmagnitude => .settle_bind fun _ _ => ?_
  obtain rfl : Value.int l.natAbs = magnitude := Except.ok.inj hmagnitude
  refine .ite (fun _ => .throw _) fun _ => ?_
  exact (ensureVariable_tuned _).then fun _ => push_tuned l

/-- The assignment goes into the value table of either side. -/
theorem loadModel_tuned (a : Assignment) :
    Tuned Agree places (loadModel a) (loadModel a) := by
  unfold loadModel
  refine .read_bind fun here x y _ hxy => ?_
  obtain ⟨values, store, rfl, hvalues, -⟩ := hxy
  have hshow := Tuned.each (fun i => Heap.poke_tuned hvalues i
    (if a i then 1 else 0)) y.varCount 1
  refine hshow.onHeap.onHost.then fun _ => ?_
  exact update_tuned fun _ _ _ => ⟨rfl, rfl, rfl⟩

/-- The search is the same and is asked the same, so it answers the
same. -/
theorem check_tuned (limit : Nat) :
    Tuned Agree places (check limit) (check limit) := by
  unfold check
  refine .read_bind fun here x y _ hxy => ?_
  obtain ⟨values, store, rfl, -, -⟩ := hxy
  refine .then (update_tuned fun _ _ _ => ⟨rfl, rfl, rfl⟩) fun _ => ?_
  have hforget : Tuned Agree here
      (Op.update fun e : TableEngine => { e with hasModel := false })
      (Op.update fun e => { e with hasModel := false }) :=
    update_tuned fun _ _ _ => ⟨rfl, rfl, rfl⟩
  cases y.search y.searches ⟨y.asserted.toList, y.varCount, limit⟩ with
  | sat a => exact (loadModel_tuned a).then fun _ => .answer _
  | unsat => exact hforget.then fun _ => .answer _
  | unknown => exact hforget.then fun _ => .answer _

/-- Limits are compared before the search, which knows nothing of
places. -/
theorem solve_tuned (budget : Value) :
    Tuned Agree places (solve budget) (solve budget) := by
  unfold solve
  refine checkLive_tuned.then fun _ => .read_bind fun here x y _ hxy => ?_
  obtain ⟨values, store, rfl, -, -⟩ := hxy
  refine .settle_bind fun limit _ => ?_
  cases searchLimit limit with
  | error f => exact .throw f
  | ok limit =>
      refine (check_tuned limit).then fun outcome => ?_
      refine .read_bind fun here x y _ hxy => ?_
      obtain ⟨values, store, rfl, -, -⟩ := hxy
      refine .settle_bind fun _ _ => .ite (fun _ => ?_) fun _ => .answer _
      exact (Host.note_tuned _).onHost.then fun _ => .answer _

/-- The byte of a variable is the same in both value tables. -/
theorem valueOf_tuned (index : Value) :
    Tuned Agree places (valueOf index) (valueOf index) := by
  unfold valueOf
  refine .read_bind fun here x y _ hxy => ?_
  obtain ⟨values, store, rfl, hvalues, -⟩ := hxy
  refine .ite (fun _ => .throw _) fun _ => .settle_bind fun _ _ => ?_
  refine .ite (fun _ => (Tuned.settle _).then fun inRange => ?_)
    fun _ => (Tuned.answer false).then fun inRange => ?_
  -- the variable is in range or not, and then its byte is read
  all_goals
    refine .ite (fun _ => .throw _) fun _ => ?_
    cases index.whole? with
    | none => exact .throw _
    | some i =>
        refine .get_bind fun _ s t hle hst => ?_
        have hbyte := hst.placed.byte?_eq (hvalues.mono hle) i.toNat
        dsimp only
        rw [hbyte]
        cases t.host.heap.byte? y.values i.toNat with
        | none => exact .throw _
        | some byte => exact .answer _

/-- The number of variables is a whole number on both sides. -/
theorem variableCount_tuned :
    Tuned (fun _ a b => ∃ n : Nat, a = .int n ∧ b = .int n) places
      (Engine.variableCount : Op TableEngine Value) Engine.variableCount := by
  refine .read_bind fun here x y _ hxy => ?_
  obtain ⟨values, store, rfl, -, -⟩ := hxy
  exact .pure fun _ _ => ⟨y.varCount, rfl, rfl⟩

theorem clauses_tuned :
    Tuned Agree places clauses clauses := by
  unfold clauses
  refine .read_bind fun here x y _ hxy => ?_
  obtain ⟨values, store, rfl, -, -⟩ := hxy
  refine .ite (fun _ => .throw _) fun _ => ?_
  exact (storedWords_tuned _ _).then fun _ => .answer _

theorem writeProblem_tuned :
    Tuned Agree places writeProblem writeProblem := by
  refine clauses_tuned.then fun _ => .read_bind fun here x y _ hxy => ?_
  obtain ⟨values, store, rfl, -, -⟩ := hxy
  exact .answer _

/-- Each side gives its own two tables back. -/
theorem reset_tuned :
    Tuned Agree places reset reset := by
  unfold reset
  refine .read_bind fun here x y _ hxy => ?_
  obtain ⟨values, store, rfl, hvalues, hstore⟩ := hxy
  refine .ite (fun _ => ?_) fun _ => .answer ()
  refine (Host.free_tuned hvalues _).onHost.then fun _ => ?_
  refine (Host.free_tuned hstore _).onHost.then fun _ => ?_
  exact .then (update_tuned fun _ _ _ => ⟨rfl, rfl, rfl⟩)
    fun _ => (Host.note_tuned _).onHost

-- ========================================================== construction

/-- Two engines made in two memories are alike. -/
theorem create_tuned (search : Search) :
    Tuned Lodger.Like places (create search) (create search) := by
  unfold create
  refine (Host.alloc_tuned _).bind fun here _ values owned hvalues => ?_
  cases hvalues with
  | none => exact .throw _
  | some hvalues =>
      refine (Host.alloc_tuned _).bind fun here' hle store owned' hstore => ?_
      cases hstore with
      | none =>
          refine (Host.free_tuned (hvalues.mono hle) _).then fun _ => ?_
          exact .throw _
      | some hstore =>
          refine .pure fun later hmore => ?_
          exact ⟨_, _, rfl, (hvalues.mono hle).mono hmore,
            hstore.mono hmore⟩

end TableEngine

end SatSession
