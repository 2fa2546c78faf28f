/-
Laws that engines obey.

Of an engine may be known how far its methods move it and its host: a
relation between the states before and after each call, whether or not the
call fails (`Obeys`). A program over the engine moves it no further, as
long as what the program itself does to the host is allowed by the relation
too. The loading of a problem only prints and notes (`Session.create_obeys`).
Two laws are found here of engines that the library has itself: a scripted
one touches neither its script nor its host, and one with tables only asks
its host for memory and writes to its log.
A session also asks for memory, writes to it and keeps a record of itself,
so that relations between sessions have lists of their own of what they
are to allow (`Session.Deals`, `Session.Allows`).
-/
import SatSession.Proofs.Aspects
import SatSession.Engine.Scripted
import SatSession.Engine.Table

namespace SatSession

variable {E α γ : Type} {R R' : Placed E → Placed E → Prop}

-- ================================================================= laws

/-- An engine all of whose methods move it no further than a relation
allows. -/
structure Obeys [Engine E] (R : Placed E → Placed E → Prop) : Prop where
  setVerbosity : ∀ level, Moves R (Engine.setVerbosity level : Op E Unit)
  reserveVariables : ∀ count,
    Moves R (Engine.reserveVariables count : Op E Unit)
  setPropagationLimit : ∀ limit,
    Moves R (Engine.setPropagationLimit limit : Op E Unit)
  addLiteral : ∀ literal, Moves R (Engine.addLiteral literal : Op E Unit)
  terminateClause : Moves R (Engine.terminateClause : Op E Unit)
  solve : ∀ budget, Moves R (Engine.solve budget : Op E Value)
  variableCount : Moves R (Engine.variableCount : Op E Value)
  valueOf : ∀ index, Moves R (Engine.valueOf index : Op E Value)
  writeProblem : Moves R (Engine.writeProblem : Op E String)
  reset : Moves R (Engine.reset : Op E Unit)

/-- What obeys a law obeys every wider one. -/
theorem Obeys.imp [Engine E] (h : Obeys R) (hR : ∀ p q, R p q → R' p q) :
    Obeys R' where
  setVerbosity level := (h.setVerbosity level).imp hR
  reserveVariables count := (h.reserveVariables count).imp hR
  setPropagationLimit limit := (h.setPropagationLimit limit).imp hR
  addLiteral literal := (h.addLiteral literal).imp hR
  terminateClause := h.terminateClause.imp hR
  solve budget := (h.solve budget).imp hR
  variableCount := h.variableCount.imp hR
  valueOf index := (h.valueOf index).imp hR
  writeProblem := h.writeProblem.imp hR
  reset := h.reset.imp hR

-- ==================================================== scripted engines

namespace Scripted

/-- What a scripted engine never touches: its script and its host. -/
def aside (p : Placed Scripted) : Script × Host := (p.object.script, p.host)

/-- A call is counted, whether or not it then fails. -/
theorem enter_leaves (c : Call) : Leaves aside (enter c) := by
  unfold enter
  refine Moves.read.bind fun e => ?_
  refine Moves.bind (Moves.update fun _ _ => rfl) fun _ => ?_
  exact .ite (.throw _) (.pure _)

/-- A variable that is heard of raises the count. -/
theorem hear_leaves (varCount : Value) : Leaves aside (hear varCount) := by
  unfold hear
  refine Moves.read.bind fun e => (Moves.settle _).bind fun larger => ?_
  exact Moves.update fun _ _ => rfl

/-- A value is read off the script. -/
theorem valueOf_leaves (index : Value) : Leaves aside (valueOf index) := by
  unfold valueOf
  refine (enter_leaves _).bind fun _ => Moves.read.bind fun e => ?_
  cases e.shown with
  | none => exact .throw _
  | some model =>
      refine (Moves.settle _).bind fun within => .ite (.pure _) ?_
      refine (Moves.settle _).bind fun place => ?_
      cases place.whole? with
      | none => exact .throw _
      | some i =>
          cases hpick : pick model i with
          | ok v =>
              simp only [hpick]
              exact Moves.pure v
          | error f =>
              simp only [hpick]
              exact Moves.throw f

/-- A search counts, and its code is read off the script. -/
theorem solve_leaves (budget : Value) : Leaves aside (solve budget) := by
  unfold solve
  refine (enter_leaves _).bind fun _ => Moves.read.bind fun e => ?_
  cases entryFor e.script.codes e.searches with
  | none => exact .throw _
  | some code =>
      exact Moves.bind (Moves.update fun _ _ => rfl) fun _ => .pure code

/-- A scripted engine only counts. -/
theorem obeys : Obeys (Same aside) where
  setVerbosity _ := enter_leaves _
  reserveVariables count := (enter_leaves _).bind fun _ => hear_leaves count
  setPropagationLimit _ := enter_leaves _
  addLiteral _ := (enter_leaves _).bind fun _ =>
    (Moves.settle _).bind fun magnitude => hear_leaves magnitude
  terminateClause := enter_leaves _
  solve := solve_leaves
  variableCount := (enter_leaves _).bind fun _ =>
    Moves.read.bind fun _ => .pure _
  valueOf := valueOf_leaves
  writeProblem := (enter_leaves _).bind fun _ =>
    Moves.read.bind fun _ => .when (.throw _) (.pure _)
  reset := enter_leaves _

end Scripted

-- ================================================= engines with tables

namespace TableEngine

/-- Reading a value changes nothing. -/
theorem valueOf_moves {R : Placed TableEngine → Placed TableEngine → Prop}
    [IsPreorder (Placed TableEngine) R] (index : Value) :
    Moves R (Engine.valueOf index : Op TableEngine Value) := by
  show Moves R (valueOf index)
  unfold valueOf
  refine Moves.read.bind fun e => .when (.throw _) ?_
  refine (Moves.settle _).bind fun low => ?_
  refine .branch (.settle _) (.pure false) fun inRange => ?_
  refine .when (.throw _) ?_
  cases index.whole? with
  | none => exact .throw _
  | some i =>
      refine Moves.get.bind fun p => ?_
      cases p.host.heap.byte? e.values i.toNat with
      | none => exact .throw _
      | some byte => exact .pure _

/-- Counting the variables changes nothing. -/
theorem variableCount_moves
    {R : Placed TableEngine → Placed TableEngine → Prop}
    [IsPreorder (Placed TableEngine) R] :
    Moves R (Engine.variableCount : Op TableEngine Value) :=
  Moves.read.bind fun _ => .pure _

/-- What an aspect of a host shows of the host of an engine. -/
abbrev beside (aspect : Host → γ) (p : Placed TableEngine) : γ :=
  aspect p.host

section

variable {aspect : Host → γ} (h : Host.Aloof aspect)

/-- What an engine writes down of itself does not show on its host. -/
theorem update_leaves (f : TableEngine → TableEngine) :
    Leaves (beside aspect) (Op.update f) :=
  Moves.update fun _ _ => rfl

/-- What an aspect does not show of an operation it does not show of the
engine that carries it out. -/
theorem onHost_leaves {op : HostOp α} (hop : Leaves aspect op) :
    Leaves (beside aspect) (Op.onHost op : Op TableEngine α) :=
  hop.onHost fun _ _ _ hsame => hsame

theorem checkLive_leaves : Leaves (beside aspect) checkLive := by
  unfold checkLive
  exact Moves.read.bind fun e => .when (.throw _) (.pure _)

include h

theorem onHeap_leaves (op : HeapOp α) :
    Leaves (beside aspect) (Op.onHost (Host.onHeap op)) :=
  onHost_leaves (Host.onHeap_leaves h.toUnasked)

theorem realloc_leaves (b : BlockId) (old new : Value) :
    Leaves (beside aspect) (Op.onHost (Host.realloc b old new)) :=
  onHost_leaves (Host.realloc_leaves h.toUnasked b old new)

/-- Making an engine asks for two blocks and gives the first one back if
there is no second. -/
theorem create_leaves (search : Search) : Leaves aspect (create search) := by
  have halloc := Host.alloc_leaves h.toUnasked
  unfold create
  refine (halloc _).bind fun values => ?_
  cases values with
  | none => exact .throw _
  | some values =>
      refine (halloc _).bind fun store => ?_
      cases store with
      | none => exact (h.free_leaves _ _).bind fun _ => .throw _
      | some store => exact .pure _

/-- Growing the value table is one request. -/
theorem ensureCapacity_leaves (needed : Nat) :
    Leaves (beside aspect) (ensureCapacity needed) := by
  unfold ensureCapacity
  refine Moves.read.bind fun e => ?_
  refine (realloc_leaves h _ _ _).bind fun granted => ?_
  exact .when (.throw _) (update_leaves _)

/-- A variable is made to exist with or without a growth in front. -/
theorem ensureVariable_leaves (index : Value) :
    Leaves (beside aspect) (ensureVariable index) := by
  unfold ensureVariable
  refine Moves.read.bind fun e => (Moves.settle _).bind fun scarce => ?_
  extract_lets count
  have hcount : Leaves (beside aspect) (count ()) := by
    refine (Moves.settle _).bind fun new => .ite ?_ (.pure _)
    cases index.floor? with
    | none => exact .pure _
    | some n => exact update_leaves _
  refine .ite ?_ hcount
  cases index.ceil? with
  | none => exact .throw _
  | some n => exact (ensureCapacity_leaves h _).bind fun _ => hcount

/-- A word is stored with or without a growth in front. -/
theorem push_leaves (word : Value) :
    Leaves (beside aspect) (push word) := by
  unfold push
  refine Moves.read.bind fun e => ?_
  extract_lets store
  have hstore : Leaves (beside aspect) (store ()) := by
    dsimp only [store]
    cases word.whole? with
    | none => exact .throw _
    | some n => exact (onHeap_leaves h _).bind fun _ => update_leaves _
  refine .ite ?_ hstore
  refine (realloc_leaves h _ _ _).bind fun granted => ?_
  exact .when (.throw _) ((update_leaves _).bind fun _ => hstore)

theorem storedWords_leaves (start stop : Nat) :
    Leaves (beside aspect) (storedWords start stop) := by
  unfold storedWords
  exact Moves.read.bind fun e => onHeap_leaves h _

/-- Closing a clause reads the store, then writes to it. -/
theorem terminateClause_leaves :
    Leaves (beside aspect) terminateClause := by
  unfold terminateClause
  refine checkLive_leaves.bind fun _ => Moves.read.bind fun e => ?_
  refine (storedWords_leaves h _ _).bind fun literals => ?_
  exact (push_leaves h _).bind fun _ => update_leaves _

/-- A literal closes the clause, or makes its variable exist and is
stored. -/
theorem addLiteral_leaves (literal : Value) :
    Leaves (beside aspect) (addLiteral literal) := by
  unfold addLiteral
  refine checkLive_leaves.bind fun _ => ?_
  refine (Moves.settle _).bind fun closes => ?_
  refine .ite (terminateClause_leaves h) ?_
  refine (Moves.settle _).bind fun magnitude => ?_
  refine (Moves.settle _).bind fun large => .when (.throw _) ?_
  exact (ensureVariable_leaves h _).bind fun _ => push_leaves h _

theorem loadModel_leaves (a : Assignment) :
    Leaves (beside aspect) (loadModel a) := by
  unfold loadModel
  refine Moves.read.bind fun e => ?_
  exact (onHeap_leaves h _).bind fun _ => update_leaves _

/-- Whatever the verdict is, only the value table and the engine are
written to. -/
theorem check_leaves (limit : Nat) :
    Leaves (beside aspect) (check limit) := by
  unfold check
  refine Moves.read.bind fun e => ?_
  extract_lets verdict
  refine (update_leaves _).bind fun _ => ?_
  cases verdict with
  | sat a => exact (loadModel_leaves h a).bind fun _ => .pure _
  | unsat => exact (update_leaves _).bind fun _ => .pure _
  | unknown => exact (update_leaves _).bind fun _ => .pure _

/-- A search may be logged in the end, which an aloof aspect does not
show. -/
theorem solve_leaves (budget : Value) :
    Leaves (beside aspect) (solve budget) := by
  unfold solve
  refine checkLive_leaves.bind fun _ => Moves.read.bind fun e => ?_
  refine (Moves.settle _).bind fun limit? => ?_
  cases searchLimit limit? with
  | error f => exact .throw f
  | ok limit =>
      refine (check_leaves h limit).bind fun outcome => ?_
      refine Moves.read.bind fun e => ?_
      refine (Moves.settle _).bind fun reports => .when ?_ (.pure _)
      exact onHost_leaves (h.note_leaves _)

/-- A dump is made of what is read, and is not printed. -/
theorem writeProblem_leaves :
    Leaves (beside aspect) writeProblem := by
  unfold writeProblem clauses
  refine Moves.bind ?_ fun closed => Moves.read.bind fun e => .pure _
  refine Moves.read.bind fun e => .when (.throw _) ?_
  exact (storedWords_leaves h _ _).bind fun words => .pure _

/-- Both tables are given back, and that is logged. -/
theorem reset_leaves : Leaves (beside aspect) reset := by
  have hfree := fun b size => onHost_leaves (h.free_leaves b size)
  unfold reset
  refine Moves.read.bind fun e => .ite ?_ (.pure _)
  refine (hfree _ _).bind fun _ => (hfree _ _).bind fun _ => ?_
  exact (update_leaves _).bind fun _ => onHost_leaves (h.note_leaves _)

/-- All that an engine with tables asks of its host are requests to the
memory and entries in the log. -/
theorem obeys : Obeys (Same (beside aspect)) where
  setVerbosity _ := update_leaves _
  reserveVariables _ :=
    checkLive_leaves.bind fun _ => ensureVariable_leaves h _
  setPropagationLimit _ := update_leaves _
  addLiteral := addLiteral_leaves h
  terminateClause := terminateClause_leaves h
  solve := solve_leaves h
  variableCount := variableCount_moves
  valueOf := valueOf_moves
  writeProblem := writeProblem_leaves h
  reset := reset_leaves h

end

end TableEngine

-- ============================================================= loading

section

variable [Engine E] [IsPreorder (Placed E) R]

omit [IsPreorder (Placed E) R] in
/-- The two methods by which clauses are loaded. -/
theorem Obeys.loads (h : Obeys R) :
    (∀ l : Int, Moves R (Engine.addLiteral (.int l) : Op E Unit))
      ∧ Moves R (Engine.terminateClause : Op E Unit) :=
  ⟨fun _ => h.addLiteral _, h.terminateClause⟩

variable
  (h : (∀ l : Int, Moves R (Engine.addLiteral (.int l) : Op E Unit))
    ∧ Moves R (Engine.terminateClause : Op E Unit))

include h

/-- A clause moves an engine no further than its literals and its
terminator do. -/
theorem loadClause_moves (literals : List Int) :
    Moves R (loadClause literals : Op E Unit) := by
  unfold loadClause
  refine Moves.bind ?_ fun _ => h.2
  induction literals with
  | nil => exact Moves.pure ()
  | cons l rest ih => exact Moves.bind (h.1 _) fun _ => ih

/-- A clause that is none does not move it at all. -/
theorem loadNext_moves (count : Nat) (v : Value) :
    Moves R (loadNext count v : Op E Nat) := by
  unfold loadNext
  cases Clause.validate v (.int count) with
  | error f => exact Moves.throw f
  | ok literals => exact (loadClause_moves h literals).bind fun _ => .pure _

/-- Clauses move it no further than each of them, by induction on what is
left of them. -/
theorem loadClauses_moves (v : Value) :
    Moves R (loadClauses v : Op E Nat) := by
  unfold loadClauses
  cases v.sequence? with
  | none => exact Moves.throw _
  | some items =>
      simp only [Items.foldlM_eq]
      generalize 0 = count
      induction items.toList generalizing count with
      | nil => exact Moves.pure count
      | cons v rest ih =>
          rw [List.foldlM_cons]
          exact (loadNext_moves h count v).bind fun count => ih count

omit h

namespace Session

/-- A relation that allows whatever leaves the memory alone. -/
def Quiet (R : Placed E → Placed E → Prop) : Prop :=
  ∀ e host host', Same Host.heap host host' → R ⟨e, host⟩ ⟨e, host'⟩

/-- Loading tells the engine its settings and the clauses, and prints. -/
theorem load_obeys (h : Obeys R) (hquiet : Quiet R) (config : Config)
    (v : Value) : Moves R (load config v : Op E Nat) := by
  unfold load
  refine (h.setVerbosity _).bind fun _ => ?_
  refine .when (h.reserveVariables _) ?_
  refine .when (h.setPropagationLimit _) ?_
  refine (loadClauses_moves h.loads v).bind fun count => ?_
  refine .ite ?_ (.pure count)
  refine h.writeProblem.bind fun text => ?_
  have hprint : Leaves Host.heap (Host.print text) := fun _ => rfl
  exact (hprint.onHost hquiet).bind fun _ => .pure count

/-- A session that has been created is alive, and its engine came by its
state within the law. -/
theorem create_obeys (h : Obeys R) (hquiet : Quiet R) (make : HostOp E)
    (config : Config) (v : Value) (host : Host) :
    Ends (fun s host' => s.destroyed = false
        ∧ ∃ e host₁, make host = .ok e host₁
          ∧ R ⟨e, host₁⟩ ⟨s.engine, host'⟩)
      (fun _ _ => True) (create make config v host) := by
  unfold create
  cases hmake : make host with
  | error f host₁ =>
      rw [bind_of_error hmake]
      trivial
  | ok e host₁ =>
      rw [bind_of_ok hmake, ends_bind, Op.ends_on]
      unfold prepare
      rw [ends_bind, Op.ends_orRelease]
      refine (load_obeys h hquiet config v ⟨e, host₁⟩).imp ?_ ?_
      · intro count q hq
        have hcount : Moves R (do
            let varCount ← Engine.variableCount
            Op.onHost (Host.noteCreated count varCount) : Op E Unit) := by
          refine h.variableCount.bind fun n => ?_
          have hnote : Leaves Host.heap (Host.noteCreated count n) :=
            fun _ => Host.ends_noteCreated rfl fun _ _ => rfl
          exact hnote.onHost hquiet
        refine (hcount q).imp ?_ fun _ _ _ => trivial
        intro _ q' hq'
        exact ⟨rfl, e, host₁, rfl, trans_of R hq hq'⟩
      · intro f q _
        exact (ends_true _).imp_answer fun _ _ _ => trivial

end Session

end

-- ============================================================ sessions

namespace Session

/-- A relation between sessions that allows what is done to decode and to
block: what a session asks its engine, and what it asks the host. -/
structure Deals [Engine E]
    (Q : Placed (Session E) → Placed (Session E) → Prop) : Prop where
  variableCount : Moves Q (onEngine (Engine.variableCount : Op E Value))
  valueOf : ∀ index,
    Moves Q (onEngine (Engine.valueOf index : Op E Value))
  addLiteral : ∀ literal,
    Moves Q (onEngine (Engine.addLiteral literal : Op E Unit))
  terminateClause : Moves Q (onEngine (Engine.terminateClause : Op E Unit))
  alloc : ∀ size, Moves Q (Op.onHost (Host.alloc size))
  realloc : ∀ b old new, Moves Q (Op.onHost (Host.realloc b old new))
  poke : ∀ b i byte,
    Moves Q (Op.onHost (Host.onHeap (Heap.poke b i byte)))

/-- A relation between sessions that also allows what a session notes down,
in the log and of itself. -/
structure Allows [Engine E]
    (Q : Placed (Session E) → Placed (Session E) → Prop) : Prop
    extends Deals Q where
  note : ∀ e, Moves Q (Op.onHost (Host.note e))
  update : ∀ g : Session E → Session E,
    (∀ s, (g s).destroyed = s.destroyed ∧ (g s).engine = s.engine) →
      ∀ s host, Q ⟨s, host⟩ ⟨g s, host⟩

variable [Engine E] {Q : Placed (Session E) → Placed (Session E) → Prop}
  [IsPreorder (Placed (Session E)) Q]

omit [IsPreorder (Placed (Session E)) Q] in
/-- What is allowed to a session allows it to note down an invocation. -/
theorem Allows.records (h : Allows Q) :
    (∀ e, Moves Q (Op.onHost (Host.note e)))
      ∧ ∀ g : Session E → Session E,
        (∀ s, (g s).destroyed = s.destroyed ∧ (g s).engine = s.engine) →
          Moves Q (Op.update g) :=
  ⟨h.note, fun g hg => Moves.update (h.update g hg)⟩

/-- An invocation notes down what the engine has answered, and concerns
neither the engine nor whether the session is destroyed besides. -/
theorem invoke_moves
    (h : (∀ e, Moves Q (Op.onHost (Host.note e)))
      ∧ ∀ g : Session E → Session E,
        (∀ s, (g s).destroyed = s.destroyed ∧ (g s).engine = s.engine) →
          Moves Q (Op.update g))
    {budget : Value}
    (hsolve : Moves Q (onEngine (Engine.solve budget : Op E Value))) :
    Moves Q (invoke budget : Op (Session E) Outcome) := by
  obtain ⟨hnote, hupdate⟩ := h
  unfold invoke
  refine Moves.read.bind fun s => .when (.throw _) ?_
  refine hsolve.bind fun code => ?_
  refine .bind (hupdate _ fun _ => ⟨rfl, rfl⟩) fun _ => ?_
  cases Outcome.ofCode code with
  | error _ =>
      refine .bind (hupdate _ fun _ => ⟨rfl, rfl⟩) fun _ => ?_
      exact .throw _
  | ok outcome =>
      refine .bind (hupdate _ fun _ => ⟨rfl, rfl⟩) fun _ => ?_
      refine Moves.read.bind fun s => ?_
      exact (hnote _).bind fun _ => .pure _

omit [Engine E] in
/-- The guard moves nothing. -/
theorem requireModel_moves :
    Moves Q (requireModel : Op (Session E) Unit) := by
  unfold requireModel
  refine Moves.read.bind fun s => ?_
  exact .when (.throw _) (.ite (.throw _) (.pure _))

/-- A polarity is asked for once, and then compared. -/
theorem polarity_moves
    (hvalue : ∀ index,
      Moves Q (onEngine (Engine.valueOf index : Op E Value)))
    (index : Nat) : Moves Q (polarity index : Op (Session E) Value) := by
  unfold polarity
  refine (hvalue _).bind fun v => ?_
  refine (Moves.settle _).bind fun positive => ?_
  refine .ite (.pure _) ?_
  refine (Moves.settle _).bind fun negative => ?_
  exact .ite (.pure _) (.throw _)

omit [Engine E] in
theorem variablesBelow_moves (bound : Value) :
    Moves Q (variablesBelow bound : Op (Session E) Nat) := by
  unfold variablesBelow
  cases bound.whole? with
  | none => exact .throw _
  | some n => exact .pure _

/-- Decoding asks for the count and for the values. -/
theorem decode_moves
    (hcount : Moves Q (onEngine (Engine.variableCount : Op E Value)))
    (hvalue : ∀ index,
      Moves Q (onEngine (Engine.valueOf index : Op E Value))) :
    Moves Q (decode : Op (Session E) Solution) := by
  unfold decode
  refine requireModel_moves.bind fun _ => ?_
  refine hcount.bind fun n => ?_
  refine (Moves.settle _).bind fun bound => ?_
  refine (variablesBelow_moves bound).bind fun count => ?_
  refine Moves.collect (fun index => ?_) count 1
  exact (polarity_moves hvalue index).bind fun v => .settle _

/-- A scratch block is asked for, asked for again, or left as it is. -/
theorem scratchFor_moves (h : Deals Q) (scratch : Option BlockId)
    (bytes : Value) :
    Moves Q (scratchFor scratch bytes : Op (Session E) BlockId) := by
  unfold scratchFor
  cases scratch with
  | none =>
      refine (h.alloc _).bind fun answer => ?_
      cases answer with
      | none => exact .throw _
      | some b => exact .pure _
  | some b =>
      refine Moves.get.bind fun p => ?_
      refine (Moves.settle _).bind fun short => ?_
      refine .ite ?_ (.pure _)
      refine (h.realloc _ _ _).bind fun granted => ?_
      exact .when (.throw _) (.pure _)

/-- Blocking deals with the engine and with the memory, and with nothing
else. -/
theorem block_moves (h : Deals Q) (scratch : Option BlockId) :
    Moves Q (block scratch : Op (Session E) BlockId) := by
  unfold block
  refine requireModel_moves.bind fun _ => ?_
  refine h.variableCount.bind fun n => ?_
  refine (Moves.settle _).bind fun bytes => ?_
  refine (scratchFor_moves h scratch bytes).bind fun buffer => ?_
  refine (variablesBelow_moves bytes).bind fun count => ?_
  refine (Moves.each (fun index => ?_) count 1).bind fun _ => ?_
  · refine (polarity_moves h.valueOf index).bind fun v => ?_
    refine (Moves.settle _).bind fun positive => ?_
    exact h.poke _ _ _
  refine (Moves.each (fun index => ?_) count 1).bind fun _ => ?_
  · refine Moves.get.bind fun p => ?_
    cases p.host.heap.byte? buffer index with
    | none => exact .throw _
    | some byte => exact h.addLiteral _
  exact h.terminateClause.bind fun _ => .pure _

/-- An answer is an invocation, and a decoding if there is something to
decode. -/
theorem answer_moves (h : Allows Q)
    (hsolve : Moves Q (onEngine (Engine.solve noBudget : Op E Value))) :
    Moves Q (answer : Op (Session E) Answer) := by
  unfold answer
  refine (invoke_moves h.records hsolve).bind fun outcome => ?_
  cases outcome with
  | satisfiable =>
      exact (decode_moves h.variableCount h.valueOf).bind fun s => .pure _
  | unsatisfiable => exact .pure _
  | unknown => exact .pure _

end Session

end SatSession
