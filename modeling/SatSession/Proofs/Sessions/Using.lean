/-
Sessions whose engine is called behind their back.

Whoever has a session has its engine too, and may call the engine directly:
add clauses, search, and even reset it, of which the session learns
nothing. Two phases can be told apart all the same (`Standing`). Until the
session is destroyed or its engine is reset, the engine is accounted for by
a tally and sits in the tables it was made with; from then on it is empty,
and no call fills it again. Nothing is asked of the search: it may say
what it wants, and another thing each time.

In either phase the calls are gone through part by part with `Moves`. The
buffers of a session are no tables of its engine, so that what is written
into them does not concern the engine (`Tallied.elsewhere`); that is why
a buffer that is handed in must be none of the tables (`UseCall.Proper`).
-/
import SatSession.Proofs.Conversation.Laws
import SatSession.Proofs.Sessions.Decoding
import SatSession.Proofs.Tables.Incremental
import SatSession.Proofs.Tables.Usage

namespace SatSession

open TableEngine

variable {α : Type}

-- ============================================================ the calls

/-- A call of a session or of its engine, or the reset of the engine. -/
inductive UseCall where
  | session (call : SessionCall)
  | reset
  deriving DecidableEq, Repr

namespace UseCall

/-- Makes a call; what it answers is dropped. -/
def perform {E : Type} [Engine E] : UseCall → Op (Session E) Unit
  | session call => call.perform
  | reset => Session.onEngine Engine.reset

/-- A call that hands in no table for a buffer. -/
def Proper (own : List BlockId) : UseCall → Prop
  | session (.block scratch) => ∀ b ∈ scratch, b ∉ own
  | session _ | reset => True

/-- Whether a call gives the tables of the engine back. -/
def ends : UseCall → Bool
  | session .destroy | reset => true
  | session _ => false

end UseCall

-- ================================================= engines accounted for

namespace TableEngine

variable {own : List BlockId} {e : TableEngine} {host host' : Host}
  {p : Placed TableEngine}

/-- A live engine in the tables `own`, which some tally accounts for. -/
structure Tallied (own : List BlockId) (p : Placed TableEngine) :
    Prop where
  tallies : ∃ search t, Tallies search t p
  takesBack : p.host.TakesBack
  tables : p.object.tables = own

/-- An engine goes on being accounted for. -/
abbrev StaysTallied (own : List BlockId) :
    Placed TableEngine → Placed TableEngine → Prop :=
  Retains (Tallied own)

/-- An engine whose tables are where they were goes on being accounted
for. -/
theorem Tallied.moved (h : Tallied own p) {q : Placed TableEngine}
    {search : Search} {t : Tally} (ht : Tallies search t q)
    (hm : Moved p.object p.host q) : Tallied own q :=
  ⟨⟨search, t, ht⟩, h.takesBack.of_sameRules hm.within.rules,
    hm.tables.trans h.tables⟩

/-- Work on other blocks does not matter to the engine. -/
theorem Tallied.elsewhere (h : Tallied own ⟨e, host⟩)
    (hrules : Host.SameRules host host')
    (hsame : ∀ b ∈ own, host'.heap.contents b = host.heap.contents b) :
    Tallied own ⟨e, host'⟩ := by
  obtain ⟨search, t, ht⟩ := h.tallies
  have htables : e.tables = own := h.tables
  have hvalues : e.values ∈ own := htables ▸ List.mem_cons_self
  refine ⟨⟨search, t, { ht with
    plain := ht.plain.of_sameRules hrules
    keeps := ht.keeps.of_contents fun b hb => hsame b (htables ▸ hb)
    exposes := ht.exposes.of_contents (hsame e.values hvalues) }⟩,
    h.takesBack.of_sameRules hrules, htables⟩

/-- Every call of a live engine keeps it in its account. -/
theorem liveCall_moves (call : LiveCall) :
    Moves (StaysTallied own) call.perform := by
  refine moves_retains fun p h => ?_
  obtain ⟨search, t, ht⟩ := h.tallies
  cases call with
  | number call =>
      refine (ht.perform call).imp ?_ ?_
      · exact fun _ q hq => h.moved hq.tallies hq.moved
      · intro f q hq
        cases hq with
        | range _ _ hrest =>
            rw [hrest]
            exact h
        | denied _ _ _ _ htallies hmoved => exact h.moved htallies hmoved
  | side call =>
      refine (ht.side call).imp ?_ ?_
      · exact fun _ q hq => h.moved hq.1 hq.2
      · intro f q hq
        rw [hq.1]
        exact h

/-- A part that answers more than the call keeps to what the call keeps
to. -/
theorem moves_of_dropped {R : Placed TableEngine → Placed TableEngine → Prop}
    {op : Op TableEngine α}
    (h : Moves R (op >>= fun _ => pure () : Op TableEngine Unit)) :
    Moves R op := by
  intro p
  have hp := h p
  rw [ends_bind] at hp
  exact hp

theorem solve_tallied (budget : Int) :
    Moves (StaysTallied own) (solve (.int budget)) :=
  moves_of_dropped (liveCall_moves (.number (.solve budget)))

theorem valueOf_tallied (i : Int) :
    Moves (StaysTallied own) (valueOf (.int i)) :=
  moves_of_dropped (liveCall_moves (.side (.valueOf i)))

theorem writeProblem_tallied :
    Moves (StaysTallied own) writeProblem :=
  moves_of_dropped (liveCall_moves (.side .writeProblem))

-- ===================================================== emptied engines

/-- An engine with nothing left in it. -/
structure Emptied (e : TableEngine) : Prop extends Spent e where
  vars : e.varCount = 0

/-- A reset empties the engine. -/
theorem emptied_gone (e : TableEngine) : Emptied e.gone :=
  ⟨⟨rfl, rfl⟩, rfl⟩

/-- What has been emptied stays so. -/
abbrev StaysEmptied : Placed TableEngine → Placed TableEngine → Prop :=
  Retains fun p => Emptied p.object

/-- A call that wants the engine to be live does not come further. -/
theorem checkLive_bind_moves (k : Unit → Op TableEngine α) :
    Moves StaysEmptied (checkLive >>= k) := by
  refine moves_retains fun p hp => ?_
  rw [bind_of_error (checkLive_spent hp.toSpent)]
  exact hp

/-- An engine that is reset does not search. -/
theorem solve_emptied (budget : Value) :
    Moves StaysEmptied (solve budget) := by
  unfold solve
  exact checkLive_bind_moves _

/-- It takes no literal. -/
theorem addLiteral_emptied (literal : Value) :
    Moves StaysEmptied (addLiteral literal) := by
  unfold addLiteral
  exact checkLive_bind_moves _

/-- It closes no clause. -/
theorem terminateClause_emptied : Moves StaysEmptied terminateClause := by
  unfold terminateClause
  exact checkLive_bind_moves _

/-- It shows no value. -/
theorem valueOf_emptied (index : Value) :
    Moves StaysEmptied (valueOf index) := by
  refine moves_retains fun p hp => ?_
  rw [valueOf_noModel hp.flag index]
  exact hp

/-- A second reset finds it empty. -/
theorem reset_emptied : Moves StaysEmptied reset := by
  refine moves_retains fun p hp => ?_
  rw [reset_spent hp.toSpent]
  exact hp

/-- No call brings an engine back that is reset. -/
theorem numberCall_emptied (call : NumberCall) :
    Moves StaysEmptied (call.perform : Op TableEngine Unit) := by
  cases call with
  | addLiteral n => exact addLiteral_emptied _
  | terminateClause => exact terminateClause_emptied
  | reserveVariables n => exact checkLive_bind_moves _
  | setPropagationLimit n =>
      show Moves StaysEmptied (Op.update fun e : TableEngine =>
        { e with propagationLimit := .int n })
      exact Moves.update fun _ _ h => ⟨⟨h.dead, h.flag⟩, h.vars⟩
  | solve budget => exact (solve_emptied _).bind fun _ => .pure ()

end TableEngine

namespace Session

variable {own : List BlockId} {s : Session TableEngine} {host host' : Host}
  {buffer : BlockId} {scratch : Option BlockId}
  {p : Placed (Session TableEngine)}

-- ============================================================== at work

/-- A session whose engine is accounted for. -/
def Working (own : List BlockId) (p : Placed (Session TableEngine)) :
    Prop :=
  Tallied own ⟨p.object.engine, p.host⟩

abbrev StaysWorking (own : List BlockId) :
    Placed (Session TableEngine) → Placed (Session TableEngine) → Prop :=
  Retains (Working own)

/-- What keeps the account of the engine keeps its session at work. -/
theorem onEngine_works {op : Op TableEngine α}
    (h : Moves (StaysTallied own) op) :
    Moves (StaysWorking own) (onEngine op) :=
  h.within fun _ _ _ hq => hq

theorem valueOf_works (i : Int) :
    Moves (StaysWorking own)
      (onEngine (Engine.valueOf (.int i) : Op TableEngine Value)) :=
  onEngine_works (valueOf_tallied i)

theorem note_works (e : LogEntry) :
    Moves (StaysWorking own) (Op.onHost (Host.note e)) :=
  fun _ h => Tallied.elsewhere h ⟨rfl, rfl, rfl, rfl, rfl⟩ fun _ _ => rfl

/-- A session may note down what it likes of itself, unless it is of its
engine or of its end. -/
theorem update_works (g : Session TableEngine → Session TableEngine)
    (hg : ∀ s, (g s).destroyed = s.destroyed ∧ (g s).engine = s.engine) :
    Moves (StaysWorking own) (Op.update g) := by
  refine Moves.update fun s host h => ?_
  show Tallied own ⟨(g s).engine, host⟩
  rw [(hg s).2]
  exact h

/-- An invocation keeps a session at work, whatever it is answered. -/
theorem invoke_works (budget : Int) :
    Moves (StaysWorking own)
      (invoke (.int budget) : Op (Session TableEngine) Outcome) :=
  invoke_moves ⟨note_works, update_works⟩
    (onEngine_works (solve_tallied budget))

theorem polarity_works (index : Nat) :
    Moves (StaysWorking own) (polarity index : Op _ Value) := by
  unfold polarity
  refine (valueOf_works _).bind fun v => ?_
  refine (Moves.settle _).bind fun positive => .ite (.pure _) ?_
  exact (Moves.settle _).bind fun negative => .ite (.pure _) (.throw _)

theorem variableCount_works :
    Moves (StaysWorking own)
      (onEngine (Engine.variableCount : Op TableEngine Value)) :=
  onEngine_works (Moves.read.bind fun _ => .pure _)

/-- Decoding reads and nothing else. -/
theorem decode_works :
    Moves (StaysWorking own) (decode : Op (Session TableEngine) Solution) := by
  unfold decode
  refine requireModel_moves.bind fun _ => variableCount_works.bind fun n => ?_
  refine (Moves.settle _).bind fun bound => ?_
  refine (variablesBelow_moves bound).bind fun count => ?_
  refine Moves.collect (fun index => ?_) count 1
  exact (polarity_works index).bind fun v => .settle _

/-- A buffer is found apart from the tables, or none is. -/
theorem scratchFor_works (h : Working own p)
    (hscratch : ∀ b ∈ scratch, b ∉ own) (n : Nat) :
    Ends (fun buffer q => buffer ∉ own ∧ Working own q)
      (fun _ q => Working own q) (scratchFor scratch (.int (n + 1)) p) := by
  obtain ⟨s, host⟩ := p
  obtain ⟨search, t, ht⟩ := h.tallies
  have htables : s.engine.tables = own := h.tables
  have hasked : Working own ⟨s, host.asked⟩ :=
    Tallied.elsewhere h ⟨rfl, rfl, rfl, rfl, rfl⟩ fun _ _ => rfl
  rw [scratchFor_eq ht.plain]
  cases scratch with
  | none =>
      dsimp only
      split
      next => exact hasked
      next =>
        have hnew : ∀ b ∈ own, b ≠ host.heap.blocks.size := fun b hb =>
          Nat.ne_of_lt (ht.keeps.seated.tables_handed b (htables ▸ hb))
        refine ⟨fun hmem => hnew _ hmem rfl,
          Tallied.elsewhere h ⟨rfl, rfl, rfl, rfl, rfl⟩ fun b hb => ?_⟩
        show (host.heap.granted (n + 1)).contents b = _
        rw [Heap.contents_granted, if_neg (hnew b hb)]
  | some b =>
      have hapart : b ∉ own := hscratch b rfl
      dsimp only
      split
      next => exact ⟨hapart, h⟩
      next =>
        split
        next => exact hasked
        next =>
          refine ⟨hapart,
            Tallied.elsewhere h ⟨rfl, rfl, rfl, rfl, rfl⟩ fun c hc => ?_⟩
          show (host.heap.resized b (n + 1)).contents c = _
          have hne : c ≠ b := fun hcb => hapart (hcb ▸ hc)
          rw [Heap.contents_resized, if_neg fun hcb => hne hcb.1]

/-- A byte in a buffer that is no table of the engine. -/
theorem poke_works (hapart : buffer ∉ own) (i : Nat) (byte : UInt8) :
    Moves (StaysWorking own)
      (Op.onHost (Host.onHeap (Heap.poke buffer i byte))) := by
  refine moves_retains fun p h => ?_
  rw [Op.ends_onHost, Host.ends_onHeap]
  refine (poke_ends ..).imp ?_ ?_
  · rintro _ heap rfl
    refine Tallied.elsewhere h ⟨rfl, rfl, rfl, rfl, rfl⟩ fun b hb => ?_
    show (p.host.heap.poked ..).contents b = _
    have hne : b ≠ buffer := fun hbb => hapart (hbb ▸ hb)
    rw [Heap.contents_poked, if_neg fun hbb => hne hbb.1]
  · rintro f heap rfl
    exact h

/-- A polarity is noted outside of the tables. -/
theorem notePolarity_works (hapart : buffer ∉ own) (index : Nat) :
    Moves (StaysWorking own) (notePolarity buffer index) := by
  unfold notePolarity
  refine (polarity_works index).bind fun v => ?_
  exact (Moves.settle _).bind fun positive => poke_works hapart _ _

/-- A literal of the blocking clause is a literal like any other. -/
theorem addOpposite_works (index : Nat) :
    Moves (StaysWorking own) (addOpposite buffer index) := by
  unfold addOpposite
  refine Moves.get.bind fun p => ?_
  cases p.host.heap.byte? buffer index with
  | none => exact .throw _
  | some byte =>
      exact onEngine_works (liveCall_moves (.number (.addLiteral _)))

/-- Blocking works in a buffer apart from the tables. -/
theorem block_works (hscratch : ∀ b ∈ scratch, b ∉ own) :
    Moves (StaysWorking own) (block scratch) := by
  refine moves_retains fun p h => ?_
  obtain ⟨s, host⟩ := p
  by_cases hready : s.destroyed = false ∧ s.last = some .satisfiable
  · obtain ⟨hintact, hlast⟩ := hready
    rw [block_of_ready hintact hlast, ends_bind]
    refine (scratchFor_works h hscratch _).imp ?_ fun _ _ hq => hq
    rintro buffer q ⟨hapart, hq⟩
    have hrest : Moves (StaysWorking own) (do
        Op.each (notePolarity buffer) s.engine.varCount 1
        Op.each (addOpposite buffer) s.engine.varCount 1
        onEngine Engine.terminateClause
        return buffer) := by
      refine (Moves.each (notePolarity_works hapart) _ 1).bind fun _ => ?_
      refine (Moves.each addOpposite_works _ 1).bind fun _ => ?_
      exact (onEngine_works (liveCall_moves
        (.number .terminateClause))).bind fun _ => .pure _
    exact (hrest q).imp (fun _ _ hr => hr hq) fun _ _ hr => hr hq
  · rw [not_and_or, Bool.not_eq_false] at hready
    obtain ⟨f, hrefused, -⟩ := @block_refused s host hready scratch
    rw [hrefused]
    exact h

/-- A session at work stays so until its tables are given back. -/
theorem UseCall.works {call : UseCall} (hproper : call.Proper own)
    (hends : call.ends = false) :
    Moves (StaysWorking own)
      (call.perform : Op (Session TableEngine) Unit) := by
  cases call with
  | reset => cases hends
  | session call =>
      cases call with
      | destroy => cases hends
      | invoke budget => exact (invoke_works budget).bind fun _ => .pure ()
      | decode => exact decode_works.bind fun _ => .pure ()
      | block scratch => exact (block_works hproper).bind fun _ => .pure ()
      | tell call => exact onEngine_works (liveCall_moves (.number call))

-- ============================================================== resting

/-- A session whose engine has been emptied. -/
def Resting (p : Placed (Session TableEngine)) : Prop :=
  Emptied p.object.engine

/-- What leaves the engine empty leaves its session at rest. -/
theorem onEngine_rests {op : Op TableEngine α} (h : Moves StaysEmptied op) :
    Moves (Retains Resting) (onEngine op) :=
  h.within fun _ _ _ hq => hq

theorem onHost_rests (op : HostOp α) :
    Moves (Retains Resting) (Op.onHost op) := by
  refine moves_retains fun p hp => ?_
  rw [Op.ends_onHost]
  exact (ends_true _).imp (fun _ _ _ => hp) fun _ _ _ => hp

/-- A session fills no engine that has been emptied. -/
theorem resting_allows : Allows (E := TableEngine) (Retains Resting) where
  variableCount := onEngine_rests (Moves.read.bind fun _ => .pure _)
  valueOf _ := onEngine_rests (valueOf_emptied _)
  addLiteral _ := onEngine_rests (addLiteral_emptied _)
  terminateClause := onEngine_rests terminateClause_emptied
  alloc _ := onHost_rests _
  realloc _ _ _ := onHost_rests _
  poke _ _ _ := onHost_rests _
  note _ := onHost_rests _
  update g hg s host hrests := by
    show Emptied (g s).engine
    rw [(hg s).2]
    exact hrests

/-- A session at rest can still be destroyed. -/
theorem destroy_rests :
    Moves (Retains Resting) (destroy : Op (Session TableEngine) Unit) := by
  unfold destroy
  refine Moves.read.bind fun s => .ite (.pure ()) ?_
  refine Moves.bind (Moves.update fun _ _ h => h) fun _ => ?_
  refine (onEngine_rests reset_emptied).bind fun _ => ?_
  exact Moves.read.bind fun s => onHost_rests _

/-- No call wakes a session at rest. -/
theorem UseCall.rests (call : UseCall) :
    Moves (Retains Resting)
      (call.perform : Op (Session TableEngine) Unit) := by
  have hallows := resting_allows
  cases call with
  | reset => exact onEngine_rests reset_emptied
  | session call =>
      cases call with
      | invoke budget =>
          exact (invoke_moves hallows.records
            (onEngine_rests (solve_emptied _))).bind fun _ => .pure ()
      | decode =>
          exact (decode_moves hallows.variableCount
            hallows.valueOf).bind fun _ => .pure ()
      | block scratch =>
          exact (block_moves hallows.toDeals scratch).bind fun _ => .pure ()
      | destroy => exact destroy_rests
      | tell call => exact onEngine_rests (numberCall_emptied call)

-- ================================================================= runs

/-- A session is at work, or its engine is empty. -/
inductive Standing (own : List BlockId) (p : Placed (Session TableEngine)) :
    Prop where
  | working (works : Working own p)
  | resting (rests : Resting p)

/-- Giving the tables back empties the engine, if it was not empty
before. -/
theorem Working.ends (h : Working own p) {call : UseCall}
    (hends : call.ends = true) :
    Ends (fun _ q => Standing own q) (fun _ q => Standing own q)
      (call.perform p) := by
  obtain ⟨s, host⟩ := p
  obtain ⟨search, t, ht⟩ := h.tallies
  have hs := ht.keeps.seated
  have hreset : ∀ s' : Session TableEngine, s'.engine = s.engine →
      onEngine Engine.reset ⟨s', host⟩
        = .ok () ⟨{ s' with engine := s.engine.gone },
          s.engine.tablesBack host⟩ := by
    intro s' hengine
    have hrun := reset_eq ht.plain h.takesBack hs
    rw [← hengine] at hrun ⊢
    exact onEngine_ok hrun
  cases call with
  | reset =>
      show Ends _ _ (onEngine Engine.reset ⟨s, host⟩)
      rw [hreset s rfl]
      exact .resting (emptied_gone _)
  | session call =>
      cases call with
      | destroy =>
          show Ends _ _ (Session.destroy ⟨s, host⟩)
          unfold Session.destroy
          rw [Op.read_bind_apply]
          split
          · exact .working h
          · have hrun := hreset { s with destroyed := true, last := none } rfl
            rw [Op.update_bind_apply, bind_of_ok hrun]
            exact .resting (emptied_gone _)
      | _ => cases hends

/-- Whatever is called, a session is at work or at rest afterwards. -/
theorem Standing.perform (h : Standing own p) {call : UseCall}
    (hproper : call.Proper own) :
    Ends (fun _ q => Standing own q) (fun _ q => Standing own q)
      (call.perform p) := by
  cases h with
  | resting hrests =>
      exact (UseCall.rests call p).imp (fun _ _ hq => .resting (hq hrests))
        fun _ _ hq => .resting (hq hrests)
  | working hworks =>
      by_cases hends : call.ends = true
      · exact hworks.ends hends
      · have hlasts := UseCall.works hproper (Bool.eq_false_iff.mpr hends)
        exact (hlasts p).imp (fun _ _ hq => .working (hq hworks))
          fun _ _ hq => .working (hq hworks)

/-- What single calls keep, runs keep. -/
theorem afterTurns_keeps (good : Placed (Session TableEngine) → Prop)
    (allowed : UseCall → Prop)
    (hstep : ∀ call p, allowed call → good p →
      Ends (fun _ => good) (fun _ => good) (call.perform p))
    (calls : List UseCall) (hcalls : ∀ call ∈ calls, allowed call) :
    ∀ p, good p → good (afterTurns UseCall.perform calls p) := by
  induction calls with
  | nil => exact fun p h => h
  | cons call calls ih =>
      intro p h
      refine ih (fun c hc => hcalls c (List.mem_cons_of_mem _ hc)) _ ?_
      rcases Turn.take_of_ends
        (hstep call p (hcalls call List.mem_cons_self) h) with
        ⟨-, hafter⟩ | ⟨f, -, hafter⟩
      · exact hafter
      · exact hafter

-- ============================================================= creation

/-- Loading keeps the account, however far it gets. -/
theorem load_tallied (config : Config) (v : Value) :
    Moves (StaysTallied own) (load config v : Op TableEngine Nat) := by
  have hnumber : ∀ call : NumberCall,
      Moves (StaysTallied own) (call.perform : Op TableEngine Unit) :=
    fun call => liveCall_moves (.number call)
  unfold load
  refine (liveCall_moves (.side (.setVerbosity config.verbose))).bind
    fun _ => ?_
  refine .when (hnumber (.reserveVariables config.vars)) ?_
  refine .when (hnumber (.setPropagationLimit config.propLimit)) ?_
  refine (loadClauses_moves ⟨fun l => hnumber (.addLiteral l),
    hnumber .terminateClause⟩ v).bind fun count => ?_
  refine .ite ?_ (.pure count)
  refine writeProblem_tallied.bind fun text => ?_
  refine Moves.bind (moves_retains fun p h => ?_) fun _ => .pure count
  exact h.elsewhere ⟨rfl, rfl, rfl, rfl, rfl⟩ fun _ _ => rfl

/-- A session that was opened is at work. -/
theorem working_of_created (hp : host.Plain) (ht : host.TakesBack)
    {search : Search} {config : Config} {v : Value}
    (hmade : create (TableEngine.create search) config v host
      = .ok s host') : Working s.engine.tables ⟨s, host'⟩ := by
  have hends : Ends (fun s host' => Working s.engine.tables ⟨s, host'⟩)
      (fun _ _ => True)
      (create (TableEngine.create search) config v host) := by
    unfold create
    rw [ends_bind]
    cases hengine : TableEngine.create search host with
    | error f host₁ => exact trivial
    | ok e host₁ =>
        have hfresh := made_of_create hp hengine
        have htallied : Tallied e.tables ⟨e, host₁⟩ :=
          ⟨⟨search, {}, (hfresh.inUse hp).tallies⟩,
            ht.of_sameRules hfresh.holding.rules, rfl⟩
        have hload : Moves (StaysTallied e.tables)
            (load config v : Op TableEngine Nat) := load_tallied config v
        rw [ends_ok, ends_bind, Op.ends_on]
        unfold prepare
        rw [ends_bind, Op.ends_orRelease]
        refine (hload ⟨e, host₁⟩).imp ?_ ?_
        · intro count q hq
          have hq := hq htallied
          have htables : q.object.tables = e.tables := hq.tables
          rw [← htables] at hq
          rw [noteCount_eq]
          exact hq.elsewhere ⟨rfl, rfl, rfl, rfl, rfl⟩ fun _ _ => rfl
        · intro f q _
          exact ends_true _
  rw [hmade] at hends
  exact hends

/-- Whatever is called of a session or behind its back, it is at work or
its engine is empty. -/
theorem standing_of_created (hp : host.Plain) (ht : host.TakesBack)
    {search : Search} {config : Config} {v : Value}
    (hmade : create (TableEngine.create search) config v host
      = .ok s host')
    (calls : List UseCall)
    (hproper : ∀ call ∈ calls, call.Proper s.engine.tables) :
    Standing s.engine.tables
      (afterTurns UseCall.perform calls ⟨s, host'⟩) :=
  afterTurns_keeps (Standing s.engine.tables)
    (fun call => call.Proper s.engine.tables)
    (fun _ _ hcall h => h.perform hcall) calls hproper _
    (.working (working_of_created hp ht hmade))

/-- As long as the tables are not given back it is at work. -/
theorem working_afterTurns (hp : host.Plain) (ht : host.TakesBack)
    {search : Search} {config : Config} {v : Value}
    (hmade : create (TableEngine.create search) config v host
      = .ok s host')
    (calls : List UseCall)
    (hproper : ∀ call ∈ calls, call.Proper s.engine.tables
      ∧ call.ends = false) :
    Working s.engine.tables
      (afterTurns UseCall.perform calls ⟨s, host'⟩) :=
  afterTurns_keeps (Working s.engine.tables)
    (fun call => call.Proper s.engine.tables ∧ call.ends = false)
    (fun _ p hcall h => (UseCall.works hcall.1 hcall.2 p).imp
      (fun _ _ hq => hq h) fun _ _ hq => hq h)
    calls hproper _ (working_of_created hp ht hmade)

end Session

end SatSession
