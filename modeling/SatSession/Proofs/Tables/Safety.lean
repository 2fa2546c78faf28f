/-
The tables of an engine are never used outside their bounds.

An engine keeps the sizes of its two blocks, how many variables exist, how
many words are stored and where the open clause begins. They change at
different moments of a call, and a growth may be denied between any two.
Between the calls they fit together all the same (`Safe`), so that no byte
or word is looked for where there is none, and every block is called by
its right size when it is resized or given back: the three faults that
would tell otherwise do not occur (`tables_kept`).

A request that is refused by the plan of a host does not reach the memory,
and the size stated with it is not looked at. But the plan is arbitrary,
and what an engine states does not depend on how its request is decided;
under the plan that lets the request through the size is looked at.

A reset gives both blocks back, once; from then on nothing is asked of the
host any more, whatever is called.
-/
import SatSession.Proofs.Tables.Incremental
import SatSession.Proofs.Tables.Usage

namespace SatSession

/-- A place outside a table was used, or a block called by a wrong
size. -/
inductive Fault.TableMismatch : Fault → Prop where
  | index : TableMismatch .indexRange
  | word : TableMismatch .unstorable
  | size (request : SizedRequest) (size : Nat) (claimed : Value) :
      TableMismatch (.blockSize request size claimed)

/-- Any call of an engine. -/
inductive TableCall where
  | live (call : LiveCall)
  | reset
  deriving DecidableEq, Repr

/-- Makes a call. -/
def TableCall.perform : TableCall → Op TableEngine Unit
  | live call => call.perform
  | reset => Engine.reset

namespace TableEngine

variable {e : TableEngine} {base host host' : Host} {search : Search}
  {t : Tally} {own : List BlockId} {p q : Placed TableEngine}

-- ============================================================ one call

/-- An engine in use since `base`, with its tables `own` in order. -/
structure InOrder (search : Search) (t : Tally) (own : List BlockId)
    (base : Host) (p : Placed TableEngine) : Prop
    extends InUse search t own base p where
  takesBack : p.host.TakesBack
  frees : p.host.frees = base.frees

/-- An engine that has given its tables `own` back. -/
structure Cleared (own : List BlockId) (base : Host)
    (p : Placed TableEngine) : Prop where
  spent : Spent p.object
  empty : ∀ b ∈ own, p.host.heap.size b = 0
  holding : Host.Holding [] base p.host
  frees : p.host.frees = base.frees + 2

/-- The tables are in order, or given back if there was a reset. -/
inductive Safe (search : Search) (own : List BlockId) (base : Host)
    (calls : List TableCall) (p : Placed TableEngine) : Prop where
  | live (t : Tally) (ordered : InOrder search t own base p)
      (unreset : .reset ∉ calls)
  | cleared (cleared : Cleared own base p) (reset : .reset ∈ calls)

/-- The order is kept where the tables are. -/
theorem InOrder.moved (h : InOrder search t own base p) {t' : Tally}
    (ht : Tallies search t' q) (hm : Moved p.object p.host q) :
    InOrder search t' own base q where
  toInUse := h.toInUse.moved ht hm
  takesBack := h.takesBack.of_sameRules hm.within.rules
  frees := hm.within.frees.trans h.frees

/-- A call other than a reset keeps the tables in order, whether or not it
is made. -/
theorem InOrder.perform (h : InOrder search t own base p)
    (call : LiveCall) :
    Ends (fun _ q => ∃ t', InOrder search t' own base q)
      (fun f q => (∃ t', InOrder search t' own base q) ∧ ¬ f.TableMismatch)
      (call.perform p) := by
  cases call with
  | number call =>
      refine (h.tallies.perform call).imp ?_ ?_
      · exact fun _ q hq => ⟨_, h.moved hq.tallies hq.moved⟩
      · intro f q hq
        cases hq with
        | range unfit hfault hrest =>
            obtain ⟨n, -, rfl⟩ := hfault
            exact ⟨⟨t, hrest ▸ h⟩, nofun⟩
        | denied use fits hfault ungenerous tallies moved =>
            rw [hfault]
            exact ⟨⟨_, h.moved tallies moved⟩, nofun⟩
  | side call =>
      refine (h.tallies.side call).imp ?_ ?_
      · exact fun _ q hq => ⟨t, h.moved hq.1 hq.2⟩
      · intro f q hq
        obtain ⟨rfl, hfault⟩ := hq
        refine ⟨⟨t, h⟩, ?_⟩
        rcases hfault with rfl | ⟨i, count, rfl⟩ <;> exact nofun

/-- A reset succeeds, and gives both tables back. -/
theorem InOrder.reset (h : InOrder search t own base p) :
    Ends (fun _ q => Cleared own base q) never (reset p) := by
  obtain ⟨e, host⟩ := p
  have hfrees : host.frees = base.frees := h.frees
  have htables : e.tables = own := h.tables
  have hholding := h.holding
  rw [← htables, ← List.append_nil e.tables] at hholding
  rw [reset_eq h.tallies.plain h.takesBack h.tallies.keeps.seated]
  refine ⟨⟨rfl, rfl⟩, ?_, holding_tablesBack hholding, ?_⟩
  · intro b hb
    have hb : b = e.values ∨ b = e.store := by
      rw [← htables] at hb
      simpa [TableEngine.tables] using hb
    show ((host.heap.released e.values).released e.store).size b = 0
    rw [Heap.size_released, Heap.size_released]
    rcases hb with rfl | rfl <;> simp
  · show host.frees + 1 + 1 = _
    rw [hfrees]

/-- One call of an engine with its tables in order. -/
theorem InOrder.turn (h : InOrder search t own base p) (call : TableCall) :
    Ends (fun _ q => Safe search own base [call] q)
      (fun f q => Safe search own base [call] q ∧ ¬ f.TableMismatch)
      (call.perform p) := by
  cases call with
  | live call =>
      refine (h.perform call).imp ?_ ?_
      · intro _ q hex
        obtain ⟨t', ht'⟩ := hex
        exact .live t' ht' (by simp)
      · intro f q hq
        obtain ⟨⟨t', ht'⟩, hproper⟩ := hq
        exact ⟨.live t' ht' (by simp), hproper⟩
  | reset =>
      show Ends _ _ (TableEngine.reset p)
      exact h.reset.imp_ok fun _ q hq => .cleared hq (by simp)

/-- A call of an engine without tables is refused, unless it is another
reset or sets a limit. -/
theorem Cleared.perform (h : Cleared own base p) (call : EngineCall) :
    Ends (fun _ q => Cleared own base q)
      (fun f q => Cleared own base q ∧ ¬ f.TableMismatch)
      (call.perform p) := by
  refine (h.spent.perform call).imp ?_ ?_
  · intro _ q hq
    obtain ⟨hspent, -, -, hhost⟩ := hq
    exact ⟨hspent, hhost ▸ h.empty, hhost ▸ h.holding, hhost ▸ h.frees⟩
  · intro f q hq
    rw [hq.1, hq.2]
    exact ⟨h, nofun⟩

/-- Without tables there is nothing to look at. -/
theorem Cleared.side (h : Cleared own base p) (call : SideCall) :
    Ends (fun _ q => Cleared own base q)
      (fun f q => Cleared own base q ∧ ¬ f.TableMismatch)
      (call.perform p) := by
  obtain ⟨e, host⟩ := p
  have hdead : e.live = false := h.spent.dead
  have hclauses : clauses ⟨e, host⟩ = .error .wrongKind ⟨e, host⟩ := by
    unfold TableEngine.clauses
    rw [Op.read_bind_apply]
    simp only [hdead, Bool.not_false, if_true]
    rfl
  cases call with
  | setVerbosity level =>
      exact ⟨⟨hdead, h.spent.flag⟩, h.empty, h.holding, h.frees⟩
  | valueOf i =>
      show Ends _ _ ((TableEngine.valueOf (.int i) >>= fun _ => pure ())
        ⟨e, host⟩)
      rw [bind_of_error (valueOf_noModel h.spent.flag _)]
      exact ⟨h, nofun⟩
  | clauses =>
      show Ends _ _ ((TableEngine.clauses >>= fun _ => pure ()) ⟨e, host⟩)
      rw [bind_of_error hclauses]
      exact ⟨h, nofun⟩
  | writeProblem =>
      show Ends _ _ ((TableEngine.writeProblem >>= fun _ => pure ())
        ⟨e, host⟩)
      unfold TableEngine.writeProblem
      rw [bind_of_error (bind_of_error hclauses)]
      exact ⟨h, nofun⟩

/-- What has been given back stays so, whatever is called. -/
theorem Cleared.turn (h : Cleared own base p) (call : TableCall) :
    Ends (fun _ q => Cleared own base q)
      (fun f q => Cleared own base q ∧ ¬ f.TableMismatch)
      (call.perform p) := by
  cases call with
  | reset => exact h.perform .reset
  | live call =>
      cases call with
      | number call => exact h.perform (.number call)
      | side call => exact h.side call

-- ================================================================ runs

/-- One call more. -/
theorem Safe.turn {calls : List TableCall} (h : Safe search own base calls p)
    (call : TableCall) :
    Ends (fun _ q => Safe search own base (calls ++ [call]) q)
      (fun f q => Safe search own base (calls ++ [call]) q ∧ ¬ f.TableMismatch)
      (call.perform p) := by
  cases h with
  | live t hordered hunreset =>
      have hmore : ∀ q, Safe search own base [call] q →
          Safe search own base (calls ++ [call]) q := by
        intro q hq
        cases hq with
        | live t' hordered' hcall =>
            exact .live t' hordered' (by simpa [hunreset] using hcall)
        | cleared hcleared hcall =>
            exact .cleared hcleared (List.mem_append_right _ hcall)
      exact (hordered.turn call).imp (fun _ q hq => hmore q hq)
        fun f q hq => ⟨hmore q hq.1, hq.2⟩
  | cleared hcleared hreset =>
      have hreset := List.mem_append_left [call] hreset
      exact (hcleared.turn call).imp (fun _ q hq => .cleared hq hreset)
        fun f q hq => ⟨.cleared hq.1 hreset, hq.2⟩

/-- A new engine is safe before anything is called. -/
theorem Made.safe (h : Made search host e host') (hp : host.Plain)
    (ht : host.TakesBack) : Safe search e.tables host [] ⟨e, host'⟩ :=
  .live {} ⟨h.inUse hp, ht.of_sameRules h.holding.rules, h.frees⟩ (by simp)

/-- The variable of every word in the store exists. -/
theorem Keeps.words_known {d : Draft} {h : Heap} (hk : Keeps d e h) :
    ∀ w ∈ e.words h, w.natAbs ≤ e.varCount := by
  have hknown : ∀ c ∈ d.clauses, ∀ l ∈ c, l.natAbs ≤ e.varCount :=
    fun c hc l hl => (hk.admitted c hc l hl).exists_var
  intro w hw
  rw [hk.words, Draft.words, closedWords] at hw
  rcases List.mem_append.mp hw with hw | hw
  · obtain ⟨c, hc, hw⟩ := List.mem_flatMap.mp hw
    rcases List.mem_append.mp hw with hw | hw
    · exact hknown c (List.mem_append_left _ hc) w hw
    · rw [List.mem_singleton.mp hw]
      exact Nat.zero_le _
  · exact hknown d.opened (by simp [Draft.clauses]) w hw

/-- Whatever is called in whatever order, and whatever memory is refused:
no place outside a table is used, and no block is called by a wrong size.
Until there is a reset the two tables are as large as the engine believes,
with room for all variables and all words, and the variable of every word
exists. From the first reset on both blocks are empty, each given back
once, and another reset does nothing. -/
theorem tables_kept (hp : host.Plain) (ht : host.TakesBack)
    {search : Search} (hmade : create search host = .ok e host')
    (calls : List TableCall) :
    let p := afterTurns TableCall.perform calls ⟨e, host'⟩
    (∀ turn ∈ turns TableCall.perform calls ⟨e, host'⟩, ∀ f ∈ turn.fault,
        ¬ f.TableMismatch)
      ∧ (.reset ∉ calls →
          Seated p.object p.host.heap
          ∧ (∀ w ∈ p.object.words p.host.heap,
              w.natAbs ≤ p.object.varCount)
          ∧ p.object.tables = e.tables
          ∧ p.host.frees = host.frees)
      ∧ (.reset ∈ calls →
          (∀ b ∈ e.tables, p.host.heap.size b = 0)
          ∧ p.host.frees = host.frees + 2
          ∧ p.host.heap.inUse = host.heap.inUse
          ∧ p.host.heap.live = host.heap.live
          ∧ reset p = .ok () p) := by
  intro p
  have hrun := turns_keep TableCall.perform
    (fun done p => Safe search e.tables host (done.map Turn.call) p
      ∧ ∀ turn ∈ done, ∀ f ∈ turn.fault, ¬ f.TableMismatch)
    ?_ calls [] ⟨e, host'⟩
    ⟨(made_of_create hp hmade).safe hp ht, by simp⟩
  · rw [List.nil_append, map_call_turns] at hrun
    obtain ⟨hsafe, hfaults⟩ := hrun
    refine ⟨hfaults, ?_⟩
    change Safe search e.tables host calls p at hsafe
    cases hsafe with
    | live t hordered hunreset =>
        have hk := hordered.tallies.keeps
        exact ⟨fun _ => ⟨hk.seated, hk.words_known, hordered.tables,
          hordered.frees⟩, fun hreset => absurd hreset hunreset⟩
    | cleared hcleared hreset =>
        have hbooks := hcleared.holding.books
        have hlive := hcleared.holding.live
        exact ⟨fun hunreset => absurd hreset hunreset, fun _ =>
          ⟨hcleared.empty, hcleared.frees, by simpa using hbooks,
            by simpa using hlive, reset_spent hcleared.spent⟩⟩
  · intro done p call hkept
    -- one turn more: the phase is kept, and its fault is no mismatch
    obtain ⟨hsafe, hfaults⟩ := hkept
    have hcall : (done ++ [Turn.take TableCall.perform call p]).map Turn.call
        = done.map Turn.call ++ [call] := by simp [Turn.call_take]
    rw [hcall]
    have hturn : Safe search e.tables host (done.map Turn.call ++ [call])
          (Turn.take TableCall.perform call p).after
        ∧ ∀ f ∈ (Turn.take TableCall.perform call p).fault,
          ¬ f.TableMismatch := by
      rcases Turn.take_of_ends (hsafe.turn call) with
        ⟨hfault, hafter⟩ | ⟨f, hfault, hafter, hproper⟩
      · exact ⟨hafter, by simp [hfault]⟩
      · exact ⟨hafter, by simpa [hfault] using hproper⟩
    refine ⟨hturn.1, fun turn hmem => ?_⟩
    rcases List.mem_append.mp hmem with hmem | hmem
    · exact hfaults turn hmem
    · rw [List.mem_singleton.mp hmem]
      exact hturn.2

/-- A reservation for which the memory is refused, a clause, a search and
two resets: before them the tables are in order, and at the end they are
back. -/
theorem tables_kept_two_resets :
    let start := Host.new ⟨(· == 3), fun _ => false, false⟩ none
    let search : Search := fun _ _ => .sat fun _ => true
    let calls : List TableCall :=
      [.live (.number (.addLiteral (-1))),
        .live (.number (.reserveVariables 17)),
        .live (.number .terminateClause), .live (.number (.solve (-1))),
        .live (.side (.valueOf 1)), .reset, .reset]
    let made := (start.given 17).given 64
    let q := afterTurns TableCall.perform (calls.take 5)
      ⟨fresh search 0 1, made⟩
    let p := afterTurns TableCall.perform calls ⟨fresh search 0 1, made⟩
    create search start = .ok (fresh search 0 1) made
      ∧ Seated q.object q.host.heap ∧ q.host.frees = 0
      ∧ p.host.heap.size 0 = 0 ∧ p.host.heap.size 1 = 0
      ∧ p.host.frees = 2 ∧ p.host.heap.inUse = 0 := by
  intro start search calls made
  have hmade : create search start = .ok (fresh search 0 1) made := rfl
  have hp : start.Plain := ⟨rfl, rfl, rfl⟩
  have ht : start.TakesBack := fun _ => rfl
  have hbefore := (tables_kept hp ht hmade (calls.take 5)).2.1 (by decide)
  have hafter := (tables_kept hp ht hmade calls).2.2 (by decide)
  generalize afterTurns TableCall.perform (calls.take 5)
    ⟨fresh search 0 1, made⟩ = q at hbefore ⊢
  generalize afterTurns TableCall.perform calls
    ⟨fresh search 0 1, made⟩ = p at hafter ⊢
  obtain ⟨hseated, -, -, hfrees⟩ := hbefore
  obtain ⟨hempty, hback, hinUse, -⟩ := hafter
  exact ⟨hmade, hseated, hfrees, hempty 0 (by simp [tables, fresh]),
    hempty 1 (by simp [tables, fresh]), hback, hinUse⟩

end TableEngine

end SatSession
