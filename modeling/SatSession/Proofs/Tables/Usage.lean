/-
An engine in use.

Between its construction and its reset an engine stays in its two blocks,
and its tally tells what it was told, whatever is called and whatever
becomes of it. A call with a number is made or declined; any other call
only looks at the engine, or sets how much it says (`InUse.turn`).

Two numbers are all that matters for the tables: how many words are
stored, and how many variables exist. Both can be told from the turns of a
run without looking at the engine (`Made.used`). A word is stored by each
literal and each terminator that succeeded. A variable is made known by a
call that succeeded, and also by a literal for which only the store was
denied memory.
-/
import SatSession.Proofs.Tables.Tally

namespace SatSession

-- ============================================================ the calls

/-- A call that tells an engine nothing about the problem. -/
inductive SideCall where
  | setVerbosity (level : Int)
  | valueOf (i : Int)
  | clauses
  | writeProblem
  deriving DecidableEq, Repr

/-- Makes a call; what it answers is dropped. -/
def SideCall.perform : SideCall → Op TableEngine Unit
  | setVerbosity level => Engine.setVerbosity (.int level)
  | valueOf i => do
      let _ ← TableEngine.valueOf (.int i)
  | clauses => do
      let _ ← TableEngine.clauses
  | writeProblem => do
      let _ ← TableEngine.writeProblem

/-- A call of an engine, other than a reset. -/
inductive LiveCall where
  | number (call : NumberCall)
  | side (call : SideCall)
  deriving DecidableEq, Repr

namespace LiveCall

/-- Makes a call. -/
def perform : LiveCall → Op TableEngine Unit
  | number call => call.perform
  | side call => call.perform

/-- Whether a call that succeeds stores a word. -/
def stores : LiveCall → Bool
  | number (.addLiteral _) | number .terminateClause => true
  | number (.reserveVariables _) | number (.setPropagationLimit _)
  | number (.solve _) | side _ => false

/-- The variables that a call has made known, with the fault that ended it
if there was one. -/
def known : LiveCall → Option Fault → Nat
  | number call, none => call.variables
  | number call, some (.outOfMemory use) => call.leaves use
  | number _, some _ | side _, _ => 0

end LiveCall

/-- The largest number of variables that a turn has made known. -/
def Turn.mostKnown {σ : Type} (turns : List (Turn LiveCall σ)) : Nat :=
  (turns.map fun u => u.call.known u.fault).foldl max 0

/-- A literal is one word more, and so is a terminator. -/
theorem Draft.length_words_told (d : Draft) (call : NumberCall) :
    (d.told call).words.length
      = d.words.length + if (LiveCall.number call).stores then 1 else 0 := by
  cases call with
  | addLiteral n =>
      by_cases hn : n = 0 <;>
        simp [told, hn, words_close, words_add, LiveCall.stores]
  | terminateClause => simp [told, words_close, LiveCall.stores]
  | _ => rfl

namespace TableEngine

variable {e : TableEngine} {base host host' : Host} {search : Search}
  {t t' : Tally} {own : List BlockId} {p q : Placed TableEngine}

-- =========================================================== side calls

/-- A side call changes no more than the verbosity; the only one that can
fail is to ask for a value. -/
theorem Tallies.side (h : Tallies search t p) (call : SideCall) :
    Ends (fun _ q => Tallies search t q ∧ Moved p.object p.host q)
      (fun f q => q = p
        ∧ (f = .noModel ∨ ∃ i count, f = .variableRange i count))
      (call.perform p) := by
  have hsame : Tallies search t p ∧ Moved p.object p.host p :=
    ⟨h, moved_set p.object p.host p.object.verbosity p.object.propagationLimit⟩
  have hclauses : TableEngine.clauses p = .ok t.draft.closed p :=
    h.keeps.clauses_eq
  cases call with
  | setVerbosity level =>
      obtain ⟨verbosity, hset⟩ := h.settings
      exact ⟨h.set ⟨rfl, hset.limit⟩,
        moved_set p.object p.host (.int level) p.object.propagationLimit⟩
  | valueOf i =>
      show Ends _ _ ((TableEngine.valueOf (.int i) >>= fun _ => pure ()) p)
      rw [ends_bind, h.valueOf_eq]
      unfold Tally.valueOf
      split
      next => exact ⟨rfl, .inl rfl⟩
      next a hshown =>
        split
        next => exact hsame
        next => exact ⟨rfl, .inr ⟨_, _, rfl⟩⟩
  | clauses =>
      show Ends _ _ ((TableEngine.clauses >>= fun _ => pure ()) p)
      rw [bind_of_ok hclauses]
      exact hsame
  | writeProblem =>
      show Ends _ _ ((TableEngine.writeProblem >>= fun _ => pure ()) p)
      rw [bind_of_ok h.keeps.writeProblem_eq]
      exact hsame

-- =============================================================== in use

/-- An engine in use since `base`, in the blocks `own`. -/
structure InUse (search : Search) (t : Tally) (own : List BlockId)
    (base : Host) (p : Placed TableEngine) : Prop where
  tallies : Tallies search t p
  tables : p.object.tables = own
  holding : Host.Holding own base p.host

/-- An engine whose tables are where they were is still in use. -/
theorem InUse.moved (h : InUse search t own base p)
    (ht : Tallies search t' q) (hm : Moved p.object p.host q) :
    InUse search t' own base q :=
  ⟨ht, hm.tables.trans h.tables, h.holding.within (h.tables ▸ hm.within)⟩

/-- What an engine holds is told by its tally. -/
theorem InUse.held (h : InUse search t own base p) :
    p.host.heap.inUse
        = base.heap.inUse + footprint t.vars t.draft.words.length
      ∧ p.host.heap.live = base.heap.live + 2 := by
  have hk := h.tallies.keeps
  have hheld := h.tallies.fitted.held hk.seated
  rw [h.tables, h.tallies.vars, hk.stored_eq] at hheld
  have hlive := h.holding.live
  rw [← h.tables] at hlive
  exact ⟨by rw [h.holding.books, hheld], hlive⟩

/-- What one call adds to the words and to the variables. -/
theorem InUse.turn (h : InUse search t own base p) (call : LiveCall) :
    ∃ t', InUse search t' own base (Turn.take LiveCall.perform call p).after
      ∧ t'.draft.words.length = t.draft.words.length
          + (Turn.succeeded [Turn.take LiveCall.perform call p]).countP
              LiveCall.stores
      ∧ t'.vars = max t.vars
          (call.known (Turn.take LiveCall.perform call p).fault) := by
  have hnone : t.vars = max t.vars 0 := (Nat.max_eq_left t.vars.zero_le).symm
  cases call with
  | number call =>
      rcases Turn.take_of_ends
          (show Ends _ _ (LiveCall.perform (.number call) p) from
            h.tallies.perform call) with
        ⟨hfault, hq⟩ | ⟨f, hfault, hq⟩
      · refine ⟨_, h.moved hq.tallies hq.moved, ?_, ?_⟩
        · rw [Tally.draft_told search t hq.fits, Draft.length_words_told,
            Turn.succeeded_ok hfault, Turn.call_take, List.countP_singleton]
        · rw [Tally.vars_told search t hq.fits, hfault]
          rfl
      · rw [Turn.succeeded_fault hfault, hfault]
        cases hq with
        | range unfit hf hrest =>
            obtain ⟨n, -, rfl⟩ := hf
            exact ⟨t, by rwa [hrest], rfl, hnone⟩
        | denied use fits hf ungenerous tallies moved =>
            rw [hf]
            exact ⟨_, h.moved tallies moved, rfl, rfl⟩
  | side call =>
      rcases Turn.take_of_ends
          (show Ends _ _ (LiveCall.perform (.side call) p) from
            h.tallies.side call) with
        ⟨hfault, htallies, hmoved⟩ | ⟨f, hfault, hrest, -⟩
      · refine ⟨t, h.moved htallies hmoved, ?_, hnone⟩
        rw [Turn.succeeded_ok hfault, Turn.call_take]
        rfl
      · refine ⟨t, by rwa [hrest], ?_, hnone⟩
        rw [Turn.succeeded_fault hfault]
        rfl

-- ================================================================= runs

/-- An engine that a creation answers is as the creation leaves it. -/
theorem made_of_create (hp : host.Plain)
    (hmade : create search host = .ok e host') :
    Made search host e host' := by
  have hfresh := create_ends hp search
  rwa [hmade] at hfresh

/-- A fresh engine has a tally of nothing. -/
theorem Made.inUse (h : Made search host e host') (hp : host.Plain) :
    InUse search {} e.tables host ⟨e, host'⟩ := by
  have hholding := h.holding
  obtain ⟨values, store, rfl⟩ := h.object
  exact ⟨⟨hp.of_sameRules hholding.rules, h.keeps, rfl, ⟨0, rfl, rfl⟩, rfl,
    rfl, fresh_exposes search h.zeros, fresh_fitted ..⟩, rfl, hholding⟩

/-- Whatever is called, an engine stays in use, and the turns tell how
many words it has stored and how many variables exist. -/
theorem Made.used (h : Made search host e host') (hp : host.Plain)
    (calls : List LiveCall) :
    ∃ t, InUse search t e.tables host
        (afterTurns LiveCall.perform calls ⟨e, host'⟩)
      ∧ t.draft.words.length = (Turn.succeeded
          (turns LiveCall.perform calls ⟨e, host'⟩)).countP LiveCall.stores
      ∧ t.vars
        = Turn.mostKnown (turns LiveCall.perform calls ⟨e, host'⟩) := by
  have hrun := turns_keep LiveCall.perform
    (fun done p => ∃ t, InUse search t e.tables host p
      ∧ t.draft.words.length
        = (Turn.succeeded done).countP LiveCall.stores
      ∧ t.vars = Turn.mostKnown done)
    ?_ calls [] ⟨e, host'⟩ ⟨{}, h.inUse hp, rfl, rfl⟩
  · exact hrun
  · intro done p call hex
    obtain ⟨t, ht, hwords, hvars⟩ := hex
    obtain ⟨t', ht', hwords', hvars'⟩ := ht.turn call
    refine ⟨t', ht', ?_, ?_⟩
    · rw [hwords', hwords, Turn.succeeded_append, List.countP_append]
    · rw [hvars', hvars]
      simp [Turn.mostKnown, Turn.call_take]

end TableEngine

end SatSession
