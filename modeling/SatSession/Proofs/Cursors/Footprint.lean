/-
What an engine and an enumeration hold, told from the problem alone.

However an engine came to its tables, by reservations, literals and
terminators in whatever order and with whatever growths denied on the way,
it holds the least tables for its variables and its words. How many words
there are is told by the calls that succeeded: one for each literal and
each terminator (`TableEngine.Made.used`).

A cursor that has produced `k` lists over `n` variables has, beside the
clauses of the problem, `k` clauses of `n` literals in its store, and from
the first list on a buffer of `n + 1` bytes (`Running.took`). So what it
holds is known from the numbers of variables, clauses and literals and
from `k`, without running it (`footprint_known`).
-/
import SatSession.Proofs.Cursors.Advancing
import SatSession.Proofs.Tables.Usage

namespace SatSession

open TableEngine

variable {host : Host}

/-- The words of closed clauses: their literals, and a zero for each. -/
theorem length_closedWords (clauses : List (List Int)) :
    (closedWords clauses).length
      = (clauses.map List.length).sum + clauses.length := by
  induction clauses with
  | nil => rfl
  | cons c clauses ih =>
      have hcons : (closedWords (c :: clauses)).length
          = c.length + 1 + (closedWords clauses).length := by
        simp [closedWords]
        omega
      rw [hcons, ih, List.map_cons, List.sum_cons, List.length_cons]
      omega

-- ============================================================== cursors

namespace Cursor

variable {search : Search} {limit : Int} {n k : Nat}
  {clauses : List (List Int)} {base host : Host} {c : Cursor TableEngine}

/-- A cursor that has ruled out a number of lists. -/
structure Took (search : Search) (limit : Int) (n k : Nat)
    (clauses : List (List Int)) (base : Host) (p : Placed (Cursor TableEngine))
    (blocked : List (List Int)) : Prop where
  running : Running search limit n (clauses ++ blocked) base p.object p.host
  count : blocked.length = k
  total : ∀ b ∈ blocked, b.length = n

/-- If as many lists come as were asked for, they have been ruled out, and
there is a buffer if there was one or one list has come. On a generous
host no advance fails but for a number of variables beyond all literals. -/
theorem Running.took : ∀ {k : Nat} {clauses : List (List Int)}
    {c : Cursor TableEngine} {host : Host},
    Running search limit n clauses base c host →
    Ends (fun solutions p => solutions.length = k →
        (∃ blocked, Took search limit n k clauses base p blocked)
        ∧ p.object.scratch.isSome = (c.scratch.isSome || decide (1 ≤ k)))
      (fun _ _ => base.Generous → ¬ (n : Int) ≤ Word.literalMax)
      (take k ⟨c, host⟩) := by
  intro k
  induction k with
  | zero =>
      intro clauses c host h _
      exact ⟨⟨[], by simpa using h, rfl, by simp⟩, by simp⟩
  | succ k ih =>
      intro clauses c host h
      unfold take
      rw [ends_bind]
      refine (next_ends h).imp ?_ fun f p hfailed hg =>
        hfailed.unfit (hg.of_sameRules h.holding.rules)
      intro r p hpost
      rcases hpost with ⟨literals, rfl, hproduced⟩ | ⟨rfl, -⟩
      · obtain ⟨a, -, -, hrunning⟩ := hproduced.found
        rw [ends_bind]
        refine (ih hrunning).imp ?_ fun _ _ h => h
        intro rest q hq hlength
        obtain ⟨⟨blocked, htook⟩, hbuffer⟩ :=
          hq (Nat.succ.inj (by simpa using hlength))
        refine ⟨⟨(signedList a n).map (- ·) :: blocked, ?_, ?_, ?_⟩, ?_⟩
        · simpa using htook.running
        · rw [List.length_cons, htook.count]
        · intro b hb
          rcases List.mem_cons.mp hb with rfl | hb
          · simp
          · exact htook.total b hb
        · rw [hbuffer, hproduced.buffered]
          simp
      · intro hlength
        cases hlength

/-- What a running cursor holds. -/
theorem Running.held (h : Running search limit n clauses base c host) :
    host.heap.inUse = base.heap.inUse
        + footprint n (closedWords clauses).length
        + (if c.scratch.isSome then n + 1 else 0)
      ∧ host.heap.live
        = base.heap.live + if c.scratch.isSome then 3 else 2 := by
  have hlive := h.live
  have hheld := hlive.fitted.held hlive.keeps.seated
  have hstored := hlive.keeps.stored_eq
  rw [Draft.words, List.append_nil] at hstored
  rw [hlive.vars, hstored] at hheld
  have hbooks := h.holding.books
  have hblocks := h.holding.live
  rw [known, Heap.held_append, hheld] at hbooks
  rw [known, List.length_append] at hblocks
  have hsize := h.scratch
  cases hscratch : c.scratch with
  | none =>
      rw [hscratch] at hbooks hblocks
      exact ⟨by simpa using hbooks, by simpa [tables] using hblocks⟩
  | some b =>
      rw [hscratch] at hbooks hblocks hsize
      have hb := hsize b rfl
      refine ⟨?_, by simpa [tables] using hblocks⟩
      simp only [Option.toList_some, Heap.held_cons, Heap.held_nil, hb]
        at hbooks
      simp only [Option.isSome_some, if_true]
      omega

/-- The words of a problem and of what has been ruled out. -/
theorem Took.length_words {p : Placed (Cursor TableEngine)}
    {blocked : List (List Int)}
    (h : Took search limit n k clauses base p blocked) :
    (closedWords (clauses ++ blocked)).length
      = (clauses.map List.length).sum + clauses.length + k * (n + 1) := by
  have hlengths : blocked.map List.length = List.replicate k n :=
    List.eq_replicate_iff.mpr ⟨by rw [List.length_map, h.count], by
      intro m hm
      obtain ⟨b, hb, rfl⟩ := List.mem_map.mp hm
      exact h.total b hb⟩
  rw [length_closedWords, List.map_append, List.sum_append,
    List.length_append, hlengths, List.sum_replicate_nat, h.count,
    Nat.mul_add, Nat.mul_one]
  omega

end Cursor

-- ========================================================== both of them

/-- What is held is known beforehand. A live engine holds the least tables
for its variables and for the literals and terminators that it was given
with success, whatever else was called and whatever was refused. A cursor
that has produced `k` lists over `n` variables holds the least tables for
these variables, the input and `k` clauses more, and from the first list
on a buffer. -/
theorem footprint_known (hp : host.Plain) (search : Search) :
    (∀ e host₁, TableEngine.create search host = .ok e host₁ →
        ∀ calls : List LiveCall,
          let p := afterTurns LiveCall.perform calls ⟨e, host₁⟩
          let stored := (Turn.succeeded
            (turns LiveCall.perform calls ⟨e, host₁⟩)).countP
              LiveCall.stores
          p.host.heap.size p.object.values = room p.object.varCount + 1
            ∧ p.host.heap.size p.object.store = 4 * room stored
            ∧ p.host.heap.inUse = host.heap.inUse
                + (room p.object.varCount + 1 + 4 * room stored : Nat)
            ∧ p.host.heap.live = host.heap.live + 2)
      ∧ (host.TakesBack → ∀ v vars verbose propLimit : Value,
          Ends
            (fun c host₁ => ∃ config cs,
              Config.build vars verbose propLimit = .ok config
              ∧ v.IsClauseSet cs
              ∧ ∀ k : Nat,
                let n := variablesOf config.vars cs
                let words := (cs.map List.length).sum + cs.length
                  + k * (n + 1)
                Ends
                  (fun solutions p => solutions.length = k →
                    p.host.heap.inUse = host.heap.inUse
                        + (room n + 1 + 4 * room words : Nat)
                        + (if 1 ≤ k then n + 1 else 0)
                      ∧ p.host.heap.live
                        = host.heap.live + if 1 ≤ k then 3 else 2)
                  (fun _ _ => host.Generous →
                    ¬ (n : Int) ≤ Word.literalMax)
                  (Cursor.take k ⟨c, host₁⟩))
            (fun _ _ => host.Generous →
              ¬ ((∃ config,
                Config.build vars verbose propLimit = .ok config)
                ∧ v.WellFormed))
            (enumerate (TableEngine.create search) v vars verbose propLimit
              host)) := by
  have hbytes : ∀ vars words,
      footprint vars words = room vars + 1 + 4 * room words := fun _ _ => by
    rw [footprint, valueBytes, storeBytes, Word.width, Nat.mul_comm 4]
  refine ⟨fun e host₁ hmade calls => ?_,
    fun ht v vars verbose propLimit => ?_⟩
  · intro p stored
    -- an engine in use: all is read off the tally of its calls
    obtain ⟨t, ht, hstored, -⟩ := (made_of_create hp hmade).used hp calls
    have hstored : t.draft.words.length = stored := hstored
    have hreadout : readout p = t.readout := ht.tallies.readout_eq
    have hvars : p.object.varCount = t.vars := ht.tallies.vars
    have hheld := ht.held
    rw [hbytes, ← hvars, hstored] at hheld
    refine ⟨?_, ?_, hheld.1, hheld.2⟩
    · rw [hvars]
      exact congrArg Readout.valueBytes hreadout
    · have hstore := congrArg Readout.storeBytes hreadout
      rw [Nat.mul_comm, ← hstored]
      exact hstore
  · refine (Cursor.enumerate_ends hp ht search v vars verbose
      propLimit).imp ?_ fun f host₁ hnot => hnot.unfit
    intro c host₁ hpost
    obtain ⟨config, cs, hconfig, hcs, hstarted⟩ := hpost
    refine ⟨config, cs, hconfig, hcs, fun k => ?_⟩
    refine hstarted.running.took.imp ?_ fun _ _ h => h
    intro solutions p hpost hlength
    -- each list has left one clause of all variables, and the buffer
    obtain ⟨⟨blocked, htook⟩, hbuffer⟩ := hpost hlength
    have hheld := htook.running.held
    rw [hbuffer, hstarted.unbuffered, htook.length_words, hbytes] at hheld
    simpa using hheld

/-- Seventeen variables are one more than a table starts with: with one
clause of one literal an engine holds 33 and 64 bytes, and a cursor over
no clauses that has produced one list holds 33, 128 and 18. -/
theorem footprint_known_seventeen_variables :
    let search : Search := fun _ _ => .sat fun _ => false
    let start := Host.boundless
    let calls : List LiveCall :=
      [.number (.reserveVariables 17), .number (.addLiteral (-3)),
        .number .terminateClause]
    let made := (start.given 17).given 64
    let p := afterTurns LiveCall.perform calls ⟨fresh search 0 1, made⟩
    (p.host.heap.inUse = 97 ∧ p.host.heap.live = 2)
      ∧ Ends
          (fun c host₁ => Ends
            (fun solutions q => solutions.length = 1
              ∧ q.host.heap.inUse = 179 ∧ q.host.heap.live = 3)
            never (Cursor.take 1 ⟨c, host₁⟩))
          never
          (enumerate (TableEngine.create search) (.seq .list []) (.int 17)
            (.int 0) (.int 0) start) := by
  intro search start calls made
  have hg : start.Generous := Host.generous_boundless
  have hknown := footprint_known hg.plain search
  have hsmall : room 2 = 16 := by decide +kernel
  have hlarge : room 17 = 32 := by decide +kernel
  refine ⟨?_, ?_⟩
  · have hmade : TableEngine.create search start
        = .ok (fresh search 0 1) made := rfl
    have hrun : (afterTurns LiveCall.perform calls
          ⟨fresh search 0 1, made⟩).object.varCount = 17
        ∧ (Turn.succeeded (turns LiveCall.perform calls
            ⟨fresh search 0 1, made⟩)).countP LiveCall.stores = 2 := by
      decide +kernel
    have hheld := (hknown.1 _ _ hmade calls).2.2
    simp only [hrun.1, hrun.2, hsmall, hlarge] at hheld
    exact hheld
  · have hrun : Ends
        (fun c host₁ => Ends (fun solutions _ => solutions.length = 1)
          (fun _ _ => False) (Cursor.take 1 ⟨c, host₁⟩))
        (fun _ _ => False)
        (enumerate (TableEngine.create search) (.seq .list []) (.int 17)
          (.int 0) (.int 0) start) := by decide +kernel
    refine (hrun.and (hknown.2 hg.takesBack (.seq .list []) (.int 17) (.int 0)
      (.int 0))).imp ?_ fun _ _ h => h.1
    intro c host₁ hpost
    obtain ⟨hone, config, cs, hconfig, hcs, hheld⟩ := hpost
    have hcs : cs = [] := hcs.unique ⟨_, rfl, .nil⟩
    have hconfig : config = ⟨17, 0, 0⟩ := (Except.ok.inj hconfig).symm
    subst hcs hconfig
    refine (hone.and (hheld 1)).imp ?_ fun _ _ h => h.1
    intro solutions q hpost
    obtain ⟨hlength, hq⟩ := hpost
    have hwords : room 18 = 32 := by decide +kernel
    have hvars : variablesOf 17 [] = 17 := rfl
    have hq := hq hlength
    simp only [hvars, List.map_nil, List.sum_nil, List.length_nil,
      Nat.reduceAdd, Nat.reduceMul, hwords, hlarge] at hq
    exact ⟨hlength, hq⟩

end SatSession
