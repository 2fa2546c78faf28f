/-
What a call that fails leaves behind.

A literal out of range is refused before anything is done, and a call that
is denied memory for its variables, or for a terminator, has done nothing
but ask. One case is different. A literal needs its variable before it is
stored, so if the store is denied memory the variable has already been
made to exist. It stays, with the room that it may have needed in the
value table (`refused_call_leaves`). If there is an assignment on show the
new variable is read as false in it. The clauses, the open clause and the
values of all other variables are as before.

So it is not true that a failing call can never be noticed afterwards
(`not_always_unnoticed`), nor that the number of variables is the largest
given by a call that succeeded: literals for which only the store was
denied memory count too.
-/
import SatSession.Proofs.Tables.Usage

namespace SatSession

namespace TableEngine

-- ======================================================= more variables

/-- What is read off an engine when variables have come to exist up to a
number, none of them true. -/
def Readout.knowing (r : Readout) (n : Nat) : Readout :=
  { r with
    varCount := n
    valueOf := fun i =>
      if r.hasModel = true ∧ ¬ (1 ≤ i ∧ i ≤ r.varCount) then
        if r.varCount < i ∧ i ≤ n then .ok (.int (-1))
        else .error (.variableRange (.int i) n)
      else r.valueOf i
    valueBytes := TableEngine.valueBytes (room n) }

variable {e : TableEngine} {base host host' : Host} {search : Search}
  {t : Tally} {own : List BlockId} {p q : Placed TableEngine}

/-- More variables are read off as such. -/
theorem Tallies.readout_knowing (h : Tallies search t p) {n : Nat}
    (hn : t.vars ≤ n) : (t.knowing n).readout = t.readout.knowing n := by
  have hmax : max t.vars n = n := Nat.max_eq_right hn
  have hvalue : (t.knowing n).valueOf = (t.readout.knowing n).valueOf := by
    funext i
    show _ = if t.shown.isSome = true ∧ ¬ (1 ≤ i ∧ i ≤ t.vars) then
      if t.vars < i ∧ i ≤ n then .ok (.int (-1))
      else .error (.variableRange (.int i) n)
      else t.valueOf i
    unfold Tally.valueOf Tally.knowing
    rw [hmax]
    cases hshown : t.shown with
    | none => simp
    | some a =>
        by_cases hold : 1 ≤ i ∧ i ≤ t.vars
        · have hnew : 1 ≤ i ∧ i ≤ n := by omega
          simp [hold, hnew]
        · by_cases hnew : t.vars < i ∧ i ≤ n
          · have hfalse : a i.toNat = false :=
              h.exposes.beyond a hshown _ (by rw [h.vars]; omega)
            have hrange : 1 ≤ i ∧ i ≤ n := by omega
            simp [hnew, hrange, hfalse]
          · have hrange : ¬ (1 ≤ i ∧ i ≤ n) := by omega
            simp [hold, hnew, hrange]
  unfold Tally.readout
  rw [hvalue]
  simp only [Tally.knowing, hmax]
  rfl

-- ============================================================= one call

/-- How a call that failed has left an engine. -/
inductive Left (call : NumberCall) (p : Placed TableEngine) :
    Fault → Placed TableEngine → Prop where
  /-- The literal does not fit: nothing was done. -/
  | untouched (n : Int) (literal : call = .addLiteral n)
      (large : Word.literalMax < n.natAbs) :
      Left call p (.literalRange (.int n)) p
  /-- Memory was denied before anything else was changed. -/
  | unnoticed (use : MemoryUse) (q : Placed TableEngine)
      (known : call.leaves use ≤ p.object.varCount)
      (readout : readout q = readout p)
      (inUse : q.host.heap.inUse = p.host.heap.inUse)
      (live : q.host.heap.live = p.host.heap.live) :
      Left call p (.outOfMemory use) q
  /-- The store was denied a literal whose variable was new. -/
  | newVariable (n : Int) (q : Placed TableEngine)
      (literal : call = .addLiteral n)
      (new : p.object.varCount < n.natAbs)
      (readout : readout q = (readout p).knowing n.natAbs)
      (inUse : q.host.heap.inUse
        = p.host.heap.inUse + room n.natAbs - room p.object.varCount)
      (live : q.host.heap.live = p.host.heap.live) :
      Left call p (.outOfMemory .clauseStore) q

/-- A call that leaves a variable behind is a literal, and the store was
denied memory. -/
theorem leaves_pos {call : NumberCall} {use : MemoryUse}
    (h : 0 < call.leaves use) :
    use = .clauseStore ∧ ∃ n, call = .addLiteral n
      ∧ call.leaves use = n.natAbs := by
  unfold NumberCall.leaves at h ⊢
  split at h
  next n => exact ⟨rfl, n, rfl, rfl⟩
  next => exact absurd h (Nat.lt_irrefl 0)

/-- A call that fails leaves one of the things listed. -/
theorem InUse.left (h : InUse search t own base p) (call : NumberCall) :
    Ends (fun _ _ => True) (Left call p) (call.perform p) := by
  refine (h.tallies.perform call).imp (fun _ _ _ => trivial) ?_
  intro f q hdeclined
  have hvars : p.object.varCount = t.vars := h.tallies.vars
  have hbefore := h.tallies.readout_eq
  have hheld := h.held
  cases hdeclined with
  | range unfit hfault hrest =>
      obtain ⟨n, rfl, rfl⟩ := hfault
      subst hrest
      exact .untouched n rfl (of_decide_eq_true unfit)
  | denied use fits hfault ungenerous tallies moved =>
      subst hfault
      have hafter := (h.moved tallies moved).held
      rw [show (t.left use call).draft = t.draft from rfl] at hafter
      have hlive : q.host.heap.live = p.host.heap.live :=
        hafter.2.trans hheld.2.symm
      rcases Nat.lt_or_ge t.vars (call.leaves use) with hnew | hold
      · obtain ⟨rfl, n, rfl, hn⟩ := leaves_pos (Nat.zero_lt_of_lt hnew)
        rw [hn] at hnew
        have hmax : (t.left .clauseStore (.addLiteral n)).vars = n.natAbs :=
          Nat.max_eq_right (Nat.le_of_lt hnew)
        refine .newVariable n q rfl (by rwa [hvars]) ?_ ?_ hlive
        · rw [tallies.readout_eq, hbefore]
          exact h.tallies.readout_knowing (Nat.le_of_lt hnew)
        · rw [hafter.1, hheld.1, hmax, hvars]
          simp only [footprint, valueBytes]
          omega
      · have hsame : t.left use call = t := by
          unfold Tally.left Tally.knowing
          rw [Nat.max_eq_left hold]
        rw [hsame] at tallies hafter
        exact .unnoticed use q (by rwa [hvars])
          (tallies.readout_eq.trans hbefore.symm)
          (hafter.1.trans hheld.1.symm) hlive

-- ================================================================= runs

/-- Whatever was called before and whatever memory is refused: the number
of variables is the largest that a turn has made known, and a call that
fails is not noticed afterwards, unless it is a literal of a new variable
for which the store was denied memory. Then the variable is there. -/
theorem refused_call_leaves (hp : host.Plain) {search : Search}
    (hmade : create search host = .ok e host') (calls : List LiveCall) :
    let p := afterTurns LiveCall.perform calls ⟨e, host'⟩
    p.object.varCount
        = Turn.mostKnown (turns LiveCall.perform calls ⟨e, host'⟩)
      ∧ ∀ call : NumberCall,
          let u := Turn.take NumberCall.perform call p
          ∀ f ∈ u.fault, Left call p f u.after := by
  intro p
  obtain ⟨t, ht, -, hvars⟩ := (made_of_create hp hmade).used hp calls
  refine ⟨ht.tallies.vars.trans hvars, fun call f hfault => ?_⟩
  rcases Turn.take_of_ends (ht.left call) with ⟨hnone, -⟩ | ⟨f', hsome, hleft⟩
  · rw [hnone] at hfault
    cases hfault
  · obtain rfl := Option.some.inj (hsome.symm.trans hfault)
    exact hleft

/-- Both tables are full, and only the value table may grow: the literal 17
is not stored, but there are 17 variables then. -/
theorem refused_call_leaves_seventeenth :
    let search : Search := fun _ _ => .unknown
    let start := Host.new ⟨(· == 4), fun _ => false, false⟩ none
    let calls := List.replicate 16 (LiveCall.number (.addLiteral 1))
    let made := (start.given 17).given 64
    let p := afterTurns LiveCall.perform calls ⟨fresh search 0 1, made⟩
    let u := Turn.take NumberCall.perform (.addLiteral 17) p
    create search start = .ok (fresh search 0 1) made
      ∧ p.object.varCount = 1
      ∧ (u.fault.map Fault.ownClass) = some .outOfMemory
      ∧ readout u.after = (readout p).knowing 17
      ∧ u.after.host.heap.inUse = p.host.heap.inUse + 16 := by
  intro search start calls made
  have hmade : create search start = .ok (fresh search 0 1) made := rfl
  have hleft := (refused_call_leaves ⟨rfl, rfl, rfl⟩ hmade calls).2
    (.addLiteral 17)
  have hrun : (afterTurns LiveCall.perform calls
        ⟨fresh search 0 1, made⟩).object.varCount = 1
      ∧ (Turn.take NumberCall.perform (.addLiteral 17)
        (afterTurns LiveCall.perform calls
          ⟨fresh search 0 1, made⟩)).fault.map Fault.ownClass
        = some .outOfMemory
      ∧ (Turn.take NumberCall.perform (.addLiteral 17)
        (afterTurns LiveCall.perform calls
          ⟨fresh search 0 1, made⟩)).after.object.varCount = 17 := by
    decide +kernel
  generalize afterTurns LiveCall.perform calls ⟨fresh search 0 1, made⟩ = p
    at hleft hrun ⊢
  obtain ⟨hone, hclass, hmore⟩ := hrun
  refine ⟨hmade, hone, hclass, ?_⟩
  obtain ⟨f, hfault, hf⟩ := Option.map_eq_some_iff.mp hclass
  have hleft := hleft f hfault
  generalize (Turn.take NumberCall.perform (.addLiteral 17) p).after = q
    at hleft hmore ⊢
  cases hleft with
  | untouched => cases hf
  | unnoticed use _ _ hsame =>
      have hvars : q.object.varCount = p.object.varCount :=
        congrArg Readout.varCount hsame
      omega
  | newVariable n _ hliteral _ hreadout hinUse =>
      obtain rfl := NumberCall.addLiteral.inj hliteral
      have hsmall : room 1 = 16 := by decide +kernel
      have hlarge : room 17 = 32 := by decide +kernel
      rw [hone, hsmall] at hinUse
      refine ⟨hreadout, hinUse.trans ?_⟩
      show p.host.heap.inUse + (room 17 : Int) - (16 : Nat) = _
      rw [hlarge]
      omega

/-- So a call that fails is noticed afterwards at times: the number of
variables may have changed. -/
theorem not_always_unnoticed :
    ¬ ∀ (search : Search) (start : Host), start.Plain →
      ∀ (e : TableEngine) (made : Host), create search start = .ok e made →
      ∀ (calls : List LiveCall) (call : NumberCall),
        let p := afterTurns LiveCall.perform calls ⟨e, made⟩
        let u := Turn.take NumberCall.perform call p
        u.fault.isSome = true →
          u.after.object.varCount = p.object.varCount := by
  intro h
  let search : Search := fun _ _ => .unknown
  let start := Host.new ⟨(· == 3), fun _ => false, false⟩ none
  let calls := List.replicate 15 (LiveCall.number (.addLiteral 1))
    ++ [.number .terminateClause]
  let made := (start.given 17).given 64
  have hsame := h search start ⟨rfl, rfl, rfl⟩ (fresh search 0 1) made rfl
    calls (.addLiteral 2)
  have hrun : (Turn.take NumberCall.perform (.addLiteral 2)
        (afterTurns LiveCall.perform calls
          ⟨fresh search 0 1, made⟩)).fault.isSome = true
      ∧ (Turn.take NumberCall.perform (.addLiteral 2)
        (afterTurns LiveCall.perform calls
          ⟨fresh search 0 1, made⟩)).after.object.varCount
        ≠ (afterTurns LiveCall.perform calls
          ⟨fresh search 0 1, made⟩).object.varCount := by
    decide +kernel
  exact hrun.2 (hsame hrun.1)

end TableEngine

end SatSession
