/-
What a search leaves in the tables.

An engine with whole numbers for settings always answers a search
(`solve_ends`): the limit in force is a word of 32 bits, the assignment
found fits into the value table, since that has a byte for each variable,
and the log entry can be made. Only the value table is written. Whatever
the search of the engine is, and whether or not its answers are right, the
value table afterwards shows the assignment that it gave.

Giving the tables back is the other call that no host of the usual kind
can make fail (`reset_ends`).
-/
import SatSession.Proofs.Tables.Draft

namespace SatSession

/-- The outcome that a verdict amounts to. -/
def Verdict.outcome : Verdict → Outcome
  | .sat _ => .satisfiable
  | .unsat => .unsatisfiable
  | .unknown => .unknown

theorem Verdict.eq_sat {v : Verdict} (h : v.outcome = .satisfiable) :
    ∃ a, v = .sat a := by
  cases v with
  | sat a => exact ⟨a, rfl⟩
  | unsat => cases h
  | unknown => cases h

theorem Verdict.eq_unsat {v : Verdict} (h : v.outcome = .unsatisfiable) :
    v = .unsat := by
  cases v with
  | sat a => cases h
  | unsat => rfl
  | unknown => cases h

theorem Verdict.eq_unknown {v : Verdict} (h : v.outcome = .unknown) :
    v = .unknown := by
  cases v with
  | sat a => cases h
  | unsat => cases h
  | unknown => rfl

namespace TableEngine

variable {e : TableEngine} {host : Host} {h : Heap} {d : Draft}
  {a : Assignment}

-- ============================================================ the limit

/-- The smallest of the positive limits. -/
def smallestPositive (limit budget : Int) : Option Int :=
  if 0 < limit then
    if 0 < budget then some (min limit budget) else some limit
  else if 0 < budget then some budget else none

/-- The limit on the effort that a search is given. -/
def limitInForce (limit budget : Int) : Nat :=
  match smallestPositive limit budget with
  | none => 0
  | some n => (n % Word.modulus).toNat

/-- Limits that are whole numbers always compare. -/
theorem positiveLimit?_int (limit budget : Int) :
    positiveLimit? (.int limit) (.int budget)
      = .ok ((smallestPositive limit budget).map Value.int) := by
  unfold positiveLimit? smallestPositive
  simp only [Value.lt_int, Value.smaller]
  by_cases hlimit : 0 < limit <;> by_cases hbudget : 0 < budget
  · rcases Int.lt_or_le budget limit with hlt | hle
    · simp [hlimit, hbudget, hlt, Int.min_eq_right (Int.le_of_lt hlt)]
      rfl
    · simp [hlimit, hbudget, Int.not_lt.mpr hle, Int.min_eq_left hle]
      rfl
  · simp [hlimit, hbudget]
    rfl
  · simp [hlimit, hbudget]
    rfl
  · simp [hlimit, hbudget]
    rfl

/-- The search takes the smallest positive one, cut to a word. -/
theorem searchLimit_int (limit budget : Int) :
    searchLimit ((smallestPositive limit budget).map Value.int)
      = .ok (limitInForce limit budget) := by
  unfold limitInForce
  cases smallestPositive limit budget <;> rfl

/-- An engine whose settings are whole numbers. -/
structure Settings (e : TableEngine) (verbosity limit : Int) : Prop where
  verbosity : e.verbosity = .int verbosity
  limit : e.propagationLimit = .int limit

-- ======================================================= the value table

/-- The value table shows an assignment. -/
def Shows (a : Assignment) (e : TableEngine) (h : Heap) : Prop :=
  ∀ i, 1 ≤ i → i ≤ e.varCount →
    h.byte? e.values i = some (if a i then 1 else 0)

/-- The value table shows the same as long as it is what it was. -/
theorem Shows.of_contents (ha : Shows a e h) {h' : Heap}
    (hsame : h'.contents e.values = h.contents e.values) :
    Shows a e h' := by
  unfold Shows Heap.byte?
  rw [hsame]
  exact ha

/-- The value of a variable in the assignment shown. -/
theorem valueOf_eq (hmodel : e.hasModel = true)
    (hshows : Shows a e host.heap) {i : Nat} (h1 : 1 ≤ i)
    (hi : i ≤ e.varCount) :
    valueOf (.int i) ⟨e, host⟩
      = .ok (.int (if a i then 1 else -1)) ⟨e, host⟩ := by
  have hlow : decide ((1 : Int) ≤ i) = true := decide_eq_true (by omega)
  have hhigh : decide ((i : Int) ≤ e.varCount) = true :=
    decide_eq_true (by omega)
  have hbyte := hshows i h1 hi
  unfold valueOf
  rw [Op.read_bind_apply]
  simp only [hmodel, Value.le_int, hlow, hhigh, settle_ok, pure_bind,
    Value.whole?, Number.whole?, Bool.not_true, Bool.false_eq_true,
    if_false, if_true, get_bind_apply, Int.toNat_natCast, hbyte]
  cases a i <;> rfl

/-- A number that is no variable is refused by range while something is
shown. -/
theorem valueOf_range (hmodel : e.hasModel = true) {i : Int}
    (hi : i < 1 ∨ (e.varCount : Int) < i) :
    valueOf (.int i) ⟨e, host⟩
      = .error (.variableRange (.int i) e.varCount) ⟨e, host⟩ := by
  unfold valueOf
  rw [Op.read_bind_apply]
  simp only [hmodel, Value.le_int, settle_ok, pure_bind, Bool.not_true,
    Bool.false_eq_true, if_false]
  by_cases hlow : (1 : Int) ≤ i
  · rw [decide_eq_true hlow, decide_eq_false (by omega)]
    rfl
  · rw [decide_eq_false hlow]
    rfl

/-- Without an assignment nothing is read, whatever is asked for. -/
theorem valueOf_noModel (hmodel : e.hasModel = false) (index : Value) :
    valueOf index ⟨e, host⟩ = .error .noModel ⟨e, host⟩ := by
  unfold valueOf
  rw [Op.read_bind_apply]
  simp only [hmodel, Bool.not_false, if_true]
  rfl

/-- The bytes of an assignment below a number have been written into a
block, and its other bytes are what they were. -/
structure ShownBelow (a : Assignment) (b : BlockId) (host : Host) (i : Nat)
    (h : Heap) : Prop where
  within : Host.Within [b] host { host with heap := h }
  size : h.size b = host.heap.size b
  bytes : ∀ k, 1 ≤ k → k < i →
    h.byte? b k = some (if a k then 1 else 0)
  rest : ∀ k, k = 0 ∨ i ≤ k → h.byte? b k = host.heap.byte? b k

/-- Nothing has been written yet. -/
theorem shownBelow_one (a : Assignment) (b : BlockId) (host : Host) :
    ShownBelow a b host 1 host.heap :=
  ⟨.refl _ host, rfl, fun k h1 hlt => absurd hlt (by omega),
    fun _ _ => rfl⟩

/-- The byte of one more variable. -/
theorem ShownBelow.poked {b : BlockId} {i : Nat}
    (h1 : 1 ≤ i) (hi : i < h.size b) (hshown : ShownBelow a b host i h) :
    ShownBelow a b host (i + 1) (h.poked b i (if a i then 1 else 0)) := by
  refine ⟨hshown.within.trans (Host.within_poked ..), ?_, ?_, ?_⟩
  · rw [Heap.size_poked]
    exact hshown.size
  · intro k hk hlt
    rw [Heap.byte?_poked hi]
    split
    next heq => rw [heq]
    next hne => exact hshown.bytes k hk (by omega)
  · intro k hk
    rw [Heap.byte?_poked hi, if_neg (by omega)]
    exact hshown.rest k (by omega)

/-- Showing an assignment writes the bytes of the known variables and
nothing else. -/
theorem loadModel_ends (hs : Seated e host.heap) (a : Assignment) :
    Ends (fun _ p => p.object = { e with hasModel := true }
          ∧ Host.Within [e.values] host p.host
          ∧ p.host.heap.size e.values = host.heap.size e.values
          ∧ Shows a p.object p.host.heap
          ∧ ∀ k, e.varCount < k →
              p.host.heap.byte? e.values k = host.heap.byte? e.values k)
      never (loadModel a ⟨e, host⟩) := by
  have hvars := hs.vars_le
  have hsize := hs.values_size
  have hloop := ends_each (R := never)
    (f := fun i => Heap.poke e.values i (if a i then 1 else 0))
    (ShownBelow a e.values host) e.varCount 1 host.heap
    (shownBelow_one ..) ?_
  · unfold loadModel
    rw [Op.read_bind_apply]
    simp only [ends_bind, Op.ends_onHost, Host.ends_onHeap, Op.ends_update]
    refine hloop.imp ?_ fun _ _ hf => hf
    intro _ h' hshown
    refine ⟨trivial, hshown.within, hshown.size, fun k h1 hle => ?_,
      fun k hk => hshown.rest k (by omega)⟩
    have hle : k ≤ e.varCount := hle
    exact hshown.bytes k h1 (by omega)
  · intro i h' hfirst hlast hshown
    have hi : i < h'.size e.values := by
      rw [hshown.size, hsize, valueBytes]
      omega
    rw [Heap.poke_eq _ hi]
    exact hshown.poked hfirst hi

-- ============================================================= searches

/-- What the search of the engine says at this point, under a limit. -/
def verdict (e : TableEngine) (limit : Nat) : Verdict :=
  e.search e.searches ⟨e.asserted.toList, e.varCount, limit⟩

/-- A search was made, and what it found is shown. -/
structure Searched (limit : Nat) (e : TableEngine) (host : Host)
    (outcome : Outcome) (p : Placed TableEngine) : Prop where
  said : outcome = (e.verdict limit).outcome
  object : p.object = { e with
    searches := e.searches + 1
    hasModel := decide (outcome = .satisfiable) }
  within : Host.Within [e.values] host p.host
  size : p.host.heap.size e.values = host.heap.size e.values
  shows : ∀ a, e.verdict limit = .sat a → Shows a p.object p.host.heap
  rest : ∀ k, e.varCount < k →
    p.host.heap.byte? e.values k = host.heap.byte? e.values k

/-- A search is made without a fault, whatever it says. -/
theorem check_ends (hs : Seated e host.heap) (limit : Nat) :
    Ends (Searched limit e host) never (check limit ⟨e, host⟩) := by
  unfold check
  rw [Op.read_bind_apply, Op.update_bind_apply]
  show Ends _ _ ((match e.verdict limit with
    | .sat a => _ | .unsat => _ | .unknown => _ : Op TableEngine Outcome) _)
  cases hverdict : e.verdict limit with
  | sat a =>
      have hmodel := @loadModel_ends
        { e with searches := e.searches + 1 } host { hs with } a
      simp only [ends_bind]
      refine hmodel.imp ?_ fun _ _ hf => hf
      intro _ p hpost
      obtain ⟨hobject, hwithin, hsize, hshows, hrest⟩ := hpost
      refine ⟨by rw [hverdict]; rfl, hobject, hwithin, hsize, ?_, hrest⟩
      intro b hb
      rw [hverdict] at hb
      cases hb
      exact hshows
  | unsat =>
      refine ⟨by rw [hverdict]; rfl, rfl, .refl .., rfl, ?_,
        fun _ _ => rfl⟩
      intro b hb
      rw [hverdict] at hb
      cases hb
  | unknown =>
      refine ⟨by rw [hverdict]; rfl, rfl, .refl .., rfl, ?_,
        fun _ _ => rfl⟩
      intro b hb
      rw [hverdict] at hb
      cases hb

/-- The search that is asked for is made, under the limit in force, and
its code answered. -/
theorem solve_ends (hs : Seated e host.heap) {verbosity limit : Int}
    (hset : Settings e verbosity limit) (budget : Int) :
    Ends (fun code p => ∃ outcome,
          code = .int (codeOf outcome)
          ∧ Searched (limitInForce limit budget) e host outcome p)
      never (solve (.int budget) ⟨e, host⟩) := by
  unfold solve
  rw [bind_of_ok (checkLive_eq hs.live), Op.read_bind_apply, hset.limit,
    positiveLimit?_int]
  simp only [settle_ok, pure_bind, searchLimit_int]
  simp only [ends_bind]
  refine (check_ends hs _).imp ?_ fun _ _ hf => hf
  intro outcome p hsearched
  have hverbosity : p.object.verbosity = .int verbosity := by
    rw [hsearched.object]
    exact hset.verbosity
  rw [Op.ends_read, hverbosity, Value.lt_int, settle_ok]
  simp only [ends_pure]
  split
  next =>
    have hnoted := Host.within_note
      (e := .searched outcome p.object.varCount p.object.clauseCount)
      [e.values] p.host rfl
    rw [ends_bind, Op.ends_onHost]
    exact ⟨outcome, rfl, { hsearched with
      within := hsearched.within.trans hnoted }⟩
  next => exact ⟨outcome, rfl, hsearched⟩

/-- A search leaves what the engine keeps. -/
theorem Keeps.searched (hk : Keeps d e host.heap) {limit : Nat}
    {outcome : Outcome} {p : Placed TableEngine}
    (hp : Searched limit e host outcome p) :
    Keeps d p.object p.host.heap := by
  have hs := hk.seated
  have hstore : e.store ∉ [e.values] := by simpa using hs.apart.symm
  have hwords := words_of_within hp.within hstore
  have hsize := hp.within.size_eq hstore
  rw [hp.object]
  exact { hk with
    words := hwords.trans hk.words
    seated := { hs with
      values_size := hp.size.trans hs.values_size
      store_size := hsize.trans hs.store_size } }

-- ========================================================= giving back

/-- An engine that has given its tables back. -/
def gone (e : TableEngine) : TableEngine :=
  { e with
    live := false
    varCount := 0
    stored := 0
    clauseStart := 0
    clauseCount := 0
    asserted := #[]
    hasModel := false }

/-- A host that has been given the tables back. -/
def tablesBack (e : TableEngine) (host : Host) : Host :=
  let host := (host.takenBack e.values).takenBack e.store
  { host with log := host.log.push .engineReset }

/-- Giving the tables back always succeeds. -/
theorem reset_eq (hp : host.Plain) (ht : host.TakesBack)
    (hs : Seated e host.heap) :
    reset ⟨e, host⟩ = .ok () ⟨e.gone, e.tablesBack host⟩ := by
  have hvalues := Host.free_eq hp ht hs.values_size
  have hstore : (host.takenBack e.values).heap.size e.store
      = storeBytes e.wordCapacity := by
    rw [Host.takenBack, Heap.size_released, if_neg hs.apart.symm]
    exact hs.store_size
  have hp' : (host.takenBack e.values).Plain := ⟨hp.1, hp.2, hp.3⟩
  have ht' : (host.takenBack e.values).TakesBack := ht
  have hrest := Host.free_eq hp' ht' hstore
  unfold reset
  rw [Op.read_bind_apply]
  simp only [hs.live, if_true, size]
  refine (bind_of_ok (Op.onHost_ok hvalues)).trans ?_
  refine (bind_of_ok (Op.onHost_ok hrest)).trans ?_
  rfl

/-- Tables that were given back are owned no more. -/
theorem holding_tablesBack {base : Host} {own : List BlockId}
    (h : Host.Holding (e.tables ++ own) base host) :
    Host.Holding own base (e.tablesBack host) := by
  have hvalues : Host.Holding (e.store :: own) base
      (host.takenBack e.values) := h.released []
  have hstore : Host.Holding own base
      ((host.takenBack e.values).takenBack e.store) := hvalues.released []
  exact hstore.within (Host.within_note (e := .engineReset) own _ rfl)

end TableEngine

end SatSession
