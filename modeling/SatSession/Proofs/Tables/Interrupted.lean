/-
What a loading that fails leaves in the tables.

Each clause is checked completely before the first of its literals is
handed over, so a clause that is objected to leaves nothing behind. But an
engine does not take every literal that passes the check: one that does not
fit into a word is turned down, and so is anything for which memory is
refused. The literals in front of it have been taken by then, and nobody
takes them back. So a loading may leave the beginning of a clause open
(`failed_loading_leaves`), and what is loaded later is joined to it
(`Draft.loaded_cons`): a clause is closed then that neither of the two
values writes (`not_always_whole`).
-/
import SatSession.Proofs.Tables.Loading
import SatSession.Proofs.Tables.Usage

namespace SatSession

/-- The first clause that is loaded closes what was open. -/
theorem Draft.loaded_cons (d : Draft) (c : List Int)
    (clauses : List (List Int)) :
    d.loaded (c :: clauses)
      = { closed := d.closed ++ (d.opened ++ c) :: clauses } := by
  show ({ closed := d.closed ++ [d.opened ++ c] } : Draft).loaded _ = _
  rw [loaded_closed]
  simp

/-- Clauses as they are closed behind literals that are open. -/
def joined (part : List Int) : List (List Int) → List (List Int)
  | [] => []
  | c :: clauses => (part ++ c) :: clauses

theorem Draft.closed_loaded (d : Draft) (clauses : List (List Int)) :
    (d.loaded clauses).closed = d.closed ++ joined d.opened clauses := by
  cases clauses with
  | nil => simp [loaded, joined]
  | cons c clauses => rw [loaded_cons, joined]

namespace TableEngine

variable {e : TableEngine} {host host' : Host}

-- ================================================================= runs

/-- Whatever was called before, with no clause left open, and whatever
memory is refused: a loading that fails leaves some clauses of the value
closed, and of the next one it leaves nothing open if that has a defect,
but the literals taken so far if one of them does not fit or memory is
refused. The first clause that is loaded later is joined to these. -/
theorem failed_loading_leaves (hp : host.Plain) {search : Search}
    (hmade : create search host = .ok e host') (calls : List LiveCall)
    (v : Value) (old : List (List Int)) :
    let p := afterTurns LiveCall.perform calls ⟨e, host'⟩
    (readout p).clauses = .ok old → (readout p).pending = .ok [] →
      ∀ f q, loadClauses v p = .error f q →
        ∃ early part,
          List.Forall₂ Value.IsCleanClause (v.itemList.take early.length)
              early
            ∧ GivenUp p.host v early part f
            ∧ (readout q).clauses = .ok (old ++ early)
            ∧ (readout q).pending = .ok part
            ∧ ∀ v' count r, loadClauses v' q = .ok count r →
              ∃ more, v'.IsCleanSet more
                ∧ (readout r).clauses
                  = .ok (old ++ early ++ joined part more) := by
  intro p hold hnone f q hfails
  obtain ⟨t, ht, -, -⟩ := (made_of_create hp hmade).used hp calls
  have hk := ht.tallies.keeps
  have hdraft : t.draft = { closed := old } := by
    have hclosed := Except.ok.inj (hk.reads.1.symm.trans hold)
    have hopened := Except.ok.inj (hk.reads.2.symm.trans hnone)
    rw [← hclosed, ← hopened]
  rw [hdraft] at hk
  have hends := loadClauses_interrupted ht.tallies.plain hk v
  rw [show loadClauses v ⟨p.object, p.host⟩ = _ from hfails] at hends
  obtain ⟨early, part, hearly, hgiven, hleft⟩ := hends
  rw [Draft.loaded_closed] at hleft
  obtain ⟨hclosed, hopened⟩ := hleft.keeps.reads
  refine ⟨early, part, hearly, hgiven, hclosed, hopened, ?_⟩
  intro v' count r hloads
  have hrules := hleft.onward.within.rules
  have hmore := loadClauses_interrupted
    (ht.tallies.plain.of_sameRules hrules) hleft.keeps v'
  rw [show loadClauses v' ⟨q.object, q.host⟩ = _ from hloads] at hmore
  obtain ⟨more, hclean, -, htaken⟩ := hmore
  refine ⟨more, hclean, ?_⟩
  rw [htaken.keeps.reads.1, Draft.closed_loaded]
  rfl

-- ==================================================== an unfit literal

/-- Loads a clause set; the number of clauses is dropped. -/
def load (v : Value) : Op TableEngine Unit := do
  let _ ← loadClauses v

/-- What the turn of a loading tells. -/
theorem loadClauses_of_take (v : Value) (p : Placed TableEngine) :
    let t := Turn.take load v p
    (∃ count, t.fault = none ∧ loadClauses v p = .ok count t.after)
      ∨ ∃ f, t.fault = some f ∧ loadClauses v p = .error f t.after := by
  intro t
  cases hrun : loadClauses v p with
  | error f q =>
      have ht : t = ⟨v, p, some f, q⟩ :=
        Turn.take_of_error (bind_of_error hrun)
      rw [ht]
      exact Or.inr ⟨f, rfl, rfl⟩
  | ok count q =>
      have ht : t = ⟨v, p, none, q⟩ :=
        Turn.take_of_ok (bind_of_ok (f := fun _ => pure ()) hrun)
      rw [ht]
      exact Or.inl ⟨count, rfl, rfl⟩

/-- The first literal of the unfit clause stays open, and the unit clause
that is loaded next is joined to it. -/
theorem failed_loading_leaves_unfit_literal :
    let search : Search := fun _ _ => .unknown
    let start := Host.new (.open false) none
    let p : Placed TableEngine :=
      ⟨fresh search 0 1, (start.given 17).given 64⟩
    let t := Turn.take load (.list [.list [.int 1, .int 0x80000000]]) p
    let u := Turn.take load (.list [.list [.int 2]]) t.after
    create search start = .ok p.object p.host
      ∧ t.fault.map Fault.ownClass = some .value
      ∧ u.fault = none
      ∧ ∃ early part more, (readout t.after).clauses = .ok early
        ∧ (readout t.after).pending = .ok part
        ∧ (readout u.after).clauses = .ok (early ++ joined part more)
        ∧ early ++ joined part more = [[1, 2]] := by
  intro search start p t u
  have hmade : create search start = .ok p.object p.host := rfl
  have hrun : t.fault.map Fault.ownClass = some .value
      ∧ u.fault.isNone = true
      ∧ (readout u.after).clauses.toOption = some [[1, 2]] := by
    decide +kernel
  obtain ⟨hfault, hnone, hclosed⟩ := hrun
  rcases loadClauses_of_take (.list [.list [.int 1, .int 0x80000000]]) p
    with ⟨-, hno, -⟩ | ⟨f, -, hfails⟩
  · rw [show t.fault = none from hno] at hfault
    cases hfault
  rcases loadClauses_of_take (.list [.list [.int 2]]) t.after
    with ⟨count, hno, hloads⟩ | ⟨f, hsome, -⟩
  · obtain ⟨early, part, -, -, hearly, hpart, hlater⟩ :=
      failed_loading_leaves ⟨rfl, rfl, rfl⟩ hmade [] _ [] rfl rfl f t.after
        hfails
    obtain ⟨more, -, hmore⟩ := hlater _ count u.after hloads
    rw [hmore] at hclosed
    exact ⟨hmade, hfault, hno, early, part, more, hearly, hpart, hmore,
      Option.some.inj hclosed⟩
  · rw [show u.fault = some f from hsome] at hnone
    cases hnone

/-- A loading that fails may leave a clause open. -/
theorem not_always_whole :
    ¬ ∀ (search : Search) (start : Host), start.Plain →
      ∀ (e : TableEngine) (made : Host), create search start = .ok e made →
      ∀ (calls : List LiveCall) (v : Value),
        let p := afterTurns LiveCall.perform calls ⟨e, made⟩
        (readout p).pending = .ok [] →
          ∀ f q, loadClauses v p = .error f q →
            (readout q).pending = .ok [] := by
  intro hall
  let search : Search := fun _ _ => .unknown
  let start := Host.new (.open false) none
  let p : Placed TableEngine :=
    ⟨fresh search 0 1, (start.given 17).given 64⟩
  let t := Turn.take load (.list [.list [.int 1, .int 0x80000000]]) p
  have hrun : t.fault.isSome = true
      ∧ (readout t.after).pending.toOption = some [1] := by
    decide +kernel
  obtain ⟨hfault, hopened⟩ := hrun
  rcases loadClauses_of_take (.list [.list [.int 1, .int 0x80000000]]) p
    with ⟨-, hno, -⟩ | ⟨f, -, hfails⟩
  · rw [show t.fault = none from hno] at hfault
    cases hfault
  · have hnothing := hall search start ⟨rfl, rfl, rfl⟩ p.object p.host rfl
      [] _ rfl f t.after hfails
    rw [hnothing] at hopened
    cases hopened

end TableEngine

end SatSession
