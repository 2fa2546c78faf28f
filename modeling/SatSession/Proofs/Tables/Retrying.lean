/-
A call that was refused memory can be made again.

A caller may meet a refusal by making the same call again, as often as it
takes, while the memory changes its mind about what it refuses
(`Persists`). The engine that such a caller ends up with cannot be told
from one for which there was memory all along and every call was made
once (`retried_as_granted`): the same clauses, the same open clause, the
same formulas, variables and values, and tables of the same size. That a
refused literal may leave its variable behind does not show in the end,
since the literal comes again and needs the variable anyway.

The argument goes by the tally. Each repetition starts from what the
refused call left, and `Tally.told_left` says that this makes no
difference; so both callers end with the tally of all calls in order.
Nothing is asked of the search: it may even answer the same question
differently each time.
-/
import SatSession.Proofs.Tables.Usage

namespace SatSession

/-- The memory has changed its mind about what to refuse; nothing else is
different. -/
structure Host.Rethought (host host' : Host) : Prop where
  plain : host'.Plain
  rest : host' = { host with
    plan := host'.plan
    heap := { host.heap with
      limit := host'.heap.limit
      supply := host'.heap.supply } }

/-- Whether memory was refused in a turn. -/
def Turn.outOfMemory {C σ : Type} (t : Turn C σ) : Bool :=
  t.fault.any fun f => f.ownClass = .outOfMemory

namespace TableEngine

/-- Makes some calls, each again and again until no memory is refused,
from one state to another. -/
inductive Persists : List NumberCall → Placed TableEngine →
    Placed TableEngine → Prop where
  | done (p : Placed TableEngine) : Persists [] p p
  | rethought {calls : List NumberCall} {e : TableEngine}
      {host host' : Host} {q : Placed TableEngine}
      (rethought : host.Rethought host')
      (further : Persists calls ⟨e, host'⟩ q) : Persists calls ⟨e, host⟩ q
  | again {call : NumberCall} {rest : List NumberCall}
      {p q : Placed TableEngine}
      (refused : (Turn.take NumberCall.perform call p).outOfMemory = true)
      (further : Persists (call :: rest)
        (Turn.take NumberCall.perform call p).after q) :
      Persists (call :: rest) p q
  | settled {call : NumberCall} {rest : List NumberCall}
      {p q : Placed TableEngine}
      (made : (Turn.take NumberCall.perform call p).outOfMemory = false)
      (further : Persists rest
        (Turn.take NumberCall.perform call p).after q) :
      Persists (call :: rest) p q

variable {e : TableEngine} {host host' : Host} {search : Search}
  {t : Tally} {p q : Placed TableEngine} {calls rest : List NumberCall}

/-- Calls for which no memory is refused are made once. -/
theorem Persists.append :
    ∀ {calls : List NumberCall} {p : Placed TableEngine},
      (∀ u ∈ turns NumberCall.perform calls p, u.outOfMemory = false) →
      Persists rest (afterTurns NumberCall.perform calls p) q →
      Persists (calls ++ rest) p q := by
  intro calls
  induction calls with
  | nil => exact fun _ h => h
  | cons call calls ih =>
      intro p hturns h
      exact .settled (hturns _ List.mem_cons_self)
        (ih (fun u hu => hturns u (List.mem_cons_of_mem _ hu)) h)

-- ======================================================== the two runs

/-- What the memory is going to refuse does not matter to the engine. -/
theorem Tallies.rethought (h : Tallies search t ⟨e, host⟩)
    (hr : host.Rethought host') : Tallies search t ⟨e, host'⟩ := by
  have hsame : ∀ b, host'.heap.contents b = host.heap.contents b := by
    intro b
    rw [hr.rest]
    rfl
  exact { h with
    plain := hr.plain
    keeps := h.keeps.of_contents fun b _ => hsame b
    exposes := h.exposes.of_contents (hsame e.values) }

/-- A caller who persists ends with the tally of all calls in order. -/
theorem Persists.tallies (h : Persists calls p q) :
    ∀ {t : Tally}, Tallies search t p →
      Tallies search (calls.foldl (Tally.told search) t) q := by
  induction h with
  | done p => exact fun ht => ht
  | rethought hrethought _ ih => exact fun ht => ih (ht.rethought hrethought)
  | @again call _ _ _ hrefused _ ih =>
      intro t ht
      rcases Turn.take_of_ends (ht.perform call) with
        ⟨hnone, -⟩ | ⟨f, hsome, hdeclined⟩
      · simp [Turn.outOfMemory, hnone] at hrefused
      · cases hdeclined with
        | range _ hrange _ =>
            obtain ⟨n, -, rfl⟩ := hrange
            simp [Turn.outOfMemory, hsome, Fault.ownClass] at hrefused
        | denied use hfits _ _ hleft _ =>
            -- the call starts again from what it left
            have hagain := ih hleft
            rwa [List.foldl_cons, Tally.told_left search t use hfits]
              at hagain
  | @settled call _ _ _ hmade _ ih =>
      intro t ht
      rcases Turn.take_of_ends (ht.perform call) with
        ⟨-, haccepted⟩ | ⟨f, hsome, hdeclined⟩
      · exact ih haccepted.tallies
      · cases hdeclined with
        | range hunfit _ hrest =>
            rw [List.foldl_cons, Tally.told_unfit search t hunfit]
            rw [hrest] at ih
            exact ih ht
        | denied use _ hf _ _ _ =>
            simp [Turn.outOfMemory, hsome, hf, Fault.ownClass] at hmade

/-- Where nothing is refused, each call is made once. -/
theorem Tallies.persists (h : Tallies search t p) (hg : p.host.Generous)
    (calls : List NumberCall) :
    Persists calls p (afterTurns NumberCall.perform calls p) := by
  induction calls generalizing p t with
  | nil => exact .done p
  | cons call calls ih =>
      rcases Turn.take_of_ends (h.perform call) with
        ⟨hnone, haccepted⟩ | ⟨f, hsome, hdeclined⟩
      · exact .settled (by simp [Turn.outOfMemory, hnone])
          (ih haccepted.tallies
            (hg.of_sameRules haccepted.moved.within.rules))
      · cases hdeclined with
        | range _ hrange hrest =>
            obtain ⟨n, -, rfl⟩ := hrange
            have hleft : Tallies search t
                (Turn.take NumberCall.perform call p).after := by
              rwa [hrest]
            exact .settled (by simp [Turn.outOfMemory, hsome, Fault.ownClass])
              (ih hleft (by rwa [hrest]))
        | denied _ _ _ hungenerous _ _ => exact absurd hg hungenerous

-- ================================================================ runs

/-- Whatever memory is refused on the way: a caller who makes every
refused call again until it is made ends with an engine that cannot be
told from one on a host that refuses nothing, for which every call was
made once. -/
theorem retried_as_granted (hp : host.Plain) {search : Search}
    (hmade : create search host = .ok e host') {calls : List NumberCall}
    (h : Persists calls ⟨e, host'⟩ p) {calm : Host} (hg : calm.Generous) :
    ∃ e₁ host₁, create search calm = .ok e₁ host₁
      ∧ readout p
        = readout (afterTurns NumberCall.perform calls ⟨e₁, host₁⟩) := by
  have hcalm := create_ends hg.plain search
  cases hcreate : create search calm with
  | error f host₁ =>
      rw [hcreate] at hcalm
      exact absurd hg (hcalm hg.takesBack).denied
  | ok e₁ host₁ =>
      rw [hcreate] at hcalm
      have hstart := (hcalm.inUse hg.plain).tallies
      have honce := hstart.persists (hg.of_sameRules hcalm.holding.rules) calls
      have hmany := ((made_of_create hp hmade).inUse hp).tallies
      exact ⟨e₁, host₁, rfl, ((h.tallies hmany).readout_eq).trans
        ((honce.tallies hstart).readout_eq).symm⟩

/-- Both tables are full when the literal 17 comes, and the second growth
is refused. The literal given once more, there are 17 variables and 17
literals, as if the memory had been there. -/
theorem retried_as_granted_second_growth :
    let search : Search := fun _ _ => .unknown
    let start := Host.new ⟨(· == 4), fun _ => false, false⟩ none
    let calls := List.replicate 16 (NumberCall.addLiteral 1)
    let given := calls ++ [.addLiteral 17]
    let made := (start.given 17).given 64
    let refused := Turn.take NumberCall.perform (.addLiteral 17)
      (afterTurns NumberCall.perform calls ⟨fresh search 0 1, made⟩)
    let p := (Turn.take NumberCall.perform (.addLiteral 17)
      refused.after).after
    create search start = .ok (fresh search 0 1) made
      ∧ refused.outOfMemory = true
      ∧ p.object.varCount = 17 ∧ p.object.stored = 17
      ∧ ∃ e₁ host₁, create search Host.boundless = .ok e₁ host₁
        ∧ readout p
          = readout (afterTurns NumberCall.perform given ⟨e₁, host₁⟩) := by
  intro search start calls given made refused
  have hmade : create search start = .ok (fresh search 0 1) made := rfl
  have hfull : ∀ u ∈ turns NumberCall.perform calls ⟨fresh search 0 1, made⟩,
      u.outOfMemory = false := by decide +kernel
  have hrefused : refused.outOfMemory = true := by decide +kernel
  have hgranted : (Turn.take NumberCall.perform (.addLiteral 17)
        refused.after).outOfMemory = false
      ∧ (Turn.take NumberCall.perform (.addLiteral 17)
        refused.after).after.object.varCount = 17
      ∧ (Turn.take NumberCall.perform (.addLiteral 17)
        refused.after).after.object.stored = 17 := by
    decide +kernel
  refine ⟨hmade, hrefused, hgranted.2.1, hgranted.2.2, ?_⟩
  refine retried_as_granted ⟨rfl, rfl, rfl⟩ hmade ?_ Host.generous_boundless
  exact Persists.append hfull (.again hrefused (.settled hgranted.1 (.done _)))

end TableEngine

end SatSession
