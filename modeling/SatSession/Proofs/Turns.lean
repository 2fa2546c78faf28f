/-
Calls made one after the other, whatever becomes of each.

A caller who catches faults can go on with an object after one. `turns` is
the account of such a run: for each call how things stood before it, the
fault that ended it if there was one, and how things stood afterwards.
What holds of a run is shown one turn at a time (`turns_keep`).
-/
import SatSession.Proofs.Ends

namespace SatSession

/-- A call as it went. -/
structure Turn (C σ : Type) where
  call : C
  before : Placed σ
  /-- The fault that ended the call, none if it succeeded. -/
  fault : Option Fault
  after : Placed σ

namespace Turn

variable {C σ : Type}

/-- Makes one call. -/
def take (perform : C → Op σ Unit) (call : C) (p : Placed σ) : Turn C σ :=
  match perform call p with
  | .ok _ q => ⟨call, p, none, q⟩
  | .error f q => ⟨call, p, some f, q⟩

/-- The calls that succeeded. -/
def succeeded (turns : List (Turn C σ)) : List C :=
  (turns.filter fun t => t.fault.isNone).map call

/-- What succeeded over two rows of turns succeeded in the one or the
other. -/
theorem succeeded_append (turns more : List (Turn C σ)) :
    succeeded (turns ++ more) = succeeded turns ++ succeeded more := by
  simp [succeeded]

/-- A call that returns is a turn without a fault. -/
theorem take_of_ok {perform : C → Op σ Unit} {call : C} {p q : Placed σ}
    (h : perform call p = .ok () q) :
    take perform call p = ⟨call, p, none, q⟩ := by
  unfold take
  rw [h]

/-- A call that fails is a turn with its fault. -/
theorem take_of_error {perform : C → Op σ Unit} {call : C}
    {p q : Placed σ} {f : Fault} (h : perform call p = .error f q) :
    take perform call p = ⟨call, p, some f, q⟩ := by
  unfold take
  rw [h]

/-- A turn is about the call that was made. -/
theorem call_take (perform : C → Op σ Unit) (call : C) (p : Placed σ) :
    (take perform call p).call = call := by
  unfold take
  split <;> rfl

/-- A turn begins where the call was made. -/
theorem before_take (perform : C → Op σ Unit) (call : C) (p : Placed σ) :
    (take perform call p).before = p := by
  unfold take
  split <;> rfl

/-- A turn without a fault counts. -/
theorem succeeded_ok {t : Turn C σ} (h : t.fault = none) :
    succeeded [t] = [t.call] := by
  simp [succeeded, h]

/-- A turn with a fault does not. -/
theorem succeeded_fault {t : Turn C σ} {f : Fault}
    (h : t.fault = some f) : succeeded [t] = [] := by
  simp [succeeded, h]

/-- What a call ends with is what its turn tells. -/
theorem take_of_ends {Q : Unit → Placed σ → Prop}
    {R : Fault → Placed σ → Prop} {perform : C → Op σ Unit} {call : C}
    {p : Placed σ} (h : Ends Q R (perform call p)) :
    ((take perform call p).fault = none ∧ Q () (take perform call p).after)
      ∨ ∃ f, (take perform call p).fault = some f
          ∧ R f (take perform call p).after := by
  unfold take
  cases hrun : perform call p with
  | ok a q =>
      rw [hrun] at h
      exact Or.inl ⟨rfl, h⟩
  | error f q =>
      rw [hrun] at h
      exact Or.inr ⟨f, rfl, h⟩

-- ======================================================== the last turn

/-- A turn with `P`, and none with `Q` behind it. -/
def Latest (P Q : Turn C σ → Prop) (t : Turn C σ)
    (turns : List (Turn C σ)) : Prop :=
  ∃ earlier later, turns = earlier ++ t :: later ∧ P t
    ∧ ∀ u ∈ later, ¬ Q u

variable {P Q : Turn C σ → Prop} {t u : Turn C σ}
  {turns : List (Turn C σ)}

/-- A turn more is the last one itself, or comes behind the last one. -/
theorem latest_concat :
    Latest P Q t (turns ++ [u])
      ↔ t = u ∧ P u ∨ Latest P Q t turns ∧ ¬ Q u := by
  constructor
  · intro hex
    obtain ⟨earlier, later, hturns, hP, hlater⟩ := hex
    rcases List.eq_nil_or_concat later with rfl | ⟨later', v, rfl⟩
    · obtain ⟨-, hu⟩ := List.append_inj' hturns rfl
      obtain rfl := List.singleton_inj.mp hu
      exact Or.inl ⟨rfl, hP⟩
    · rw [List.concat_eq_append, ← List.cons_append,
        ← List.append_assoc] at hturns
      obtain ⟨rfl, hv⟩ := List.append_inj' hturns rfl
      obtain rfl := List.singleton_inj.mp hv
      refine Or.inr ⟨⟨earlier, later', rfl, hP, fun w hw => ?_⟩, ?_⟩
      · exact hlater w (by simp [hw])
      · exact hlater u (by simp)
  · intro hcase
    rcases hcase with ⟨rfl, hP⟩ | ⟨hex, hQ⟩
    · exact ⟨turns, [], rfl, hP, by simp⟩
    · obtain ⟨earlier, later, rfl, hP, hlater⟩ := hex
      refine ⟨earlier, later ++ [u], by simp, hP, fun w hw => ?_⟩
      rcases List.mem_append.mp hw with hw | hw
      · exact hlater w hw
      · rwa [List.mem_singleton.mp hw]

/-- A turn of neither kind changes nothing. -/
theorem latest_concat_of_neither (hP : ¬ P u) (hQ : ¬ Q u) :
    Latest P Q t (turns ++ [u]) ↔ Latest P Q t turns := by
  rw [latest_concat]
  simp [hP, hQ]

/-- A turn of both kinds is the last one. -/
theorem latest_concat_of_both (hP : P u) (hQ : Q u) :
    Latest P Q t (turns ++ [u]) ↔ t = u := by
  rw [latest_concat]
  simp [hP, hQ]

/-- Behind a turn of the second kind alone there is no last one. -/
theorem not_latest_concat (hP : ¬ P u) (hQ : Q u) :
    ¬ Latest P Q t (turns ++ [u]) := by
  rw [latest_concat]
  simp [hP, hQ]

theorem not_latest_nil : ¬ Latest P Q t [] := by
  intro hex
  obtain ⟨earlier, later, hnil, -⟩ := hex
  simp at hnil

end Turn

section

variable {C σ : Type} (perform : C → Op σ Unit)

/-- The account of calls made one after the other. -/
def turns : List C → Placed σ → List (Turn C σ)
  | [], _ => []
  | call :: rest, p =>
      let t := Turn.take perform call p
      t :: turns rest t.after

/-- How things stand after calls made one after the other. -/
def afterTurns : List C → Placed σ → Placed σ
  | [], p => p
  | call :: rest, p => afterTurns rest (Turn.take perform call p).after

/-- One call more. -/
theorem afterTurns_concat (calls : List C) (call : C) :
    ∀ p : Placed σ, afterTurns perform (calls ++ [call]) p
      = (Turn.take perform call (afterTurns perform calls p)).after := by
  induction calls with
  | nil => exact fun p => rfl
  | cons first rest ih => exact fun p => ih _

/-- Turns are made of the calls in their order. -/
theorem map_call_turns (calls : List C) :
    ∀ p : Placed σ, (turns perform calls p).map Turn.call = calls := by
  induction calls with
  | nil => intro p; rfl
  | cons call rest ih =>
      intro p
      rw [turns, List.map_cons, Turn.call_take, ih]

/-- What every turn hands to the next, the run hands to its end. -/
theorem turns_keep (I : List (Turn C σ) → Placed σ → Prop)
    (step : ∀ done p call, I done p →
      I (done ++ [Turn.take perform call p])
        (Turn.take perform call p).after) :
    ∀ (calls : List C) (done : List (Turn C σ)) (p : Placed σ), I done p →
      I (done ++ turns perform calls p) (afterTurns perform calls p) := by
  intro calls
  induction calls with
  | nil =>
      intro done p h
      simpa [turns, afterTurns] using h
  | cons call rest ih =>
      intro done p h
      have hnext := ih _ _ (step done p call h)
      simpa [turns, afterTurns] using hnext

end

end SatSession
