/-
What an engine is told, and what it says to that.

Nothing is assumed of an engine: a method may answer anything, fail at any
call and do anything to the host. What can be said of a session over any
engine is which calls it makes. `Recorded E` is an engine of whatever kind
together with the record of its calls, each with what came of it; it does
what the engine does, and no engine can reach its own record.

The host counts the blocks that are given back, whoever gives them. Of this
count the record keeps the part that falls into the calls of the engine, so
that the rest is what was given back by whoever uses the engine
(`Recorded.ledger`).
-/
import SatSession.Engine.Table
import SatSession.Proofs.Aspects

namespace SatSession

-- =========================================================== the record

/-- What came of a call. -/
inductive Response where
  | done
  | value (v : Value)
  | text (s : String)
  | failed (f : Fault)

/-- A call and what came of it. -/
structure Exchange where
  call : Call
  response : Response

/-- An engine and the record of its calls. -/
structure Recorded (E : Type) where
  engine : E
  record : List Exchange := []
  /-- The blocks given back in these calls, as the host counts them. -/
  frees : Int := 0

/-- Whether a call ends the use of an engine. -/
def Call.isReset : Call → Bool
  | reset => true
  | _ => false

/-- Whether a call asks for a search. -/
def Call.isSolve : Call → Bool
  | solve _ => true
  | _ => false

/-- Whether a call adds to the clauses. -/
def Call.isAdding : Call → Bool
  | addLiteral _ | terminateClause => true
  | _ => false

/-- The outcomes that codes stand for: the one code of each, which has to be
a whole number in kind. -/
theorem Outcome.ofCode_eq_ok_iff {code : Value} {outcome : Outcome} :
    Outcome.ofCode code = .ok outcome
      ↔ code = .int (TableEngine.codeOf outcome) := by
  constructor
  · intro h
    cases code with
    | number a =>
        cases a with
        | int n =>
            by_cases hsat : n = 10
            · subst hsat
              cases h
              rfl
            by_cases hunsat : n = 20
            · subst hunsat
              cases h
              rfl
            by_cases hunknown : n = 0
            · subst hunknown
              cases h
              rfl
            simp [ofCode, ofInt?, hsat, hunsat, hunknown] at h
        | _ => cases h
    | _ => cases h
  · rintro rfl
    cases outcome <;> rfl

namespace Recorded

variable {E α : Type}

/-- An engine after one more call, made on a host that is another now. -/
def after (r : Recorded E) (host : Host) (q : Placed E) (e : Exchange) :
    Placed (Recorded E) :=
  ⟨⟨q.object, r.record ++ [e], r.frees + ((q.host.frees : Int) - host.frees)⟩,
    q.host⟩

/-- Makes a call and enters it into the record. -/
def hear (call : Call) (response : α → Response) (op : Op E α) :
    Op (Recorded E) α := fun ⟨r, host⟩ =>
  match op ⟨r.engine, host⟩ with
  | .ok a q => .ok a (r.after host q ⟨call, response a⟩)
  | .error f q => .error f (r.after host q ⟨call, .failed f⟩)

instance [Engine E] : Engine (Recorded E) where
  setVerbosity level :=
    hear (.setVerbosity level) (fun _ => .done) (Engine.setVerbosity level)
  reserveVariables count :=
    hear (.reserveVariables count) (fun _ => .done)
      (Engine.reserveVariables count)
  setPropagationLimit limit :=
    hear (.setPropagationLimit limit) (fun _ => .done)
      (Engine.setPropagationLimit limit)
  addLiteral literal :=
    hear (.addLiteral literal) (fun _ => .done) (Engine.addLiteral literal)
  terminateClause :=
    hear .terminateClause (fun _ => .done) Engine.terminateClause
  solve budget := hear (.solve budget) .value (Engine.solve budget)
  variableCount := hear .variableCount .value Engine.variableCount
  valueOf index := hear (.valueOf index) .value (Engine.valueOf index)
  writeProblem := hear .writeProblem .text Engine.writeProblem
  reset := hear .reset (fun _ => .done) Engine.reset

/-- Makes an engine that no call has been made of. -/
def making (make : HostOp E) : HostOp (Recorded E) := do
  return { engine := ← make }

/-- The calls made of an engine, in order. -/
def calls (r : Recorded E) : List Call := r.record.map Exchange.call

/-- The entries of the calls of some kind. -/
def heard (P : Call → Bool) (r : Recorded E) : List Exchange :=
  r.record.filter fun e => P e.call

/-- The blocks given back outside all calls. -/
def givenBack (p : Placed (Recorded E)) : Int :=
  p.host.frees - p.object.frees

/-- The entries of the calls of some kind, and the blocks given back
outside all calls. -/
def ledger (P : Call → Bool) (p : Placed (Recorded E)) :
    List Exchange × Int :=
  (p.object.heard P, givenBack p)

-- ============================================================ one call

variable {call : Call} {response : α → Response} {op : Op E α}
  {p : Placed (Recorded E)}

/-- A call ends as the engine ends it, with one more entry. -/
theorem ends_hear {Q : α → Placed (Recorded E) → Prop}
    {R : Fault → Placed (Recorded E) → Prop} :
    Ends Q R (hear call response op p)
      ↔ Ends
          (fun a q => Q a (p.object.after p.host q ⟨call, response a⟩))
          (fun f q => R f (p.object.after p.host q ⟨call, .failed f⟩))
          (op ⟨p.object.engine, p.host⟩) := by
  obtain ⟨r, host⟩ := p
  simp only [hear]
  cases op ⟨r.engine, host⟩ <;> rfl

/-- What is new in the record behind a call is the entry of that call. -/
theorem hear_ends :
    Ends (fun a q => q.object.record
        = p.object.record ++ [⟨call, response a⟩])
      (fun f q => q.object.record = p.object.record ++ [⟨call, .failed f⟩])
      (hear call response op p) := by
  rw [ends_hear]
  exact (ends_true _).imp (fun _ _ _ => rfl) fun _ _ _ => rfl

/-- What an engine gives back in a call of its own is not counted. -/
theorem givenBack_after {r : Recorded E} {host : Host} (q : Placed E)
    (e : Exchange) : givenBack (r.after host q e) = givenBack ⟨r, host⟩ := by
  show (q.host.frees : Int) - (r.frees + (q.host.frees - host.frees))
    = host.frees - r.frees
  omega

/-- A call of another kind does not show in the ledger. -/
theorem ledger_after {P : Call → Bool} {r : Recorded E} {host : Host}
    (q : Placed E) {e : Exchange} (h : P e.call = false) :
    ledger P (r.after host q e) = ledger P ⟨r, host⟩ := by
  have hheard : (r.record ++ [e]).filter (fun e => P e.call)
      = r.record.filter fun e => P e.call := by
    simp [h]
  exact Prod.ext hheard (givenBack_after q e)

/-- A call of another kind leaves the ledger, whatever the engine does. -/
theorem hear_leaves {P : Call → Bool} (h : P call = false) :
    Leaves (ledger P) (hear call response op) := by
  intro p
  rw [ends_hear]
  exact (ends_true _).imp (fun _ q _ => ledger_after q h)
    fun _ q _ => ledger_after q h

end Recorded

-- ======================================================= many calls

section

variable {σ α β : Type} {said : σ → List Exchange}

/-- A program that only adds to a record: entries of which `Q` holds with
its answer, or `R` with its fault. -/
def Tells (said : σ → List Exchange) (Q : α → List Exchange → Prop)
    (R : Fault → List Exchange → Prop) (x : EStateM Fault σ α) : Prop :=
  ∀ s, Ends (fun a s' => ∃ told, said s' = said s ++ told ∧ Q a told)
    (fun f s' => ∃ told, said s' = said s ++ told ∧ R f told) (x s)

namespace Tells

variable {Q Q' : α → List Exchange → Prop}
  {R R' : Fault → List Exchange → Prop} {x : EStateM Fault σ α}

theorem pure {a : α} (h : Q a []) :
    Tells said Q R (pure a : EStateM Fault σ α) :=
  fun _ => ⟨[], (List.append_nil _).symm, h⟩

theorem throw {f : Fault} (h : R f []) :
    Tells said Q R (throw f : EStateM Fault σ α) :=
  fun _ => ⟨[], (List.append_nil _).symm, h⟩

theorem imp (h : Tells said Q R x) (hQ : ∀ a told, Q a told → Q' a told)
    (hR : ∀ f told, R f told → R' f told) : Tells said Q' R' x := by
  intro s
  refine (h s).imp ?_ ?_
  · intro a s' hs'
    obtain ⟨told, hsaid, ha⟩ := hs'
    exact ⟨told, hsaid, hQ a told ha⟩
  · intro f s' hs'
    obtain ⟨told, hsaid, hf⟩ := hs'
    exact ⟨told, hsaid, hR f told hf⟩

/-- One part after the other: the entries of the second come behind those
of the first. -/
theorem bind {Q' : β → List Exchange → Prop} {f : α → EStateM Fault σ β}
    (hx : Tells said Q R x)
    (hf : ∀ a told, Q a told →
      Tells said (fun b more => Q' b (told ++ more))
        (fun e more => R' e (told ++ more)) (f a))
    (hR : ∀ e told, R e told → R' e told) :
    Tells said Q' R' (x >>= f) := by
  intro s
  rw [ends_bind]
  refine (hx s).imp ?_ ?_
  · intro a s₁ hs₁
    obtain ⟨told, hsaid, ha⟩ := hs₁
    refine (hf a told ha s₁).imp ?_ ?_
    · intro b s₂ hs₂
      obtain ⟨more, hmore, hb⟩ := hs₂
      exact ⟨told ++ more, by rw [hmore, hsaid, List.append_assoc], hb⟩
    · intro e s₂ hs₂
      obtain ⟨more, hmore, he⟩ := hs₂
      exact ⟨told ++ more, by rw [hmore, hsaid, List.append_assoc], he⟩
  · intro e s₁ hs₁
    obtain ⟨told, hsaid, he⟩ := hs₁
    exact ⟨told, hsaid, hR e told he⟩

/-- What leaves the record as it is adds nothing. -/
theorem of_leaves (h : Leaves said x) :
    Tells said (fun _ told => told = []) (fun _ told => told = []) x := by
  intro s
  refine (h s).imp ?_ ?_
  · exact fun _ _ hsame => ⟨[], by rw [hsame, List.append_nil], rfl⟩
  · exact fun _ _ hsame => ⟨[], by rw [hsame, List.append_nil], rfl⟩

end Tells

end

namespace Recorded

variable {E α : Type} {call : Call} {response : α → Response} {op : Op E α}

/-- What has been said to an engine. -/
def said (p : Placed (Recorded E)) : List Exchange := p.object.record

/-- A call adds the entry of this call. -/
theorem hear_tells : Tells said (fun a told => told = [⟨call, response a⟩])
    (fun f told => told = [⟨call, .failed f⟩])
    (hear call response op) :=
  fun _ => hear_ends.imp (fun _ _ h => ⟨_, h, rfl⟩)
    fun _ _ h => ⟨_, h, rfl⟩

/-- What concerns the host alone leaves the record. -/
theorem onHost_leaves_said (op : HostOp α) :
    Leaves said (Op.onHost op : Op (Recorded E) α) := by
  intro p
  rw [Op.ends_onHost]
  exact (ends_true _).imp (fun _ _ _ => rfl) fun _ _ _ => rfl

end Recorded

end SatSession
