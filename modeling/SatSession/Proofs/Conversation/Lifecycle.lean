/-
From creation to release, over any engine.

Sessions and cursors are used in whatever order, and every use may fail
anywhere: in a call of the engine, in a request for memory, in giving the
buffer back, in the reset itself. Each use is one step forward
(`Use.Steps`), and what the steps leave true at every time is the account
of the whole run (`Use.Lifecycle`, `Cursor.lifecycle`): the engine is reset
at most once, exactly when its session is destroyed, and is not called
again; what is destroyed or closed stays so and refuses or ends at once;
the buffer is given back at most once; and the solutions are counted.
-/
import SatSession.Proofs.Conversation.Loading
import SatSession.Proofs.Conversation.Closing
import SatSession.Proofs.Turns

namespace SatSession

variable {E α : Type}

-- ================================================================= uses

/-- A use of a cursor or of its session. Leaving the scope of a session
destroys it, and leaving that of a cursor closes it, so that these are no
uses of their own. -/
inductive Use where
  | invoke (budget : Value)
  | requireModel
  | decode
  | block (scratch : Option BlockId)
  | destroy
  | next
  | close

namespace Use

open Cursor

/-- Whether a use is one that a destroyed session refuses. -/
def asksSession : Use → Bool
  | invoke _ | requireModel | decode | block _ => true
  | destroy | next | close => false

variable [Engine E]

/-- Makes use of a cursor; what it answers is dropped. -/
def perform : Use → Op (Cursor E) Unit
  | invoke budget => do
      let _ ← onSession (Session.invoke budget)
  | requireModel => onSession Session.requireModel
  | decode => do
      let _ ← onSession Session.decode
  | block scratch => do
      let _ ← onSession (Session.block scratch)
  | destroy => onSession Session.destroy
  | next => do
      let _ ← Cursor.next
  | close => Cursor.close

/-- The solution that a turn has produced, if it has. -/
def yielded (t : Turn Use (Cursor E)) : Option Solution :=
  match t.call with
  | next =>
      match Cursor.next t.before with
      | .ok answer _ => answer
      | .error _ _ => none
  | _ => none

/-- What one turn does. -/
structure Steps (start : Int) (t : Turn Use (Cursor (Recorded E))) :
    Prop where
  forward : Forward start (if (yielded t).isSome then 1 else 0)
    t.before t.after
  closes : t.call = .close ∨ t.call = .next ∧ yielded t = none →
    t.after.object.closed = true
  destroys : t.call = .destroy → t.after.object.session.destroyed = true

variable {start : Int} {p : Placed (Cursor (Recorded E))}

/-- Only an advance yields a list. -/
theorem yielded_of_ne {t : Turn Use (Cursor E)} (h : t.call ≠ .next) :
    yielded t = none := by
  unfold yielded
  cases hcall : t.call <;> simp_all

/-- What a use other than `next` comes to, whether it fails or not. -/
def Reaches (start : Int) (use : Use)
    (p q : Placed (Cursor (Recorded E))) : Prop :=
  Forward start 0 p q ∧ (use = .close → q.object.closed = true)
    ∧ (use = .destroy → q.object.session.destroyed = true)

theorem steps_of_ends {use : Use} (hnot : use ≠ .next)
    (h : Ends (fun _ q => Reaches start use p q)
      (fun _ q => Reaches start use p q) (perform use p)) :
    Steps start (Turn.take perform use p) := by
  have hreaches : Reaches start use p (Turn.take perform use p).after := by
    rcases Turn.take_of_ends h with ⟨-, hafter⟩ | ⟨f, -, hafter⟩
    · exact hafter
    · exact hafter
  obtain ⟨hforward, hclose, hdestroy⟩ := hreaches
  have hcall := Turn.call_take (perform (E := Recorded E)) use p
  have hnone : yielded (Turn.take perform use p) = none :=
    yielded_of_ne (by rw [hcall]; exact hnot)
  refine ⟨?_, ?_, ?_⟩
  · rw [hnone, Turn.before_take]
    exact hforward
  · rw [hcall]
    rintro (hclosing | ⟨hnext, -⟩)
    · exact hclose hclosing
    · exact absurd hnext hnot
  · rw [hcall]
    exact hdestroy

omit [Engine E] in
/-- A careful use of the session, as a turn of its cursor. -/
theorem reaches_of_careful {use : Use} (hasks : use.asksSession = true)
    {x : Op (Session (Recorded E)) α} (hx : Session.Careful x)
    (h : Orderly start p) :
    Ends (fun _ q => Reaches start use p q)
      (fun _ q => Reaches start use p q) (onSession x p) := by
  have hreaches : ∀ q, Forward start 0 p q → Reaches start use p q := by
    intro q hq
    refine ⟨hq, ?_, ?_⟩ <;>
    · rintro rfl
      cases hasks
  exact (careful_forward hx h).imp (fun _ q hq => hreaches q hq)
    fun _ q hq => hreaches q hq

/-- An advance steps on from order to order. -/
theorem next_steps (h : Orderly start p) :
    Steps start (Turn.take perform .next p) := by
  have hends := next_forward h
  cases hrun : Cursor.next p with
  | ok answer q =>
      rw [hrun] at hends
      obtain ⟨hforward, hclosed⟩ := hends
      have htake : Turn.take perform .next p = ⟨.next, p, none, q⟩ := by
        simp only [Turn.take, perform, bind_of_ok hrun]
        rfl
      have hyield : yielded (⟨.next, p, none, q⟩ :
          Turn Use (Cursor (Recorded E))) = answer := by
        simp only [yielded, hrun]
      rw [htake]
      refine ⟨?_, ?_, fun hcall => by cases hcall⟩
      · rw [hyield]
        exact hforward
      · rw [hyield]
        rintro (hcall | ⟨-, hnone⟩)
        · cases hcall
        · exact hclosed hnone
  | error f q =>
      rw [hrun] at hends
      obtain ⟨hforward, hclosed⟩ := hends
      have htake : Turn.take perform .next p = ⟨.next, p, some f, q⟩ := by
        simp only [Turn.take, perform, bind_of_error hrun]
      have hyield : yielded (⟨.next, p, some f, q⟩ :
          Turn Use (Cursor (Recorded E))) = none := by
        simp only [yielded, hrun]
      rw [htake]
      refine ⟨?_, fun _ => hclosed, fun hcall => by cases hcall⟩
      rw [hyield]
      exact hforward

/-- One use of a cursor in order. -/
theorem take_steps (h : Orderly start p) (use : Use) :
    Steps start (Turn.take perform use p) := by
  cases use with
  | next => exact next_steps h
  | invoke budget =>
      refine steps_of_ends (by simp) ?_
      simp only [perform, ends_bind]
      exact reaches_of_careful rfl (Session.invoke_careful budget) h
  | requireModel =>
      refine steps_of_ends (by simp) ?_
      exact reaches_of_careful rfl Session.requireModel_careful h
  | decode =>
      refine steps_of_ends (by simp) ?_
      simp only [perform, ends_bind]
      exact reaches_of_careful rfl Session.decode_careful h
  | block scratch =>
      refine steps_of_ends (by simp) ?_
      simp only [perform, ends_bind]
      exact reaches_of_careful rfl (Session.block_careful scratch) h
  | destroy =>
      refine steps_of_ends (by simp) ?_
      refine (destroy_forward h).imp ?_ ?_
      · exact fun _ q hq => ⟨hq.1, by simp, fun _ => hq.2⟩
      · exact fun _ q hq => ⟨hq.1, by simp, fun _ => hq.2⟩
  | close =>
      refine steps_of_ends (by simp) ?_
      refine (close_shuts h).imp ?_ ?_
      · exact fun _ q hq => ⟨hq.forward rfl, fun _ => hq.closed, by simp⟩
      · exact fun _ q hq => ⟨hq.forward rfl, fun _ => hq.closed, by simp⟩

/-- A destroyed session refuses what asks something of it, and is left as
it was, with its engine and the host. -/
theorem perform_refused {use : Use} (hasks : use.asksSession = true)
    (hdead : p.object.session.destroyed = true) :
    perform use p = .error .sessionDestroyed p := by
  have hrefused : ∀ {β : Type} {x : Op (Session (Recorded E)) β},
      Session.Careful x → onSession x p = .error .sessionDestroyed p := by
    intro β x hx
    simp only [onSession, Op.within,
      hx.refuses ⟨p.object.session, p.host⟩ hdead]
  cases use with
  | invoke budget =>
      exact bind_of_error (hrefused (Session.invoke_careful budget))
  | requireModel => exact hrefused Session.requireModel_careful
  | decode => exact bind_of_error (hrefused Session.decode_careful)
  | block scratch =>
      exact bind_of_error (hrefused (Session.block_careful scratch))
  | destroy => cases hasks
  | next => cases hasks
  | close => cases hasks

-- ================================================================ all runs

/-- What is true of a run of uses, from `p₀` to `p`. -/
structure Lifecycle (p₀ : Placed (Cursor (Recorded E)))
    (ts : List (Turn Use (Cursor (Recorded E))))
    (p : Placed (Cursor (Recorded E))) : Prop where
  /-- The engine is not reset before its session is destroyed. -/
  unreset : p.object.session.destroyed = false →
    Call.reset ∉ p.object.session.engine.calls
  /-- Then it is reset once, and nothing is asked of it any more. -/
  resetLast : p.object.session.destroyed = true →
    ∃ early, p.object.session.engine.calls = early ++ [.reset]
      ∧ Call.reset ∉ early
  released : p.object.closed = true →
    p.object.session.destroyed = true
  exhausted : p.object.exhausted = true → p.object.closed = true
  /-- Every use of `destroy` and `close`, and every `next` without a
  solution, comes to its end, even if it fails. -/
  destroys : ∀ t ∈ ts, t.call = .destroy →
    t.after.object.session.destroyed = true
  closes : ∀ t ∈ ts, t.call = .close ∨ t.call = .next ∧ yielded t = none →
    t.after.object.closed = true
  /-- There is no way back. -/
  staysDestroyed : ∀ t ∈ ts, t.before.object.session.destroyed = true →
    t.after.object.session.destroyed = true
  staysClosed : ∀ t ∈ ts, t.before.object.closed = true →
    t.after.object.closed = true
  /-- A destroyed session refuses whatever asks something of it. -/
  refuses : p.object.session.destroyed = true →
    ∀ use : Use, use.asksSession = true →
      ∃ f, f.errorClass = .preconditionViolation
        ∧ perform use p = .error f p
  /-- A closed cursor produces nothing. -/
  ends : p.object.closed = true → Cursor.next p = .ok none p
  /-- The buffer is given back at most once. -/
  givenBack : Cursor.givenBack p₀ ≤ Cursor.givenBack p
    ∧ Cursor.givenBack p ≤ Cursor.givenBack p₀ + 1
  count : p.object.count = (ts.filterMap yielded).length

/-- What one turn after the other leaves true. -/
structure Sofar (start : Int) (ts : List (Turn Use (Cursor (Recorded E))))
    (p : Placed (Cursor (Recorded E))) : Prop where
  orderly : Orderly start p
  steps : ∀ t ∈ ts, Steps start t
  count : p.object.count = (ts.filterMap yielded).length

/-- One use more. -/
theorem Sofar.step {ts : List (Turn Use (Cursor (Recorded E)))}
    (h : Sofar start ts p) (use : Use) :
    Sofar start (ts ++ [Turn.take perform use p])
      (Turn.take perform use p).after := by
  have hsteps := take_steps h.orderly use
  have hforward := hsteps.forward
  refine ⟨hforward.orderly, ?_, ?_⟩
  · intro t ht
    rcases List.mem_append.mp ht with ht | ht
    · exact h.steps t ht
    · rw [List.mem_singleton.mp ht]
      exact hsteps
  · rw [hforward.count, Turn.before_take, h.count, List.filterMap_append,
      List.length_append]
    congr 1
    cases hyield : yielded (Turn.take perform use p) with
    | none => simp [hyield]
    | some solution => simp [hyield]

/-- All uses up to here, by one use more at a time. -/
theorem sofar_turns (h : Orderly start p) (hcount : p.object.count = 0)
    (uses : List Use) :
    Sofar start (turns perform uses p) (afterTurns perform uses p) := by
  have hrun := turns_keep perform (Sofar start)
    (fun _ _ use hq => hq.step use) uses [] p
  exact hrun ⟨h, by simp, hcount⟩

/-- What has been kept so far is the lifecycle that was promised. -/
theorem Sofar.life {p₀ : Placed (Cursor (Recorded E))}
    {ts : List (Turn Use (Cursor (Recorded E)))}
    (h : Sofar (Cursor.givenBack p₀) ts p) : Lifecycle p₀ ts p where
  unreset := h.orderly.paired.alive
  resetLast := h.orderly.paired.destroyed
  released := h.orderly.destroyed
  exhausted := h.orderly.closed
  destroys t ht := (h.steps t ht).destroys
  closes t ht := (h.steps t ht).closes
  staysDestroyed t ht := (h.steps t ht).forward.destroyed
  staysClosed t ht := (h.steps t ht).forward.closed
  refuses hdead _ hasks :=
    ⟨.sessionDestroyed, rfl, perform_refused hasks hdead⟩
  ends := next_of_closed
  givenBack := h.orderly.once
  count := h.count

end Use

-- ============================================================== creation

namespace Session

open Recorded

variable [Engine E]

/-- What `create` answers is a session that is alive, with an engine that
has not been reset. -/
theorem create_fresh (make : HostOp E) (config : Config) (v : Value)
    (host : Host) :
    Ends (fun s _ => s.destroyed = false ∧ Call.reset ∉ s.engine.calls)
      (fun _ _ => True) (create (Recorded.making make) config v host) := by
  refine (create_loads make config v host).imp_answer ?_
  exact fun s _ hs => ⟨hs.1, hs.2.unreset⟩

end Session

/-- The life of a session and of a cursor over it, from the end of `create`
on: whatever the engine does, whatever memory is refused, whatever fails in
being given back, and whatever uses are made in whatever order. -/
theorem Cursor.lifecycle [Engine E] {make : HostOp E} {config : Config}
    {v : Value} {host host' : Host} {s : Session (Recorded E)}
    (hcreate : Session.create (Recorded.making make) config v host
      = .ok s host')
    (uses : List Use) :
    let p₀ : Placed (Cursor (Recorded E)) := ⟨.ofSession s, host'⟩
    Use.Lifecycle p₀ (turns Use.perform uses p₀)
      (afterTurns Use.perform uses p₀) := by
  intro p₀
  have hfresh := Session.create_fresh make config v host
  rw [hcreate] at hfresh
  obtain ⟨halive, hreset⟩ := hfresh
  have hpaired : s.Paired := by
    refine ⟨fun _ => hreset, fun hdead => ?_⟩
    rw [halive] at hdead
    cases hdead
  have hunclosed : Unclosed (givenBack p₀) p₀ := ⟨hpaired, rfl, rfl⟩
  exact (Use.sofar_turns (hunclosed.orderly rfl) rfl uses).life

/-- One solution is found; then the buffer cannot be given back and the
reset fails, and the session is destroyed all the same. -/
theorem Cursor.lifecycle_failing_release :
    let script : Script := {
      models := [[.int 1]], failures := [("reset", 1)] }
    let host := Host.new ⟨fun _ => false, fun _ => true, false⟩ none
    let v : Value := .seq .list [.seq .list [.int 1]]
    let uses : List Use := [.next, .close, .decode, .next]
    Ends
      (fun s host' =>
        let p₀ : Placed (Cursor (Recorded Scripted)) :=
          ⟨.ofSession s, host'⟩
        let p := afterTurns Use.perform uses p₀
        Use.Lifecycle p₀ (turns Use.perform uses p₀) p
          ∧ p.object.closed = true
          ∧ p.object.count = 1
          ∧ p.object.session.engine.calls.map Call.method
            = ["set_verbosity", "add_literal", "terminate_clause",
              "variable_count", "solve", "variable_count", "value_of",
              "variable_count", "value_of", "add_literal",
              "terminate_clause", "reset"])
      (fun _ _ => False)
      (Session.create
        (Recorded.making (pure ({ script := script } : Scripted))) {} v
        host) := by
  intro script host v uses
  generalize hcreate : Session.create
    (Recorded.making (pure ({ script := script } : Scripted))) {} v host
      = made
  have hrun : Ends
      (fun s host' =>
        let p₀ : Placed (Cursor (Recorded Scripted)) :=
          ⟨.ofSession s, host'⟩
        let p := afterTurns Use.perform uses p₀
        p.object.closed = true
          ∧ p.object.count = 1
          ∧ p.object.session.engine.calls.map Call.method
            = ["set_verbosity", "add_literal", "terminate_clause",
              "variable_count", "solve", "variable_count", "value_of",
              "variable_count", "value_of", "add_literal",
              "terminate_clause", "reset"])
      (fun _ _ => False) made := by
    rw [← hcreate]
    decide +kernel
  cases made with
  | error f host' => exact hrun
  | ok s host' => exact ⟨Cursor.lifecycle hcreate uses, hrun⟩

end SatSession
