/-
Sessions over any engine, up to their release.

An engine may fail at any call, and so may every request for memory. Two
things hold all the same. A session that is destroyed refuses every use at
once, and each of its uses but the last leaves the resets of its engine and
the blocks given back as they are (`Session.Careful`); the latter is shown
part by part with `Leaves`, since it takes no look at how a use ends. And
the engine is reset by the first `destroy`, whether or not the reset fails,
and is not called afterwards (`Session.Paired`).
-/
import SatSession.Proofs.Conversation.Record
import SatSession.Proofs.Conversation.Laws

namespace SatSession

variable {E α : Type}

-- ============================================================= resets

namespace Recorded

/-- There is no reset in the record. -/
theorem reset_notMem_iff {r : Recorded E} :
    Call.reset ∉ r.calls ↔ r.heard Call.isReset = [] := by
  have hreset : ∀ call : Call, call.isReset = true ↔ call = .reset := by
    intro call
    cases call <;> simp [Call.isReset]
  simp only [heard, calls, List.filter_eq_nil_iff, List.mem_map, hreset]
  constructor
  · intro h e he hcall
    exact h ⟨e, he, hcall⟩
  · intro h hex
    obtain ⟨e, he, hcall⟩ := hex
    exact h e he hcall

end Recorded

namespace Session

open Recorded

/-- Whether a session is destroyed, the calls of some kind that it has made
of its engine, and the blocks given back outside the calls of the engine. -/
def ledger (P : Call → Bool) (p : Placed (Session (Recorded E))) :
    Bool × List Exchange × Int :=
  (p.object.destroyed, Recorded.ledger P ⟨p.object.engine, p.host⟩)

/-- Calls of the kind ask for a search or reset the engine. -/
def Marked (P : Call → Bool) : Prop :=
  ∀ call : Call, call.isSolve = false → call.isReset = false →
    P call = false

variable {P : Call → Bool}

/-- The engine has been reset just if the session is destroyed, and then
once and at last. -/
structure Paired (s : Session (Recorded E)) : Prop where
  alive : s.destroyed = false → Call.reset ∉ s.engine.calls
  destroyed : s.destroyed = true →
    ∃ early, s.engine.calls = early ++ [.reset] ∧ Call.reset ∉ early

/-- A session that is alive stays so with its ledger. -/
theorem Paired.of_ledger {p q : Placed (Session (Recorded E))}
    (h : Paired p.object) (halive : p.object.destroyed = false)
    (hledger : ledger Call.isReset q = ledger Call.isReset p) :
    Paired q.object := by
  simp only [ledger, Recorded.ledger, Prod.mk.injEq] at hledger
  obtain ⟨hdestroyed, hheard, -⟩ := hledger
  rw [halive] at hdestroyed
  constructor
  · intro _
    apply reset_notMem_iff.mpr
    rw [hheard]
    exact reset_notMem_iff.mp (h.alive halive)
  · intro hdead
    rw [hdestroyed] at hdead
    cases hdead

-- ====================================================== what is left

/-- What the ledger of an engine does not show, that of its session does
not. -/
theorem onEngine_leaves {op : Op (Recorded E) α}
    (h : Leaves (Recorded.ledger P) op) :
    Leaves (ledger P) (onEngine op) := by
  apply h.within
  intro s host q hq
  show (s.destroyed, _) = (s.destroyed, _)
  rw [← hq]

/-- On the host only what is given back shows. -/
theorem onHost_leaves {op : HostOp α} (h : Leaves Host.frees op) :
    Leaves (ledger P) (Op.onHost op : Op (Session (Recorded E)) α) := by
  apply h.onHost
  intro s host host' hfrees
  simp only [Same, ledger, Recorded.ledger, givenBack, hfrees]

variable [Engine E]

/-- Between searches a session makes no marked calls and gives nothing
back. -/
theorem ledger_allows (hP : Marked P) :
    Allows (E := Recorded E) (Same (ledger P)) where
  variableCount := onEngine_leaves (hear_leaves (hP _ rfl rfl))
  valueOf _ := onEngine_leaves (hear_leaves (hP _ rfl rfl))
  addLiteral _ := onEngine_leaves (hear_leaves (hP _ rfl rfl))
  terminateClause := onEngine_leaves (hear_leaves (hP _ rfl rfl))
  alloc _ := onHost_leaves (Host.alloc_leaves Host.unasked_frees _)
  realloc _ _ _ :=
    onHost_leaves (Host.realloc_leaves Host.unasked_frees _ _ _)
  poke _ _ _ := onHost_leaves (Host.onHeap_leaves Host.unasked_frees)
  note _ := onHost_leaves (Host.note_leaves _)
  update g hg s host := by
    obtain ⟨hdestroyed, hengine⟩ := hg s
    simp only [Same, ledger, hdestroyed, hengine]

-- ====================================================== what is refused

/-- A use that leaves the ledger of a session, and that a destroyed session
refuses at once. -/
structure Careful (x : Op (Session (Recorded E)) α) : Prop where
  leaves : Leaves (ledger Call.isReset) x
  refuses : ∀ p, p.object.destroyed = true →
    x p = .error .sessionDestroyed p

omit [Engine E] in
/-- Resets are among the calls that have to be seen. -/
theorem reset_marked : Marked Call.isReset := fun _ _ h => h

/-- An invocation neither resets nor gives back. -/
theorem invoke_careful (budget : Value) :
    Careful (invoke budget : Op (Session (Recorded E)) Outcome) := by
  refine ⟨?_, fun p hp => ?_⟩
  · apply invoke_moves (ledger_allows reset_marked).records
    exact onEngine_leaves (hear_leaves rfl)
  unfold invoke
  rw [Op.read_bind_apply]
  simp only [hp, if_true]
  rfl

omit [Engine E] in
theorem requireModel_careful :
    Careful (requireModel : Op (Session (Recorded E)) Unit) := by
  refine ⟨requireModel_moves, fun p hp => ?_⟩
  unfold requireModel
  rw [Op.read_bind_apply]
  simp only [hp, if_true]
  rfl

/-- Nor does decoding. -/
theorem decode_careful :
    Careful (decode : Op (Session (Recorded E)) Solution) := by
  have hallows := ledger_allows (E := E) reset_marked
  refine ⟨decode_moves hallows.variableCount hallows.valueOf,
    fun p hp => ?_⟩
  unfold decode
  exact bind_of_error (requireModel_careful.refuses p hp)

/-- Nor does blocking, which asks for memory and keeps it. -/
theorem block_careful (scratch : Option BlockId) :
    Careful (block scratch : Op (Session (Recorded E)) BlockId) := by
  refine ⟨block_moves (ledger_allows reset_marked).toDeals scratch,
    fun p hp => ?_⟩
  unfold block
  exact bind_of_error (requireModel_careful.refuses p hp)

omit [Engine E] in
/-- A careful use keeps the engine and its reset paired. -/
theorem Careful.keeps {x : Op (Session (Recorded E)) α} (hx : Careful x)
    {p : Placed (Session (Recorded E))} (h : Paired p.object) :
    Ends
      (fun _ q => Paired q.object
        ∧ ledger Call.isReset q = ledger Call.isReset p)
      (fun _ q => Paired q.object
        ∧ ledger Call.isReset q = ledger Call.isReset p) (x p) := by
  by_cases hp : p.object.destroyed = true
  · rw [hx.refuses p hp]
    exact ⟨h, rfl⟩
  · have halive : p.object.destroyed = false := by simpa using hp
    refine (hx.leaves p).imp ?_ ?_
    · exact fun _ q hq => ⟨h.of_ledger halive hq, hq⟩
    · exact fun _ q hq => ⟨h.of_ledger halive hq, hq⟩

-- ============================================================= release

/-- A session that has been destroyed just now, or was so before. -/
structure Released (p q : Placed (Session (Recorded E))) : Prop where
  paired : Paired q.object
  destroyed : q.object.destroyed = true
  givenBack : givenBack ⟨q.object.engine, q.host⟩
    = givenBack ⟨p.object.engine, p.host⟩

/-- The engine is reset with the first `destroy`. The session counts as
destroyed whether or not the reset fails. -/
theorem destroy_releases {p : Placed (Session (Recorded E))}
    (h : Paired p.object) :
    Ends (fun _ q => Released p q) (fun _ q => Released p q)
      (destroy p) := by
  unfold destroy
  rw [Op.read_bind_apply]
  by_cases hp : p.object.destroyed = true
  · simp only [hp, if_true]
    exact ⟨h, hp, rfl⟩
  · have halive : p.object.destroyed = false := by simpa using hp
    have hreset := h.alive halive
    simp only [halive, Bool.false_eq_true, if_false]
    have hreleased : ∀ (r : Recorded E) (host : Host) response,
        r.record = p.object.engine.record ++ [⟨.reset, response⟩] →
        Recorded.givenBack ⟨r, host⟩
          = Recorded.givenBack ⟨p.object.engine, p.host⟩ →
        ∀ log, Released p ⟨{ p.object with
            destroyed := true, last := none, engine := r },
          { host with log := log }⟩ := by
      intro r host response hr hgives log
      refine ⟨⟨by simp, fun _ => ?_⟩, rfl, hgives⟩
      refine ⟨p.object.engine.calls, ?_, hreset⟩
      show r.record.map Exchange.call = _
      rw [hr, List.map_append]
      rfl
    rw [ends_bind, Op.ends_update, ends_bind, onEngine, Op.ends_within]
    show Ends _ _ (hear .reset (fun _ => Response.done) Engine.reset
      ⟨p.object.engine, p.host⟩)
    rw [ends_hear]
    refine (ends_true _).imp ?_ ?_
    · intro _ q _
      exact hreleased _ _ _ rfl (givenBack_after q _) _
    · intro f q _
      exact hreleased _ _ _ rfl (givenBack_after q _) _

end Session

end SatSession
