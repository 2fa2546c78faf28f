/-
Cursors over any engine, up to their close.

A cursor that is exhausted is closed, one that is closed has destroyed its
session, and the buffer is given back when it is closed and at no other
time (`Cursor.Orderly`). `close` is where every cursor comes to an end:
asked for, on the way out of an advance that fails, or because no further
solution was found. The session is destroyed there behind the buffer, even
if the buffer cannot be given back (`Cursor.unclosed_shuts`), so that an
advance without a solution leaves a closed cursor in order whatever failed
(`Cursor.next_forward`).
-/
import SatSession.Proofs.Conversation.Releasing

namespace SatSession

variable {E α : Type}

-- ============================================================= cursors

namespace Host

/-- Giving a block back is one call of `free`, or none if the trace cannot
take it up. -/
theorem free_counts (b : BlockId) (size : Value) (host : Host) :
    Ends (fun _ host' => host.frees ≤ host'.frees
        ∧ host'.frees ≤ host.frees + 1)
      (fun _ host' => host.frees ≤ host'.frees
        ∧ host'.frees ≤ host.frees + 1) (free b size host) := by
  unfold free
  rw [ends_bind]
  refine (recordRequest_leaves unasked_frees (.free size) host).imp ?_ ?_
  · intro _ noted hnoted
    rw [modify_bind_apply, get_bind_apply]
    have hcount : host.frees ≤ noted.frees + 1
        ∧ noted.frees + 1 ≤ host.frees + 1 := by omega
    split
    · exact hcount
    · rw [ends_onHeap]
      exact (ends_true _).imp (fun _ _ _ => hcount) fun _ _ _ => hcount
  · intro _ noted hnoted
    exact ⟨by omega, by omega⟩

end Host

namespace Cursor

open Recorded Session

/-- The blocks given back by a cursor and its user. -/
def givenBack (p : Placed (Cursor (Recorded E))) : Int :=
  Recorded.givenBack ⟨p.object.session.engine, p.host⟩

/-- How a cursor stands, whatever was done with it. -/
structure Orderly (start : Int) (p : Placed (Cursor (Recorded E))) :
    Prop where
  paired : p.object.session.Paired
  destroyed : p.object.closed = true → p.object.session.destroyed = true
  closed : p.object.exhausted = true → p.object.closed = true
  kept : p.object.closed = false → givenBack p = start
  once : start ≤ givenBack p ∧ givenBack p ≤ start + 1

/-- One use of a cursor: it stays in order, it does not come back from
being closed or destroyed, and it has produced so many solutions more. -/
structure Forward (start : Int) (more : Nat)
    (p q : Placed (Cursor (Recorded E))) : Prop where
  orderly : Orderly start q
  closed : p.object.closed = true → q.object.closed = true
  destroyed : p.object.session.destroyed = true →
    q.object.session.destroyed = true
  count : q.object.count = p.object.count + more

variable {start : Int} {p q : Placed (Cursor (Recorded E))}

-- ============================================================ sessions

/-- What uses of its session leave of a cursor. -/
def ledger (p : Placed (Cursor (Recorded E))) :
    Bool × Bool × Bool × List Exchange × Int :=
  (p.object.closed, p.object.exhausted,
    Session.ledger Call.isReset ⟨p.object.session, p.host⟩)

/-- What the ledger of a session shows, its cursor shows. -/
theorem onSession_leaves {x : Op (Session (Recorded E)) α}
    (hx : Leaves (Session.ledger Call.isReset) x) :
    Leaves ledger (onSession x) := by
  apply hx.within
  intro c host q hq
  show (c.closed, c.exhausted, _) = (c.closed, c.exhausted, _)
  rw [← hq]

/-- No call of the session counts a solution. -/
theorem onSession_leaves_count (x : Op (Session (Recorded E)) α) :
    Leaves (fun p => p.object.count) (onSession x) := by
  intro p
  rw [onSession, Op.ends_within]
  exact (ends_true _).imp (fun _ _ _ => rfl) fun _ _ _ => rfl

/-- A cursor whose session is used with care stays in order. -/
theorem careful_forward {x : Op (Session (Recorded E)) α} (hx : Careful x)
    (h : Orderly start p) :
    Ends (fun _ q => Forward start 0 p q) (fun _ q => Forward start 0 p q)
      (onSession x p) := by
  have hforward : ∀ q : Placed (Session (Recorded E)),
      q.object.Paired ∧ Session.ledger Call.isReset q
          = Session.ledger Call.isReset ⟨p.object.session, p.host⟩ →
        Forward start 0 p
          ⟨{ p.object with session := q.object }, q.host⟩ := by
    intro q hq
    obtain ⟨hpaired, hledger⟩ := hq
    simp only [Session.ledger, Recorded.ledger, Prod.mk.injEq] at hledger
    obtain ⟨hdestroyed, -, hsame⟩ := hledger
    have hgives : givenBack ⟨{ p.object with session := q.object }, q.host⟩
        = givenBack p := hsame
    refine ⟨⟨hpaired, ?_, h.closed, ?_, ?_⟩, fun hc => hc, ?_, rfl⟩
    · intro hc
      exact hdestroyed.trans (h.destroyed hc)
    · intro hc
      exact hgives.trans (h.kept hc)
    · rw [hgives]
      exact h.once
    · exact fun hd => hdestroyed.trans hd
  rw [onSession, Op.ends_within]
  exact (hx.keeps h.paired).imp (fun _ q hq => hforward q hq)
    fun _ q hq => hforward q hq

variable [Engine E]

/-- The session of a cursor may be destroyed at any time. -/
theorem destroy_forward (h : Orderly start p) :
    Ends
      (fun _ q => Forward start 0 p q ∧ q.object.session.destroyed = true)
      (fun _ q => Forward start 0 p q ∧ q.object.session.destroyed = true)
      (onSession Session.destroy p) := by
  have hforward : ∀ q : Placed (Session (Recorded E)),
      Released ⟨p.object.session, p.host⟩ q →
        Forward start 0 p ⟨{ p.object with session := q.object }, q.host⟩
          ∧ q.object.destroyed = true := by
    intro q hq
    have hgives : givenBack ⟨{ p.object with session := q.object }, q.host⟩
        = givenBack p := hq.givenBack
    refine ⟨⟨⟨hq.paired, fun _ => hq.destroyed, h.closed, ?_, ?_⟩,
      fun hc => hc, fun _ => hq.destroyed, rfl⟩, hq.destroyed⟩
    · intro hc
      exact hgives.trans (h.kept hc)
    · rw [hgives]
      exact h.once
  rw [onSession, Op.ends_within]
  exact (destroy_releases h.paired).imp (fun _ q hq => hforward q hq)
    fun _ q hq => hforward q hq

-- =============================================================== closing

/-- A cursor that is open and in order. -/
structure Unclosed (start : Int) (p : Placed (Cursor (Recorded E))) :
    Prop where
  paired : p.object.session.Paired
  unclosed : p.object.closed = false
  kept : givenBack p = start

omit [Engine E] in
/-- A cursor in order that is open has given nothing back. -/
theorem Orderly.unclosed (h : Orderly start p)
    (hopen : p.object.closed = false) : Unclosed start p :=
  ⟨h.paired, hopen, h.kept hopen⟩

omit [Engine E] in
/-- An open cursor is not exhausted. -/
theorem Orderly.unfinished (h : Orderly start p)
    (hopen : p.object.closed = false) : p.object.exhausted = false := by
  cases hex : p.object.exhausted with
  | false => rfl
  | true =>
      rw [h.closed hex] at hopen
      cases hopen

omit [Engine E] in
/-- It is in order as long as it is not exhausted. -/
theorem Unclosed.orderly (h : Unclosed start p)
    (hun : p.object.exhausted = false) : Orderly start p := by
  have hkept := h.kept
  refine ⟨h.paired, ?_, ?_, fun _ => hkept, ⟨by omega, by omega⟩⟩
  · intro hc
    rw [h.unclosed] at hc
    cases hc
  · intro hex
    rw [hun] at hex
    cases hex

/-- The buffer has been given back, or there was none. -/
structure Gave (p q : Placed (Cursor (Recorded E))) : Prop where
  session : q.object.session = p.object.session
  closed : q.object.closed = p.object.closed
  count : q.object.count = p.object.count
  few : givenBack p ≤ givenBack q ∧ givenBack q ≤ givenBack p + 1

omit [Engine E] in
/-- At most one block is given back, and then it is held no more, even if
that fails. -/
theorem releaseScratch_gives (p : Placed (Cursor (Recorded E))) :
    Ends (fun _ q => Gave p q) (fun _ q => Gave p q)
      (releaseScratch p) := by
  unfold releaseScratch
  rw [Op.read_bind_apply]
  cases p.object.scratch with
  | none => exact ⟨rfl, rfl, rfl, ⟨Int.le_refl _, by omega⟩⟩
  | some b =>
      have hgave : ∀ host : Host, p.host.frees ≤ host.frees
          ∧ host.frees ≤ p.host.frees + 1 →
          Gave p ⟨{ p.object with scratch := none }, host⟩ := by
        intro host hfrees
        refine ⟨rfl, rfl, rfl, ?_⟩
        simp only [givenBack, Recorded.givenBack]
        omega
      rw [ends_bind, Op.ends_update, get_bind_apply, Op.ends_onHost]
      refine (Host.free_counts _ _ _).imp ?_ ?_
      · exact fun _ host h => hgave host h
      · exact fun _ host h => hgave host h

/-- A cursor that is closed, by this use or an earlier one. -/
structure Shut (start : Int) (p q : Placed (Cursor (Recorded E))) :
    Prop where
  orderly : Orderly start q
  closed : q.object.closed = true
  count : q.object.count = p.object.count

omit [Engine E] in
/-- Whatever was done before a cursor was closed, the way is forward. -/
theorem Shut.forward {p₁ : Placed (Cursor (Recorded E))}
    (h : Shut start p₁ q) (hcount : p₁.object.count = p.object.count) :
    Forward start 0 p q :=
  ⟨h.orderly, fun _ => h.closed, fun _ => h.orderly.destroyed h.closed,
    h.count.trans hcount⟩

/-- An open cursor is closed, and its session destroyed, whatever fails on
the way. -/
theorem unclosed_shuts (h : Unclosed start p) :
    Ends (fun _ q => Shut start p q) (fun _ q => Shut start p q)
      (close p) := by
  -- the session is destroyed behind the buffer, whether or not the buffer
  -- could be given back
  have hdestroy : ∀ q : Placed (Cursor (Recorded E)),
      Gave ⟨{ p.object with closed := true }, p.host⟩ q →
        Ends (fun _ q => Shut start p q) (fun _ q => Shut start p q)
          (onSession Session.destroy q) := by
    intro q hgave
    have hpaired : q.object.session.Paired := by
      rw [hgave.session]
      exact h.paired
    have hshut : ∀ r : Placed (Session (Recorded E)),
        Released ⟨q.object.session, q.host⟩ r →
          Shut start p ⟨{ q.object with session := r.object }, r.host⟩ := by
      intro r hr
      have hgives : givenBack
          ⟨{ q.object with session := r.object }, r.host⟩
          = givenBack q := hr.givenBack
      have hstart : givenBack
          ⟨{ p.object with closed := true }, p.host⟩ = start := h.kept
      have hfew := hgave.few
      refine ⟨⟨hr.paired, fun _ => hr.destroyed, fun _ => hgave.closed, ?_,
        ?_⟩, hgave.closed, hgave.count⟩
      · intro hc
        rw [show q.object.closed = true from hgave.closed] at hc
        cases hc
      · rw [hgives]
        omega
    rw [onSession, Op.ends_within]
    exact (destroy_releases hpaired).imp (fun _ r hr => hshut r hr)
      fun _ r hr => hshut r hr
  unfold close
  rw [Op.read_bind_apply]
  simp only [h.unclosed, Bool.false_eq_true, if_false]
  rw [ends_bind, Op.ends_update, Op.ends_thenAlways]
  refine (releaseScratch_gives _).imp ?_ ?_
  · exact fun _ q hgave => hdestroy q hgave
  · intro f q hgave
    exact (hdestroy q hgave).imp (fun _ _ h => h) fun _ _ h => h

/-- Closing a cursor keeps it in order; a second time does nothing. -/
theorem close_shuts (h : Orderly start p) :
    Ends (fun _ q => Shut start p q) (fun _ q => Shut start p q)
      (close p) := by
  by_cases hc : p.object.closed = true
  · unfold close
    rw [Op.read_bind_apply]
    simp only [hc, if_true]
    exact ⟨h, hc, rfl⟩
  · exact unclosed_shuts (h.unclosed (by simpa using hc))

-- ============================================================= advancing

/-- An advance resets nothing and gives nothing back. -/
theorem advance_leaves :
    Leaves ledger (advance : Op (Cursor (Recorded E))
      (Outcome × Option Solution)) := by
  unfold advance
  refine (onSession_leaves (invoke_careful _).leaves).bind fun outcome => ?_
  refine .ite ?_ (.pure _)
  refine (onSession_leaves decode_careful.leaves).bind fun solution => ?_
  refine Moves.read.bind fun c => ?_
  refine (onSession_leaves (block_careful _).leaves).bind fun buffer => ?_
  refine Moves.bind (Moves.update fun _ _ => rfl) fun _ => ?_
  exact .pure _

/-- An advance counts the solution that it produces, and nothing else. -/
theorem advance_counts (p : Placed (Cursor (Recorded E))) :
    Ends (fun r q => q.object.count
        = p.object.count + if r.2.isSome then 1 else 0)
      (fun _ q => q.object.count = p.object.count) (advance p) := by
  unfold advance
  rw [ends_bind]
  refine (onSession_leaves_count _ p).imp ?_ fun _ _ h => h
  intro outcome p₁ h₁
  by_cases hsat : outcome = .satisfiable
  · rw [if_pos hsat, ends_bind]
    refine (onSession_leaves_count _ p₁).imp ?_ fun _ _ h => h.trans h₁
    intro solution p₂ h₂
    rw [Op.read_bind_apply, ends_bind]
    refine (onSession_leaves_count _ p₂).imp ?_ ?_
    · intro buffer p₃ h₃
      have hsame : p₃.object.count = p.object.count :=
        h₃.trans (h₂.trans h₁)
      show p₃.object.count + 1 = p.object.count + 1
      rw [hsame]
    · exact fun _ _ h => h.trans (h₂.trans h₁)
  · rw [if_neg hsat]
    exact h₁

/-- What an advance leaves of an open cursor. -/
structure Advanced (start : Int) (p q : Placed (Cursor (Recorded E))) :
    Prop where
  unclosed : Unclosed start q
  exhausted : q.object.exhausted = p.object.exhausted
  destroyed : q.object.session.destroyed = p.object.session.destroyed

omit [Engine E] in
/-- A cursor is still open behind an advance, whatever was said in it. -/
theorem Unclosed.advanced (h : Unclosed start p)
    (hledger : ledger q = ledger p) (hpaired : q.object.session.Paired) :
    Advanced start p q := by
  simp only [ledger, Session.ledger, Recorded.ledger,
    Prod.mk.injEq] at hledger
  obtain ⟨hclosed, hexhausted, hdestroyed, -, hgives⟩ := hledger
  exact ⟨⟨hpaired, hclosed.trans h.unclosed, hgives.trans h.kept⟩,
    hexhausted, hdestroyed⟩

/-- An advance leaves an open cursor open and its engine not reset; one
whose session is destroyed stops at once. -/
theorem advance_keeps (h : Unclosed start p) :
    Ends (fun _ q => Advanced start p q) (fun _ q => Advanced start p q)
      (advance p) := by
  by_cases hdead : p.object.session.destroyed = true
  · have hrefused : onSession (Session.invoke Session.noBudget) p
        = .error .sessionDestroyed p := by
      simp only [onSession, Op.within,
        (invoke_careful _).refuses ⟨p.object.session, p.host⟩ hdead]
    unfold advance
    rw [bind_of_error hrefused]
    exact h.advanced rfl h.paired
  · have halive : p.object.session.destroyed = false := by simpa using hdead
    have hpaired : ∀ q : Placed (Cursor (Recorded E)),
        ledger q = ledger p → q.object.session.Paired := by
      intro q hledger
      have hsession : Session.ledger Call.isReset ⟨q.object.session, q.host⟩
          = Session.ledger Call.isReset ⟨p.object.session, p.host⟩ :=
        congrArg (fun l => l.2.2) hledger
      exact Paired.of_ledger (p := ⟨_, _⟩) (q := ⟨_, _⟩) h.paired halive
        hsession
    refine (advance_leaves p).imp ?_ ?_
    · exact fun _ q hq => h.advanced hq (hpaired q hq)
    · exact fun _ q hq => h.advanced hq (hpaired q hq)

omit [Engine E] in
/-- A cursor that is closed produces nothing and changes nothing. -/
theorem next_of_closed [Engine E] (hc : p.object.closed = true) :
    next p = .ok none p := by
  unfold next
  rw [Op.read_bind_apply]
  simp only [hc, Bool.or_true, if_true]
  rfl

/-- A use of a cursor that produces no solution closes it. -/
theorem next_forward (h : Orderly start p) :
    Ends
      (fun r q => Forward start (if r.isSome then 1 else 0) p q
        ∧ (r = none → q.object.closed = true))
      (fun _ q => Forward start 0 p q ∧ q.object.closed = true)
      (next p) := by
  by_cases hc : p.object.closed = true
  · rw [next_of_closed hc]
    exact ⟨⟨h, fun hc => hc, fun hd => hd, rfl⟩, fun _ => hc⟩
  have hopen : p.object.closed = false := by simpa using hc
  have hun := h.unfinished hopen
  have hadvance := (advance_keeps (h.unclosed hopen)).and (advance_counts p)
  unfold next
  rw [Op.read_bind_apply]
  simp only [hopen, hun, Bool.or_self, Bool.false_eq_true, if_false]
  rw [ends_bind, Op.ends_orRelease]
  refine hadvance.imp ?_ ?_
  · intro r q hq
    obtain ⟨outcome, solution⟩ := r
    obtain ⟨hadvanced, hcount⟩ := hq
    cases solution with
    | some solution =>
        refine ⟨⟨hadvanced.unclosed.orderly ?_, ?_, ?_, hcount⟩, ?_⟩
        · rw [hadvanced.exhausted]
          exact hun
        · exact fun hclosed => absurd hclosed hc
        · exact fun hd => hadvanced.destroyed.trans hd
        · exact fun hnone => by cases hnone
    | none =>
        -- the end is noted and marked before the cursor is closed
        have hmarked : ∀ log, Unclosed start
            ⟨{ q.object with exhausted := true },
              { q.host with log := log }⟩ := by
          intro log
          exact ⟨hadvanced.unclosed.paired, hadvanced.unclosed.unclosed,
            hadvanced.unclosed.kept⟩
        show Ends _ _ ((close >>= fun _ => pure none)
          (⟨{ q.object with exhausted := true }, { q.host with
            log := q.host.log.push
              (.enumerationFinished q.object.count outcome) }⟩ :
            Placed (Cursor (Recorded E))))
        rw [ends_bind]
        refine (unclosed_shuts (hmarked _)).imp ?_ ?_
        · intro _ q' hshut
          exact ⟨hshut.forward hcount, fun _ => hshut.closed⟩
        · intro _ q' hshut
          exact ⟨hshut.forward hcount, hshut.closed⟩
  · intro f q hq
    obtain ⟨hadvanced, hcount⟩ := hq
    refine (unclosed_shuts hadvanced.unclosed).imp ?_ ?_
    · intro _ q' hshut
      exact ⟨hshut.forward hcount, hshut.closed⟩
    · intro _ q' hshut
      exact ⟨hshut.forward hcount, hshut.closed⟩

end Cursor

end SatSession
