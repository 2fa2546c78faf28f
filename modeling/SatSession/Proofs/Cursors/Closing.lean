/-
Closing a cursor.

Closing gives back whatever the cursor knows of: the buffer first and then
the tables of its session, once each (`close_ends`). What the cursor does
not know of stays taken. The statement therefore speaks about any list of
lost blocks beside the known ones, and after closing these are all that is
left in the account.
-/
import SatSession.Cursor
import SatSession.Proofs.Sessions.Blocking

namespace SatSession.Cursor

open TableEngine

variable {c : Cursor TableEngine} {host base : Host} {lost : List BlockId}

-- ========================================================= before that

/-- The blocks that a cursor knows of. -/
def known (c : Cursor TableEngine) : List BlockId :=
  c.session.engine.tables ++ c.scratch.toList

/-- A cursor that can be closed, and blocks that it does not know of. -/
structure Closable (lost : List BlockId) (c : Cursor TableEngine)
    (base host : Host) : Prop where
  unclosed : c.closed = false
  intact : c.session.destroyed = false
  plain : host.Plain
  takesBack : host.TakesBack
  seated : Seated c.session.engine host.heap
  holding : Host.Holding (c.known ++ lost) base host

/-- A cursor that has been closed, and what it has left behind. -/
structure Closed (lost : List BlockId) (c : Cursor TableEngine)
    (base host : Host) (p : Placed (Cursor TableEngine)) : Prop where
  closed : p.object.closed = true
  exhausted : p.object.exhausted = c.exhausted
  holding : Host.Holding lost base p.host
  handed : p.host.heap.blocks.size = host.heap.blocks.size
  sizes : ∀ b ∈ lost, p.host.heap.size b = host.heap.size b
  answers : p.host.answers = host.answers
  requests : p.host.requests = host.requests

-- =========================================================== the buffer

/-- A cursor that has forgotten its buffer. -/
def forgetful (c : Cursor TableEngine) : Cursor TableEngine :=
  { c with scratch := none }

/-- What giving the buffer back leaves to be closed. -/
structure Unbuffered (lost : List BlockId) (c : Cursor TableEngine)
    (base host : Host) (p : Placed (Cursor TableEngine)) : Prop where
  object : p.object = c.forgetful
  rules : Host.SameRules host p.host
  seated : Seated c.session.engine p.host.heap
  holding : Host.Holding (c.session.engine.tables ++ lost) base p.host
  handed : p.host.heap.blocks.size = host.heap.blocks.size
  sizes : ∀ b ∈ lost, p.host.heap.size b = host.heap.size b
  answers : p.host.answers = host.answers
  requests : p.host.requests = host.requests

/-- The buffer is given back, if there is one. -/
theorem releaseScratch_ends (hp : host.Plain) (ht : host.TakesBack)
    (hs : Seated c.session.engine host.heap)
    (hholding : Host.Holding (c.known ++ lost) base host) :
    Ends (fun _ p => Unbuffered lost c base host p) never
      (releaseScratch ⟨c, host⟩) := by
  unfold releaseScratch
  rw [Op.read_bind_apply]
  cases hscratch : c.scratch with
  | none =>
      simp only [known, hscratch, Option.toList_none, List.append_nil]
        at hholding
      refine ⟨?_, .refl host, hs, hholding, rfl, fun _ _ => rfl, rfl, rfl⟩
      rw [forgetful, ← hscratch]
  | some b =>
      have hown : c.known ++ lost
          = c.session.engine.tables ++ b :: lost := by
        simp [known, hscratch]
      rw [hown] at hholding
      have hother : ∀ b' ∈ c.session.engine.tables ++ lost, b' ≠ b := by
        intro b' hb' heq
        have hapart := List.perm_middle.nodup_iff.mp hholding.apart
        exact (List.nodup_cons.mp hapart).1 (heq ▸ hb')
      have hsame : ∀ b' ∈ c.session.engine.tables ++ lost,
          (host.takenBack b).heap.contents b' = host.heap.contents b' :=
        fun b' hb' => by
          rw [Host.takenBack, Heap.contents_released,
            if_neg fun h => hother b' hb' h.1]
      have hfree := Host.free_eq hp ht (b := b) rfl
      show Ends _ _ (Op.onHost (Host.free b (.int (host.heap.size b)))
        ⟨c.forgetful, host⟩)
      rw [Op.ends_onHost, hfree]
      refine ⟨rfl, ⟨rfl, rfl, rfl, rfl, rfl⟩, ?_, hholding.released _,
        Heap.handed_released .., ?_, rfl, rfl⟩
      · exact hs.of_contents fun b' hb' => hsame b' (by simp [hb'])
      · intro b' hb'
        rw [Heap.size, hsame b' (by simp [hb'])]
        rfl

-- ============================================================== closing

/-- Closing gives back what the cursor knows of. -/
theorem close_ends (h : Closable lost c base host) :
    Ends (fun _ p => Closed lost c base host p) never
      (close ⟨c, host⟩) := by
  have hbuffer := releaseScratch_ends
    (c := { c with closed := true }) h.plain h.takesBack h.seated h.holding
  unfold close
  rw [Op.read_bind_apply]
  simp only [h.unclosed, Bool.false_eq_true, if_false]
  rw [Op.update_bind_apply, Op.ends_thenAlways]
  refine hbuffer.imp_ok ?_
  intro _ p hp
  obtain ⟨c', host'⟩ := p
  obtain rfl := hp.object
  have hdestroy := Session.destroy_eq (h.plain.of_sameRules hp.rules)
    (h.takesBack.of_sameRules hp.rules) hp.seated h.intact
  rw [ends_onSession]
  show Ends _ _ (Session.destroy ⟨c.session, host'⟩)
  rw [hdestroy]
  refine ⟨rfl, rfl, Session.holding_hostAfter hp.holding, ?_, ?_, ?_,
    hp.requests⟩
  · exact (Session.handed_hostAfter ..).trans hp.handed
  · intro b hb
    have hother : b ∉ c.session.engine.tables := fun hmem =>
      (List.nodup_append.mp hp.holding.apart).2.2 b hmem b hb rfl
    exact (Session.size_hostAfter host' hother).trans (hp.sizes b hb)
  · exact (Session.answers_hostAfter ..).trans hp.answers

end SatSession.Cursor
