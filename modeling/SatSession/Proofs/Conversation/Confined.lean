/-
Engines that keep to their own blocks.

An operation on an engine is given the whole host, so that nothing in its
type keeps it from writing into a buffer that belongs to somebody else. The
program cannot do that: a block is only known to whom it was handed. Here
this is a law (`Modest`). Which blocks an engine owns is read off its state;
a call may change the contents of blocks that it owns, and may come to own
blocks that are handed out during the call, and nothing else (`Confined`).

What is confined composes, so that the law passes from the single call to
the record of an engine, to the loading of a problem and to the end of
`create` (`Session.create_bounded`). From there on a buffer that was handed
to the session is apart from the blocks of the engine, and keeps its bytes
through every call (`Session.Holds`).
-/
import SatSession.Proofs.Conversation.Record
import SatSession.Proofs.Conversation.Laws
import SatSession.Proofs.Memory.Blocks

namespace SatSession

variable {E α : Type} {own : E → BlockId → Prop}

-- ================================================================= law

/-- An engine has changed no blocks but its own, and owns no more than it
did and than was handed out since. -/
structure Confined (own : E → BlockId → Prop) (p q : Placed E) : Prop where
  handed : p.host.heap.blocks.size ≤ q.host.heap.blocks.size
  others : ∀ b, b < p.host.heap.blocks.size → ¬ own p.object b →
    q.host.heap.contents b = p.host.heap.contents b
  owned : ∀ b, own q.object b → own p.object b
    ∨ p.host.heap.blocks.size ≤ b ∧ b < q.host.heap.blocks.size

instance : IsPreorder (Placed E) (Confined own) where
  refl _ := ⟨Nat.le_refl _, fun _ _ _ => rfl, fun _ h => Or.inl h⟩
  trans p q r h h' := by
    refine ⟨Nat.le_trans h.handed h'.handed, ?_, ?_⟩
    · intro b hb hnot
      have hq : ¬ own q.object b := by
        intro hown
        rcases h.owned b hown with hold | ⟨hnew, -⟩
        · exact hnot hold
        · exact Nat.not_lt.mpr hnew hb
      rw [h'.others b (Nat.lt_of_lt_of_le hb h.handed) hq]
      exact h.others b hb hnot
    · intro b hb
      rcases h'.owned b hb with hold | ⟨hnew, hlt⟩
      · rcases h.owned b hold with hold | ⟨hnew, hlt⟩
        · exact Or.inl hold
        · exact Or.inr ⟨hnew, Nat.lt_of_lt_of_le hlt h'.handed⟩
      · exact Or.inr ⟨Nat.le_trans h.handed hnew, hlt⟩

/-- An engine all of whose methods keep to the blocks that it owns. -/
abbrev Modest [Engine E] (own : E → BlockId → Prop) : Prop :=
  Obeys (Confined own)

/-- All blocks of an engine have been handed out. -/
def Bounded (own : E → BlockId → Prop) (p : Placed E) : Prop :=
  ∀ b, own p.object b → b < p.host.heap.blocks.size

/-- An engine that keeps to its blocks gains only blocks that are handed
out. -/
theorem Bounded.confined {p q : Placed E} (h : Bounded own p)
    (hpq : Confined own p q) : Bounded own q := by
  intro b hb
  rcases hpq.owned b hb with hold | ⟨-, hnew⟩
  · exact Nat.lt_of_lt_of_le (h b hold) hpq.handed
  · exact hnew

-- ========================================================== the record

namespace Recorded

/-- The record owns nothing. -/
def owned (own : E → BlockId → Prop) (r : Recorded E) (b : BlockId) : Prop :=
  own r.engine b

/-- Recording a call touches no block. -/
theorem hear_confined {call : Call} {response : α → Response} {op : Op E α}
    (h : Moves (Confined own) op) :
    Moves (Confined (owned own)) (hear call response op) := by
  intro p
  rw [ends_hear]
  refine (h _).imp ?_ ?_
  · exact fun _ _ hq => ⟨hq.handed, hq.others, hq.owned⟩
  · exact fun _ _ hq => ⟨hq.handed, hq.others, hq.owned⟩

theorem modest [Engine E] (h : Modest own) :
    Modest (owned own : Recorded E → BlockId → Prop) where
  setVerbosity level := hear_confined (h.setVerbosity level)
  reserveVariables count := hear_confined (h.reserveVariables count)
  setPropagationLimit limit := hear_confined (h.setPropagationLimit limit)
  addLiteral literal := hear_confined (h.addLiteral literal)
  terminateClause := hear_confined h.terminateClause
  solve budget := hear_confined (h.solve budget)
  variableCount := hear_confined h.variableCount
  valueOf index := hear_confined (h.valueOf index)
  writeProblem := hear_confined h.writeProblem
  reset := hear_confined h.reset

end Recorded

-- ==================================================== a modest engine

namespace Scripted

/-- A scripted engine has no blocks, and leaves those of others. -/
theorem modest : Modest fun (_ : Scripted) (_ : BlockId) => False := by
  refine obeys.imp fun p q hsame => ?_
  have hhost : q.host = p.host := congrArg Prod.snd hsame
  refine ⟨Nat.le_of_eq ?_, ?_, fun _ h => h.elim⟩
  · rw [hhost]
  · exact fun _ _ _ => by rw [hhost]

end Scripted

-- ============================================================= loading

/-- What leaves the memory alone is confined. -/
theorem quiet_confined : Session.Quiet (Confined own) := by
  intro e host host' hheap
  have hsame : host'.heap = host.heap := hheap
  refine ⟨?_, fun _ _ _ => by rw [hsame], fun _ h => Or.inl h⟩
  exact Nat.le_of_eq (congrArg (fun heap => heap.blocks.size) hsame.symm)

/-- A session that has been created begins with an engine all of whose
blocks have been handed out. -/
theorem Session.create_bounded [Engine E] (h : Modest own) {make : HostOp E}
    {host : Host}
    (hmake : Ends (fun e host' => Bounded own ⟨e, host'⟩)
      (fun _ _ => True) (make host))
    (config : Config) (v : Value) :
    Ends (fun s host' => Bounded own ⟨s.engine, host'⟩) (fun _ _ => True)
      (create make config v host) := by
  refine (create_obeys h quiet_confined make config v host).imp_answer ?_
  rintro s host' ⟨-, e, host₁, hmade, hconfined⟩
  rw [hmade] at hmake
  exact hmake.confined hconfined

-- ============================================================== buffers

/-- The number of blocks that have been handed out. -/
abbrev Heap.handed (h : Heap) : Nat := h.blocks.size

namespace Heap

/-- A block that is handed out is a new one. -/
theorem allocValue_hands (size : Value) (h : Heap) :
    Ends (fun answer h' => ∀ b, answer = some b →
        b = h.handed ∧ h'.handed = h.handed + 1)
      (fun _ _ => True) (allocValue size h) := by
  unfold allocValue
  rw [ends_bind]
  refine ends_settle fun negative _ => ?_
  cases negative with
  | true => exact fun b hb => by cases hb
  | false =>
      simp only [Bool.false_eq_true, if_false, ends_bind, ends_get]
      refine ends_settle fun fitting _ => ?_
      cases fitting with
      | false => exact fun b hb => by cases hb
      | true =>
          cases size.whole? with
          | none => trivial
          | some n =>
              show Ends _ _ (alloc n h)
              unfold alloc
              split
              · exact fun b hb => by cases hb
              · intro b hb
                cases hb
                exact ⟨rfl, Array.size_push _⟩

/-- Cutting a block hands out none. -/
theorem cut_leaves (b : BlockId) (size : Int) (delta : Value) :
    Leaves handed (cut b size delta) := by
  unfold cut
  refine Moves.get.bind fun h => ?_
  refine Moves.bind (fun _ => Array.size_modify) fun _ => ?_
  refine Moves.get.bind fun h' => ?_
  refine (Moves.settle _).bind fun total => ?_
  exact Moves.bind (fun _ => rfl) fun _ _ => rfl

/-- Nor does a new size. -/
theorem realloc_leaves (b : BlockId) (old new : Int) :
    Leaves handed (realloc b old new) := by
  intro h
  unfold realloc
  split
  · rfl
  split
  · rfl
  split
  · rfl
  · exact Array.size_modify

/-- A block that is given another size keeps its number. -/
theorem reallocValue_leaves (b : BlockId) (old new : Value) :
    Leaves handed (reallocValue b old new) := by
  unfold reallocValue
  refine (Moves.settle _).bind fun negative => .ite (.pure false) ?_
  refine Moves.get.bind fun h => ?_
  refine (Moves.settle _).bind fun stated => .when (.throw _) ?_
  refine (Moves.settle _).bind fun delta => ?_
  refine Moves.get.bind fun h' => ?_
  refine (Moves.settle _).bind fun fitting => .ite (.pure false) ?_
  refine (Moves.settle _).bind fun shrinking => ?_
  cases new.whole? with
  | none => exact .throw _
  | some n =>
      cases delta.whole? with
      | some _ => exact realloc_leaves b _ n
      | none =>
          refine .when (.throw _) ?_
          exact (cut_leaves b n delta).bind fun _ => .pure true

end Heap

namespace Host

theorem recordRequest_leaves_heap (e : Event) :
    Leaves Host.heap (recordRequest e) := by
  unfold recordRequest record
  refine Moves.get.bind fun host => .ite ?_ (.pure _)
  exact .when (.throw _) fun _ => rfl

/-- A block that is handed out is a new one. -/
theorem alloc_hands (size : Value) (host : Host) :
    Ends (fun answer host' => ∀ b, answer = some b →
        b = host.heap.handed ∧ host'.heap.handed = host.heap.handed + 1)
      (fun _ _ => True) (alloc size host) := by
  have hrecord : ∀ (answer : Option BlockId) (host₁ : Host),
      (∀ b, answer = some b →
        b = host.heap.handed ∧ host₁.heap.handed = host.heap.handed + 1) →
      Ends (fun answer host' => ∀ b, answer = some b →
          b = host.heap.handed
            ∧ host'.heap.handed = host.heap.handed + 1)
        (fun _ _ => True) ((do
          recordRequest (.alloc size answer.isSome)
          return answer : HostOp (Option BlockId)) host₁) := by
    intro answer host₁ h
    rw [ends_bind]
    refine (recordRequest_leaves_heap _ host₁).imp ?_ fun _ _ _ => trivial
    intro _ host₂ hsame b hb
    have hheap : host₂.heap = host₁.heap := hsame
    rw [hheap]
    exact h b hb
  unfold alloc
  have hcount : countRequest host
      = .ok (host.plan.refuses (host.requests + 1))
        { host with requests := host.requests + 1 } := rfl
  rw [bind_of_ok hcount]
  cases host.plan.refuses (host.requests + 1) with
  | true => exact hrecord none _ fun b hb => by cases hb
  | false =>
      simp only [Bool.false_eq_true, if_false]
      rw [ends_bind, ends_onHeap]
      refine (Heap.allocValue_hands size host.heap).imp_answer ?_
      exact fun answer heap h => hrecord answer _ h

/-- A block that is given another size keeps its number. -/
theorem realloc_leaves_handed (b : BlockId) (old new : Value) :
    Leaves (fun host => host.heap.handed) (realloc b old new) := by
  unfold realloc
  refine Moves.bind (fun _ => rfl) fun refused => ?_
  refine .branch (.pure false) ?_ fun granted => ?_
  · intro host
    rw [ends_onHeap]
    exact Heap.reallocValue_leaves b old new host.heap
  · refine Moves.bind (fun host => ?_) fun _ => .pure granted
    refine (recordRequest_leaves_heap _ host).imp ?_ ?_
    · exact fun _ host' h => congrArg Heap.handed h
    · exact fun _ host' h => congrArg Heap.handed h

end Host

namespace Session

/-- A buffer that has been handed to a session and is none of the blocks of
the engine, with the bytes that it holds from its second place on. -/
structure Holds (own : E → BlockId → Prop) (b : BlockId)
    (bytes : List UInt8) (p : Placed (Session E)) : Prop where
  bounded : Bounded own ⟨p.object.engine, p.host⟩
  apart : ¬ own p.object.engine b
  handed : b < p.host.heap.blocks.size
  bytes : ∀ j, (h : j < bytes.length) →
    p.host.heap.byte? b (j + 1) = some bytes[j]

variable {b : BlockId} {bytes : List UInt8} {p q : Placed (Session E)}

/-- What the bytes are may be forgotten. -/
theorem Holds.forget (h : Holds own b bytes p) : Holds own b [] p :=
  ⟨h.bounded, h.apart, h.handed, by simp⟩

/-- The buffer that a session is given, or a new one, holds nothing yet. -/
theorem scratchFor_holds {scratch : Option BlockId}
    (hbounded : Bounded own ⟨p.object.engine, p.host⟩)
    (hscratch : ∀ b, scratch = some b → Holds own b [] p) (bytes : Value) :
    Ends (fun b q => Holds own b [] q ∧ q.object = p.object)
      (fun _ _ => True) (scratchFor scratch bytes p) := by
  unfold scratchFor
  cases scratch with
  | none =>
      simp only [ends_bind, Op.ends_onHost]
      refine (Host.alloc_hands bytes p.host).imp_answer ?_
      intro answer host hanswer
      cases answer with
      | none => trivial
      | some b =>
          obtain ⟨rfl, hsize⟩ := hanswer b rfl
          refine ⟨⟨?_, ?_, ?_, by simp⟩, rfl⟩
          · intro c hc
            have hlt : c < p.host.heap.handed := hbounded c hc
            show c < host.heap.handed
            rw [hsize]
            exact Nat.lt_succ_of_lt hlt
          · intro hown
            -- the engine owns nothing that was not handed out before
            exact Nat.lt_irrefl _ (hbounded _ hown)
          · show p.host.heap.handed < host.heap.handed
            rw [hsize]
            exact Nat.lt_succ_self _
  | some b =>
      have hb := hscratch b rfl
      simp only [ends_bind, ends_get]
      refine ends_settle fun short _ => ?_
      cases short with
      | false => exact ⟨hb, rfl⟩
      | true =>
          simp only [if_true, ends_bind, Op.ends_onHost]
          refine (Host.realloc_leaves_handed b _ bytes p.host).imp ?_
            fun _ _ _ => trivial
          intro granted host hsame
          have hsize : host.heap.handed = p.host.heap.handed := hsame
          cases granted with
          | false => trivial
          | true =>
              refine ⟨⟨?_, hb.apart, ?_, by simp⟩, rfl⟩
              · intro c hc
                show c < host.heap.handed
                rw [hsize]
                exact hbounded c hc
              · show b < host.heap.handed
                rw [hsize]
                exact hb.handed

/-- A call of the engine leaves the buffer. -/
theorem Holds.confined (h : Holds own b bytes p)
    (hpq : Confined own ⟨p.object.engine, p.host⟩
      ⟨q.object.engine, q.host⟩) : Holds own b bytes q := by
  refine ⟨h.bounded.confined hpq, ?_,
    Nat.lt_of_lt_of_le h.handed hpq.handed, ?_⟩
  · intro hown
    rcases hpq.owned b hown with hold | ⟨hnew, -⟩
    · exact h.apart hold
    · exact Nat.not_lt.mpr hnew h.handed
  · intro j hj
    have hsame : q.host.heap.contents b = p.host.heap.contents b :=
      hpq.others b h.handed h.apart
    rw [Heap.byte?, hsame]
    exact h.bytes j hj

/-- One byte more is written behind the ones that the buffer holds. -/
theorem Holds.poked (h : Holds own b bytes p) (byte : UInt8) :
    Ends
      (fun _ q => Holds own b (bytes ++ [byte]) q ∧ q.object = p.object)
      (fun _ q => q.object = p.object)
      (Op.onHost (Host.onHeap (Heap.poke b (bytes.length + 1) byte)) p) := by
  rw [Op.ends_onHost, Host.ends_onHeap]
  by_cases hlt : bytes.length + 1 < p.host.heap.size b
  · rw [Heap.poke_eq byte hlt]
    have hcontents : (p.host.heap.poked b (bytes.length + 1) byte).contents b
        = (p.host.heap.contents b).setIfInBounds (bytes.length + 1) byte := by
      rw [Heap.contents_poked, if_pos ⟨rfl, h.handed⟩]
    refine ⟨⟨?_, h.apart, ?_, ?_⟩, rfl⟩
    · intro c hc
      show c < (p.host.heap.poked b (bytes.length + 1) byte).blocks.size
      rw [Heap.handed_poked]
      exact h.bounded c hc
    · show b < (p.host.heap.poked b (bytes.length + 1) byte).blocks.size
      rw [Heap.handed_poked]
      exact h.handed
    · intro j hj
      show (p.host.heap.poked b (bytes.length + 1) byte).byte? b (j + 1) = _
      rw [Heap.byte?, hcontents]
      by_cases hlast : j = bytes.length
      · subst hlast
        have hin : bytes.length + 1 < (p.host.heap.contents b).size := hlt
        rw [Array.getElem?_setIfInBounds_self, if_pos hin]
        simp
      · have hj' : j < bytes.length := by
          rw [List.length_append, List.length_singleton] at hj
          omega
        rw [Array.getElem?_setIfInBounds_ne (by omega),
          List.getElem_append_left hj']
        exact h.bytes j hj'
  · have hfail : Heap.poke b (bytes.length + 1) byte p.host.heap
        = .error .indexRange p.host.heap := if_neg hlt
    rw [hfail]
    exact rfl

end Session

end SatSession
