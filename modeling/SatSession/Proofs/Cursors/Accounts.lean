/-
The books of an enumeration.

A cursor that is closed has given back what it took, with one exception.
An advance that takes its buffer and then fails to rule its solution out
closes the cursor before the cursor has learned of the buffer, so that the
buffer stays taken. Nothing else is ever lost: the books of a closed cursor
are what they were before it was started if and only if no advance failed
with a block in its hands, and otherwise they are up by just that block
(`closed_books`).

This holds on hosts that refuse any requests, for values of any kind and
for any order of calls. Calls are taken by turns: `Standing` says how a
cursor stands after some turns, and one turn keeps it (`Standing.turn`).
-/
import SatSession.Proofs.Turns
import SatSession.Proofs.Cursors.Advancing

namespace SatSession

/-- A call of a cursor. Leaving the block of a program that uses the
cursor closes it, so that this is no call of its own. -/
inductive CursorCall where
  | next
  | close
  deriving DecidableEq, Repr

/-- Makes a call; the solution that an advance produces is dropped. -/
def CursorCall.perform {E : Type} [Engine E] : CursorCall → Op (Cursor E) Unit
  | next => do
      let _ ← Cursor.next
  | close => Cursor.close

namespace Cursor

open TableEngine

variable {search : Search} {limit : Int} {n : Nat} {base host : Host}
  {c : Cursor TableEngine}

/-- A turn that failed after it had been handed a block. -/
def LosesBlock (t : Turn CursorCall (Cursor TableEngine)) : Prop :=
  t.fault.isSome
    ∧ t.before.host.heap.blocks.size < t.after.host.heap.blocks.size

instance (t : Turn CursorCall (Cursor TableEngine)) :
    Decidable (LosesBlock t) :=
  inferInstanceAs (Decidable (_ ∧ _))

-- =========================================================== the standing

/-- A closed cursor, and the blocks that are lost: none, or one of the
size of a buffer if some turn lost one. -/
structure Settled (n : Nat) (base : Host)
    (done : List (Turn CursorCall (Cursor TableEngine)))
    (p : Placed (Cursor TableEngine)) : Prop where
  closed : p.object.closed = true
  lost : ∃ lost, Host.Holding lost base p.host ∧ lost.length ≤ 1
    ∧ (∀ b ∈ lost, p.host.heap.size b = n + 1)
    ∧ (lost = [] ↔ ∀ t ∈ done, ¬ LosesBlock t)

/-- How a cursor stands after some turns: it runs and has lost nothing, or
it is closed. -/
inductive Standing (search : Search) (limit : Int) (n : Nat) (base : Host)
    (done : List (Turn CursorCall (Cursor TableEngine)))
    (p : Placed (Cursor TableEngine)) : Prop where
  | running (clauses : List (List Int))
      (h : Running search limit n clauses base p.object p.host)
      (kept : ∀ t ∈ done, ¬ LosesBlock t)
  | settled (h : Settled n base done p)

/-- A turn that lost nothing changes nothing of what turns have lost. -/
theorem forall_concat_iff {done : List (Turn CursorCall (Cursor TableEngine))}
    {t : Turn CursorCall (Cursor TableEngine)} (ht : ¬ LosesBlock t) :
    (∀ u ∈ done ++ [t], ¬ LosesBlock u) ↔ ∀ u ∈ done, ¬ LosesBlock u := by
  simp [or_imp, forall_and, ht]

/-- A call that succeeds loses nothing. -/
theorem not_losesBlock {t : Turn CursorCall (Cursor TableEngine)}
    (h : t.fault = none) : ¬ LosesBlock t := fun hloses => by
  rw [LosesBlock, h] at hloses
  exact absurd hloses.1 (by simp)

-- ============================================================ one turn

variable {done : List (Turn CursorCall (Cursor TableEngine))}
  {p : Placed (Cursor TableEngine)}

/-- A closed cursor stands as it stood, whatever is called. -/
theorem Settled.turn (h : Settled n base done p) (call : CursorCall) :
    Settled n base (done ++ [Turn.take CursorCall.perform call p])
      (Turn.take CursorCall.perform call p).after := by
  obtain ⟨c, host⟩ := p
  have hrun : call.perform ⟨c, host⟩ = .ok () ⟨c, host⟩ := by
    cases call with
    | next =>
        show (next >>= fun _ => pure ()) (⟨c, host⟩ : Placed _) = _
        rw [bind_of_ok (next_closed h.closed)]
        rfl
    | close => exact close_closed h.closed
  have htake : Turn.take CursorCall.perform call ⟨c, host⟩
      = ⟨call, ⟨c, host⟩, none, ⟨c, host⟩⟩ := by
    unfold Turn.take
    rw [hrun]
  rw [htake]
  obtain ⟨lost, hholding, hfew, hsizes, hiff⟩ := h.lost
  refine ⟨h.closed, lost, hholding, hfew, hsizes, hiff.trans ?_⟩
  exact (forall_concat_iff (not_losesBlock rfl)).symm

/-- An advance of a running cursor that failed has lost what it was
handed. -/
theorem Failed.settled {t : Turn CursorCall (Cursor TableEngine)}
    {f : Fault} (hkept : ∀ u ∈ done, ¬ LosesBlock u)
    (hfault : t.fault = some f)
    (h : Failed n base t.before.host f t.after) :
    Settled n base (done ++ [t]) t.after := by
  obtain ⟨lost, hlost, hholding⟩ := h.lost
  have hhanded := hlost.handed
  have hloses : LosesBlock t ↔ 0 < lost.length := by
    rw [LosesBlock, hfault]
    simp only [Option.isSome_some, true_and]
    omega
  refine ⟨h.closed, lost, hholding, hlost.few, hlost.sizes, ?_⟩
  rw [← List.length_eq_zero_iff]
  constructor
  · intro hzero u hu
    rcases List.mem_append.mp hu with hu | hu
    · exact hkept u hu
    · rw [List.mem_singleton.mp hu, hloses]
      omega
  · intro hall
    have hnot := hall t (by simp)
    rw [hloses] at hnot
    omega

/-- A cursor that was closed properly has lost nothing. -/
theorem settled_of_holding {t : Turn CursorCall (Cursor TableEngine)}
    (hkept : ∀ u ∈ done, ¬ LosesBlock u) (hfault : t.fault = none)
    (hclosed : t.after.object.closed = true)
    (hholding : Host.Holding [] base t.after.host) :
    Settled n base (done ++ [t]) t.after := by
  refine ⟨hclosed, [], hholding, by simp, by simp, iff_of_true rfl ?_⟩
  exact (forall_concat_iff (not_losesBlock hfault)).mpr hkept

/-- Every turn leaves a cursor that stands to its account. -/
theorem Standing.turn (h : Standing search limit n base done p)
    (call : CursorCall) :
    Standing search limit n base
      (done ++ [Turn.take CursorCall.perform call p])
      (Turn.take CursorCall.perform call p).after := by
  obtain ⟨clauses, hrunning, hkept⟩ | hsettled := h
  · obtain ⟨c, host⟩ := p
    have hbefore := Turn.before_take CursorCall.perform call ⟨c, host⟩
    cases call with
    | next =>
        have hends : Ends
            (fun _ p => (∃ literals, Produced search limit n clauses base c
                host literals p) ∨ Finished limit base c host p)
            (Failed n base host)
            (CursorCall.next.perform ⟨c, host⟩) := by
          show Ends _ _ ((next >>= fun _ => pure ()) (⟨c, host⟩ : Placed _))
          rw [ends_bind]
          refine (next_ends hrunning).imp ?_ fun _ _ hf => hf
          intro r p hpost
          rcases hpost with ⟨literals, -, hproduced⟩ | ⟨-, hfinished⟩
          · exact Or.inl ⟨literals, hproduced⟩
          · exact Or.inr hfinished
        rcases Turn.take_of_ends hends with
          ⟨hfault, ⟨literals, hproduced⟩ | hfinished⟩ | ⟨f, hfault, hfailed⟩
        · obtain ⟨a, -, -, hrunning'⟩ := hproduced.found
          refine .running _ hrunning' ?_
          exact (forall_concat_iff (not_losesBlock hfault)).mpr hkept
        · exact .settled (settled_of_holding hkept hfault
            hfinished.closed hfinished.holding)
        · refine .settled (Failed.settled hkept hfault ?_)
          rw [hbefore]
          exact hfailed
    | close =>
        have hends : Ends (fun _ p => Closed [] c base host p) never
            (CursorCall.close.perform ⟨c, host⟩) :=
          close_ends hrunning.closable
        rcases Turn.take_of_ends hends with
          ⟨hfault, hclosed⟩ | ⟨f, hfault, hfailed⟩
        · exact .settled (settled_of_holding hkept hfault
            hclosed.closed hclosed.holding)
        · exact hfailed.elim
  · -- a settled cursor is closed, and its books do not change any more
    exact .settled (hsettled.turn call)

-- ================================================================= runs

/-- The books of a settled cursor. -/
theorem Settled.books (h : Settled n base done p) :
    ((p.host.heap.inUse = base.heap.inUse
          ∧ p.host.heap.live = base.heap.live)
        ↔ ∀ t ∈ done, ¬ LosesBlock t)
      ∧ ((∃ t ∈ done, LosesBlock t) →
          p.host.heap.inUse = base.heap.inUse + (n + 1)
            ∧ p.host.heap.live = base.heap.live + 1) := by
  obtain ⟨lost, hholding, hfew, hsizes, hiff⟩ := h.lost
  have hbooks := hholding.books
  have hlive := hholding.live
  cases lost with
  | nil =>
      have hall := hiff.mp rfl
      rw [Heap.held_nil, Int.add_zero] at hbooks
      refine ⟨iff_of_true ⟨hbooks, by simpa using hlive⟩ hall, ?_⟩
      intro hex
      obtain ⟨t, ht, hloses⟩ := hex
      exact absurd hloses (hall t ht)
  | cons b rest =>
      have hrest : rest = [] := by
        rw [List.length_cons] at hfew
        exact List.length_eq_zero_iff.mp (by omega)
      subst hrest
      have hsize := hsizes b (by simp)
      rw [Heap.held_cons, Heap.held_nil, hsize] at hbooks
      rw [List.length_singleton] at hlive
      refine ⟨iff_of_false ?_ fun hall => ?_, fun _ => ?_⟩
      · intro hex
        obtain ⟨-, hsame⟩ := hex
        omega
      · cases hiff.mpr hall
      · constructor <;> omega

/-- On any host that takes back what it is given, whatever it refuses and
whatever is enumerated: if no cursor is started the books are as before,
and once a cursor is closed they are as before if and only if no turn has
lost a block. If one has, they are up by one buffer. -/
theorem closed_books (hp : host.Plain) (ht : host.TakesBack)
    (search : Search) (v vars verbose propLimit : Value) :
    Ends
      (fun c host₁ => ∀ calls : List CursorCall,
        let done := turns CursorCall.perform calls ⟨c, host₁⟩
        let p := afterTurns CursorCall.perform calls ⟨c, host₁⟩
        p.object.closed = true →
          ((p.host.heap.inUse = host.heap.inUse
                ∧ p.host.heap.live = host.heap.live)
              ↔ ∀ t ∈ done, ¬ LosesBlock t)
            ∧ ((∃ t ∈ done, LosesBlock t) →
                p.host.heap.inUse
                    = host.heap.inUse + (c.session.engine.varCount + 1)
                  ∧ p.host.heap.live = host.heap.live + 1))
      (fun _ host₁ => host₁.heap.inUse = host.heap.inUse
        ∧ host₁.heap.live = host.heap.live)
      (enumerate (TableEngine.create search) v vars verbose propLimit
        host) := by
  refine (enumerate_ends hp ht search v vars verbose propLimit).imp ?_ ?_
  · intro c host₁ hpost calls done p hclosed
    obtain ⟨config, cs, -, -, hstarted⟩ := hpost
    have hrunning := hstarted.running
    have hstand := turns_keep CursorCall.perform
      (Standing search config.propLimit c.session.engine.varCount host)
      (fun _ _ call h => h.turn call) calls [] ⟨c, host₁⟩
      (.running cs (by rw [hrunning.live.vars]; exact hrunning) (by simp))
    obtain ⟨clauses, hstill, -⟩ | hsettled := hstand
    · have hopen : p.object.closed = false := hstill.unclosed
      rw [hopen] at hclosed
      cases hclosed
    · exact hsettled.books
  · intro f host₁ hnot
    have hbooks := hnot.holding.books
    have hlive := hnot.holding.live
    rw [Heap.held_nil, Int.add_zero] at hbooks
    exact ⟨hbooks, by simpa using hlive⟩

-- ============================================================ one loss

/-- A host that refuses the fourth request. -/
def refusingFourth : Host :=
  .new ⟨fun k => k == 4, fun _ => false, false⟩ none

/-- Sixteen variables without clauses. The first advance takes its buffer,
fills the store up with literals and is refused when the clause is closed:
the books are up by the buffer, `17` bytes. -/
theorem closed_books_refused_terminator :
    Ends
      (fun c host₁ =>
        let p := afterTurns CursorCall.perform [.next] ⟨c, host₁⟩
        p.object.closed = true
          ∧ p.host.heap.inUse = refusingFourth.heap.inUse + 17
          ∧ p.host.heap.live = refusingFourth.heap.live + 1)
      never
      (enumerate (TableEngine.create fun _ _ => .sat fun _ => false)
        (.seq .list []) (.int 16) (.int 0) (.int 0) refusingFourth) := by
  have hrun : Ends
      (fun c host₁ =>
        (afterTurns CursorCall.perform [.next] ⟨c, host₁⟩).object.closed
            = true
          ∧ c.session.engine.varCount = 16
          ∧ ∃ t ∈ turns CursorCall.perform [.next] ⟨c, host₁⟩,
              LosesBlock t)
      (fun _ _ => False)
      (enumerate (TableEngine.create fun _ _ => .sat fun _ => false)
        (.seq .list []) (.int 16) (.int 0) (.int 0) refusingFourth) := by
    decide +kernel
  have hbooks := @closed_books refusingFourth ⟨rfl, rfl, rfl⟩
    (fun _ => rfl) (fun _ _ => .sat fun _ => false) (.seq .list [])
    (.int 16) (.int 0) (.int 0)
  revert hrun hbooks
  cases enumerate (TableEngine.create fun _ _ => .sat fun _ => false)
      (.seq .list []) (.int 16) (.int 0) (.int 0) refusingFourth with
  | error f host₁ => exact fun hrun _ => hrun.elim
  | ok c host₁ =>
      intro hpost hbooks
      obtain ⟨hclosed, hvars, hloses⟩ := hpost
      have hlost := (hbooks [.next] hclosed).2 hloses
      rw [hvars] at hlost
      exact ⟨hclosed, hlost⟩

/-- So it is not true that whatever is enumerated, and whatever is
refused, a closed cursor has given back all that it took. -/
theorem not_always_given_back :
    ¬ ∀ host : Host, host.Plain → host.TakesBack →
      ∀ (search : Search) (v vars verbose propLimit : Value),
        Ends
          (fun c host₁ => ∀ calls : List CursorCall,
            let p := afterTurns CursorCall.perform calls ⟨c, host₁⟩
            p.object.closed = true →
              p.host.heap.inUse = host.heap.inUse
                ∧ p.host.heap.live = host.heap.live)
          (fun _ host₁ => host₁.heap.inUse = host.heap.inUse
            ∧ host₁.heap.live = host.heap.live)
          (enumerate (TableEngine.create search) v vars verbose propLimit
            host) := by
  intro h
  have hrun : Ends
      (fun c host₁ =>
        let p := afterTurns CursorCall.perform [.next] ⟨c, host₁⟩
        p.object.closed = true
          ∧ p.host.heap.inUse ≠ refusingFourth.heap.inUse)
      (fun _ _ => False)
      (enumerate (TableEngine.create fun _ _ => .sat fun _ => false)
        (.seq .list []) (.int 16) (.int 0) (.int 0) refusingFourth) := by
    decide +kernel
  have hback := h refusingFourth ⟨rfl, rfl, rfl⟩ (fun _ => rfl)
    (fun _ _ => .sat fun _ => false) (.seq .list []) (.int 16) (.int 0)
    (.int 0)
  revert hrun hback
  cases enumerate (TableEngine.create fun _ _ => .sat fun _ => false)
      (.seq .list []) (.int 16) (.int 0) (.int 0) refusingFourth with
  | error f host₁ => exact fun hrun _ => hrun.elim
  | ok c host₁ =>
      intro hpost hback
      obtain ⟨hclosed, hup⟩ := hpost
      exact hup (hback [.next] hclosed).1

end Cursor

end SatSession
