/-
When a session decodes, and what.

Two guards stand before an assignment is read: the session wants its last
word to be that one was found, and the engine wants its flag to be up.
Adding clauses, by blocking or to the engine itself, changes only the
second. `decodes_what_holds` tells what the two do together, after any
invocations, blockings, additions and the end of the session:

- if the last invocation found an assignment and no clause was closed
  since, the list decoded is total and satisfies all closed clauses;
- otherwise decoding violates a precondition, but for one case. The flag
  is looked at once for each variable, so an engine without variables never
  has it looked at: there the empty list is decoded after a clause was
  closed, and that clause is the empty one, which no list satisfies.

The account is `Accords`; one turn keeps it (`Told.turn`).
-/
import SatSession.Proofs.Turns
import SatSession.Proofs.Sessions.Serving
import SatSession.Search.Learning

namespace SatSession

open TableEngine

-- ============================================================ the calls

/-- A call of a session, or of its engine. -/
inductive SessionCall where
  | invoke (budget : Int)
  | decode
  | block (scratch : Option BlockId)
  | destroy
  | tell (call : NumberCall)
  deriving DecidableEq, Repr

namespace SessionCall

/-- Makes a call; what it answers is dropped. -/
def perform {E : Type} [Engine E] : SessionCall → Op (Session E) Unit
  | invoke budget => do
      let _ ← Session.invoke (.int budget)
  | decode => do
      let _ ← Session.decode
  | block scratch => do
      let _ ← Session.block scratch
  | destroy => Session.destroy
  | tell call => Session.onEngine call.perform

/-- Whether a call closes a clause if it succeeds. -/
def closes : SessionCall → Bool
  | block _ => true
  | tell call => call.closes
  | invoke _ | decode | destroy => false

/-- A call that hands in no table for a buffer, and lets the engine search
only by an invocation. -/
def Proper (own : List BlockId) : SessionCall → Prop
  | block scratch => ∀ b ∈ scratch, b ∉ own
  | tell call => ∀ budget, call ≠ .solve budget
  | invoke _ | decode | destroy => True

end SessionCall

namespace Session

-- ========================================================== the account

/-- A turn in which an invocation was answered. -/
def Answers (t : Turn SessionCall (Session TableEngine)) : Prop :=
  t.fault = none ∧ ∃ budget, t.call = .invoke budget

/-- A turn in which an invocation found an assignment. -/
def Finds (t : Turn SessionCall (Session TableEngine)) : Prop :=
  t.fault = none ∧ ∃ budget, t.call = .invoke budget
    ∧ invoke (.int budget) t.before = .ok .satisfiable t.after

/-- A turn in which a clause was closed. -/
def Closes (t : Turn SessionCall (Session TableEngine)) : Prop :=
  t.fault = none ∧ t.call.closes = true

/-- The last invocation found an assignment. -/
def LastFound (done : List (Turn SessionCall (Session TableEngine))) :
    Prop :=
  ∃ t, Turn.Latest Finds Answers t done

/-- The last invocation found an assignment, and no clause was closed
since. -/
def StillHolds (done : List (Turn SessionCall (Session TableEngine))) :
    Prop :=
  ∃ t, Turn.Latest Finds (fun u => Answers u ∨ Closes u) t done

variable {own : List BlockId} {shown : Option Nat} {d d' : Draft}
  {limit : Int} {last : Option Outcome} {s : Session TableEngine}
  {host : Host} {p : Placed (Session TableEngine)}
  {u : Turn SessionCall (Session TableEngine)}
  {done : List (Turn SessionCall (Session TableEngine))}

/-- Finding an assignment is one way of being answered. -/
theorem Finds.answers (h : Finds u) : Answers u := by
  obtain ⟨hfault, budget, hcall, -⟩ := h
  exact ⟨hfault, budget, hcall⟩

/-- What still holds was found last. -/
theorem StillHolds.lastFound (h : StillHolds done) : LastFound done := by
  obtain ⟨t, earlier, later, hdone, hfinds, hlater⟩ := h
  exact ⟨t, earlier, later, hdone, hfinds,
    fun u hu hanswers => hlater u hu (Or.inl hanswers)⟩

/-- What the two guards look at agrees with the account of the turns. -/
structure Accords (shown : Option Nat) (d : Draft) (last : Option Outcome)
    (done : List (Turn SessionCall (Session TableEngine))) : Prop where
  word : last = some .satisfiable ↔ LastFound done
  flag : shown.isSome = true ↔ StillHolds done
  closed : shown = none → last = some .satisfiable → d.closed ≠ []

/-- A turn that neither answers nor closes leaves both guards right. -/
theorem Accords.keep (h : Accords shown d last done)
    (hclosed : d'.closed = d.closed) (hanswers : ¬ Answers u)
    (hcloses : ¬ Closes u) : Accords shown d' last (done ++ [u]) := by
  have hfinds : ¬ Finds u := fun hfinds => hanswers hfinds.answers
  refine ⟨h.word.trans ?_, h.flag.trans ?_, ?_⟩
  · exact exists_congr fun t =>
      (Turn.latest_concat_of_neither hfinds hanswers).symm
  · exact exists_congr fun t => (Turn.latest_concat_of_neither hfinds
      (not_or.mpr ⟨hanswers, hcloses⟩)).symm
  · rw [hclosed]
    exact h.closed

/-- A closed clause takes the assignment off the table, but not off the
record of the session. -/
theorem Accords.close (h : Accords shown d last done)
    (hclosed : d'.closed ≠ []) (hanswers : ¬ Answers u)
    (hcloses : Closes u) : Accords none d' last (done ++ [u]) := by
  have hfinds : ¬ Finds u := fun hfinds => hanswers hfinds.answers
  refine ⟨h.word.trans ?_, iff_of_false (by simp) ?_, fun _ _ => hclosed⟩
  · exact exists_congr fun t =>
      (Turn.latest_concat_of_neither hfinds hanswers).symm
  · rintro ⟨t, ht⟩
    exact Turn.not_latest_concat hfinds (Or.inr hcloses) ht

/-- An answer sets both guards anew. -/
theorem Accords.answer {outcome : Outcome} (n : Nat) (hanswers : Answers u)
    (hfinds : Finds u ↔ outcome = .satisfiable) :
    Accords (shownFor outcome n) d (some outcome) (done ++ [u]) := by
  unfold shownFor
  by_cases hsat : outcome = .satisfiable
  · have hu := hfinds.mpr hsat
    rw [if_pos hsat]
    refine ⟨iff_of_true (by rw [hsat]) ⟨u, ?_⟩, iff_of_true rfl ⟨u, ?_⟩,
      by simp⟩
    · exact (Turn.latest_concat_of_both hu hanswers).mpr rfl
    · exact (Turn.latest_concat_of_both hu (Or.inl hanswers)).mpr rfl
  · have hu : ¬ Finds u := fun hu => hsat (hfinds.mp hu)
    rw [if_neg hsat]
    refine ⟨iff_of_false (fun h => hsat (Option.some.inj h)) ?_,
      iff_of_false (by simp) ?_, fun _ h => absurd (Option.some.inj h) hsat⟩
    · rintro ⟨t, ht⟩
      exact Turn.not_latest_concat hu hanswers ht
    · rintro ⟨t, ht⟩
      exact Turn.not_latest_concat hu (Or.inl hanswers) ht

-- ============================================================= decoding

/-- What is shown satisfies the closed clauses. -/
theorem showing_satisfies {n : Nat}
    (h : Abreast own (some n) d limit ⟨s.engine, host⟩)
    (hintact : s.destroyed = false) (hlast : s.last = some .satisfiable) :
    ∃ a, Showing a s host
      ∧ Satisfies (signedList a s.engine.varCount) d.closed := by
  obtain ⟨a, ha⟩ := h.display.exhibits n rfl
  refine ⟨a, ⟨hintact, hlast, h.display.flag, ha.shows⟩, ?_⟩
  intro c hc
  refine (clauseHolds_iff_mem fun l hl => ?_).mp (ha.satisfies c hc)
  have hadmitted := h.keeps.admitted c (List.mem_append_left _ hc) l hl
  exact ⟨hadmitted.nonzero, hadmitted.exists_var⟩

/-- What is shown is decoded. -/
theorem decode_shown {n : Nat}
    (h : Abreast own (some n) d limit ⟨s.engine, host⟩)
    (hintact : s.destroyed = false) (hlast : s.last = some .satisfiable) :
    ∃ a, decode ⟨s, host⟩
        = .ok ((signedList a s.engine.varCount).map Value.int) ⟨s, host⟩
      ∧ Satisfies (signedList a s.engine.varCount) d.closed := by
  obtain ⟨a, hshowing, hsat⟩ := showing_satisfies h hintact hlast
  exact ⟨a, decode_eq hshowing, hsat⟩

/-- That there is no assignment is found out at the first variable, if
there is one. -/
theorem decode_unflagged (hflag : s.engine.hasModel = false)
    (hintact : s.destroyed = false) (hlast : s.last = some .satisfiable) :
    decode ⟨s, host⟩
      = if s.engine.varCount = 0 then .ok [] ⟨s, host⟩
        else .error .noModel ⟨s, host⟩ := by
  rw [decode_of_ready hintact hlast]
  cases hvars : s.engine.varCount with
  | zero => rfl
  | succ n =>
      have hentry : signedVariable 1 ⟨s, host⟩
          = .error .noModel ⟨s, host⟩ :=
        bind_of_error (polarity_unshown hflag 1)
      rw [if_neg (Nat.succ_ne_zero n)]
      exact bind_of_error hentry

/-- With nothing on the table only a problem without variables decodes. -/
theorem decode_unshown (h : Abreast own none d limit ⟨s.engine, host⟩)
    (hintact : s.destroyed = false) (hlast : s.last = some .satisfiable) :
    decode ⟨s, host⟩
      = if s.engine.varCount = 0 then .ok [] ⟨s, host⟩
        else .error .noModel ⟨s, host⟩ :=
  decode_unflagged h.display.flag hintact hlast

/-- Without the word that an assignment was found nothing is decoded. -/
theorem decode_refused
    (h : s.destroyed = true ∨ s.last ≠ some .satisfiable) :
    ∃ f, decode ⟨s, host⟩ = .error f ⟨s, host⟩
      ∧ f.errorClass = .preconditionViolation := by
  obtain ⟨f, hrefused, hclass⟩ := @requireModel_refused _ s host h
  exact ⟨f, bind_of_error hrefused, hclass⟩

/-- An invocation that ends satisfiable finds an assignment in its turn. -/
theorem finds_take {budget : Int}
    (h : Ends (fun outcome _ => outcome = .satisfiable) (fun _ _ => False)
      (invoke (.int budget) p)) :
    Finds (Turn.take SessionCall.perform (.invoke budget) p) := by
  cases hinvoke : invoke (.int budget) p with
  | error f q =>
      rw [hinvoke] at h
      exact h.elim
  | ok outcome q =>
      rw [hinvoke] at h
      obtain rfl : outcome = .satisfiable := h
      have hrun : (SessionCall.invoke budget).perform p = .ok () q :=
        bind_of_ok (f := fun _ => pure ()) hinvoke
      have htake : Turn.take SessionCall.perform (.invoke budget) p
          = ⟨.invoke budget, p, none, q⟩ := by
        unfold Turn.take
        rw [hrun]
      rw [htake]
      exact ⟨rfl, budget, rfl, hinvoke⟩

/-- Decoding changes nothing. -/
theorem decode_same (h : Abreast own shown d limit ⟨s.engine, host⟩)
    (hintact : s.destroyed = false) :
    Ends (fun _ q => q = ⟨s, host⟩) (fun _ q => q = ⟨s, host⟩)
      (decode ⟨s, host⟩) := by
  by_cases hlast : s.last = some .satisfiable
  · cases shown with
    | some n =>
        obtain ⟨a, hdecode, -⟩ := decode_shown h hintact hlast
        rw [hdecode]
        exact rfl
    | none =>
        rw [decode_unshown h hintact hlast]
        split
        · exact rfl
        · exact rfl
  · obtain ⟨f, hdecode, -⟩ := @decode_refused s host (Or.inr hlast)
    rw [hdecode]
    exact rfl

-- ============================================================= one turn

/-- The closed clauses and what is shown are kept. -/
def Unmoved (own : List BlockId) (shown : Option Nat) (d : Draft)
    (s : Session TableEngine) (p : Placed (Session TableEngine)) : Prop :=
  ∃ d' limit, d'.closed = d.closed ∧ Serving own shown d' limit s p

/-- One more clause has been closed, and nothing is shown. -/
def Superseded (own : List BlockId) (d : Draft) (s : Session TableEngine)
    (p : Placed (Session TableEngine)) : Prop :=
  ∃ d' limit clause, d'.closed = d.closed ++ [clause]
    ∧ Serving own none d' limit s p

/-- A call other than an invocation or the end closes a clause, or leaves
the closed clauses alone. -/
theorem perform_ends (h : Abreast own shown d limit ⟨s.engine, host⟩)
    (hintact : s.destroyed = false) {call : SessionCall}
    (hproper : call.Proper own) (hinvoke : ∀ budget, call ≠ .invoke budget)
    (hdestroy : call ≠ .destroy) :
    Ends (fun _ q => if call.closes then Superseded own d s q
          else Unmoved own shown d s q)
      (fun _ q => Unmoved own shown d s q) (call.perform ⟨s, host⟩) := by
  have hserving : Serving own shown d limit s ⟨s, host⟩ := ⟨rfl, h⟩
  have hsame : Unmoved own shown d s ⟨s, host⟩ := ⟨d, limit, rfl, hserving⟩
  cases call with
  | invoke budget => exact absurd rfl (hinvoke budget)
  | destroy => exact absurd rfl hdestroy
  | decode =>
      show Ends _ _ ((decode >>= fun _ => pure ()) (⟨s, host⟩ : Placed _))
      rw [ends_bind]
      refine (decode_same h hintact).imp ?_ ?_
      · rintro _ q rfl
        exact hsame
      · rintro f q rfl
        exact hsame
  | block scratch =>
      show Ends _ _ ((block scratch >>= fun _ => pure ())
        (⟨s, host⟩ : Placed _))
      rw [ends_bind]
      refine (block_serving hserving hproper).imp ?_ ?_
      · intro _ q hq
        obtain ⟨-, clause, hq⟩ := hq
        exact ⟨_, limit, clause, rfl, hq⟩
      · intro f q hq
        obtain ⟨opened, hq⟩ := hq
        exact ⟨{ d with opened := opened }, limit, rfl, hq⟩
  | tell call =>
      refine (hserving.tell call hproper).imp ?_ ?_
      · intro _ q hq
        have hclosed := d.closed_told call
        show if call.closes then _ else _
        by_cases hcloses : call.closes = true
        · rw [if_pos hcloses] at hclosed hq ⊢
          exact ⟨_, _, _, hclosed, hq⟩
        · rw [if_neg hcloses] at hclosed hq ⊢
          exact ⟨_, _, hclosed, hq⟩
      · intro f q hq
        exact ⟨d, _, rfl, hq⟩

/-- How a session stands to the account of its calls. -/
inductive Told (own : List BlockId)
    (done : List (Turn SessionCall (Session TableEngine)))
    (p : Placed (Session TableEngine)) : Prop where
  | live (shown : Option Nat) (d : Draft) (limit : Int)
      (abreast : Abreast own shown d limit ⟨p.object.engine, p.host⟩)
      (intact : p.object.destroyed = false)
      (accords : Accords shown d p.object.last done)
      (lasting : .destroy ∉ done.map Turn.call)
  | gone (destroyed : p.object.destroyed = true)
      (ended : .destroy ∈ done.map Turn.call)

/-- A session that serves on is still live. -/
theorem Told.of_serving (h : Serving own shown d limit s p)
    (hintact : s.destroyed = false) (haccords : Accords shown d s.last done)
    (hlasting : .destroy ∉ done.map Turn.call) : Told own done p := by
  have hobject := h.object
  refine .live shown d limit h.abreast ?_ ?_ hlasting
  · rw [hobject]
    exact hintact
  · rw [hobject]
    exact haccords

section

variable {call : SessionCall}

/-- A call that neither searches nor destroys leaves the account right. -/
theorem Told.other (h : Abreast own shown d limit ⟨s.engine, host⟩)
    (hintact : s.destroyed = false) (haccords : Accords shown d s.last done)
    (hlasting : .destroy ∉ done.map Turn.call) (hproper : call.Proper own)
    (hinvoke : ∀ budget, call ≠ .invoke budget) (hdestroy : call ≠ .destroy) :
    let u := Turn.take SessionCall.perform call ⟨s, host⟩
    Told own (done ++ [u]) u.after := by
  intro u
  have hu : u.call = call := Turn.call_take ..
  have hanswers : ¬ Answers u := by
    rintro ⟨-, budget, hcall⟩
    exact hinvoke budget (hu.symm.trans hcall)
  have hlasting' : .destroy ∉ (done ++ [u]).map Turn.call := by
    rw [List.map_append, List.map_singleton, hu]
    simp [hlasting, Ne.symm hdestroy]
  rcases Turn.take_of_ends
    (perform_ends h hintact hproper hinvoke hdestroy) with
    ⟨hfault, hafter⟩ | ⟨f, hfault, d', limit', hclosed, hafter⟩
  · by_cases hcloses : call.closes = true
    · rw [if_pos hcloses] at hafter
      obtain ⟨d', limit', clause, hclosed, hafter⟩ := hafter
      have hcloses : Closes u := ⟨hfault, by rw [hu]; exact hcloses⟩
      exact .of_serving hafter hintact
        (haccords.close (by simp [hclosed]) hanswers hcloses) hlasting'
    · rw [if_neg hcloses] at hafter
      obtain ⟨d', limit', hclosed, hafter⟩ := hafter
      refine .of_serving hafter hintact
        (haccords.keep hclosed hanswers ?_) hlasting'
      rintro ⟨-, hu'⟩
      exact hcloses (hu ▸ hu')
  · refine .of_serving hafter hintact
      (haccords.keep hclosed hanswers ?_) hlasting'
    rintro ⟨hnone, -⟩
    rw [show u.fault = some f from hfault] at hnone
    cases hnone

end

/-- So does an invocation, which is always answered. -/
theorem Told.invoke (h : Abreast own shown d limit ⟨s.engine, host⟩)
    (hintact : s.destroyed = false)
    (hlasting : .destroy ∉ done.map Turn.call) (budget : Int) :
    let u := Turn.take SessionCall.perform (.invoke budget) ⟨s, host⟩
    Told own (done ++ [u]) u.after := by
  intro u
  obtain ⟨outcome, e, host', hinvoke, hafter⟩ :=
    invoke_serving h hintact budget
  have hu : u = ⟨.invoke budget, ⟨s, host⟩, none,
      ⟨s.asked outcome e, host'⟩⟩ := by
    have hrun : (SessionCall.invoke budget).perform
        (⟨s, host⟩ : Placed (Session TableEngine))
        = .ok () ⟨s.asked outcome e, host'⟩ :=
      bind_of_ok (f := fun _ => pure ()) hinvoke
    show Turn.take _ _ _ = _
    unfold Turn.take
    rw [hrun]
  have hanswers : Answers u := by
    rw [hu]
    exact ⟨rfl, budget, rfl⟩
  have hfinds : Finds u ↔ outcome = .satisfiable := by
    constructor
    · rintro ⟨-, budget', hcall, hfound⟩
      rw [hu] at hcall hfound
      cases hcall
      rw [show Session.invoke (.int budget) ⟨s, host⟩ = _ from hinvoke]
        at hfound
      cases hfound
      rfl
    · rintro rfl
      rw [hu]
      exact ⟨rfl, budget, rfl, hinvoke⟩
  rw [show u.after = ⟨s.asked outcome e, host'⟩ by rw [hu]]
  refine .live _ d limit hafter hintact (.answer _ hanswers hfinds) ?_
  rw [List.map_append, List.map_singleton, hu]
  simp [hlasting]

/-- A session that is destroyed is gone for the account as well. -/
theorem Told.destroy (h : Abreast own shown d limit ⟨s.engine, host⟩)
    (hintact : s.destroyed = false) :
    let u := Turn.take SessionCall.perform .destroy ⟨s, host⟩
    Told own (done ++ [u]) u.after := by
  intro u
  have hrun : SessionCall.destroy.perform
      (⟨s, host⟩ : Placed (Session TableEngine))
      = .ok () ⟨s.gone, s.hostAfter host⟩ :=
    destroy_eq h.plain h.takesBack h.keeps.seated hintact
  have hu : u = ⟨.destroy, ⟨s, host⟩, none, ⟨s.gone, s.hostAfter host⟩⟩ := by
    show Turn.take _ _ _ = _
    unfold Turn.take
    rw [hrun]
  refine .gone ?_ ?_
  · rw [hu]
    rfl
  · rw [List.map_append, List.map_singleton, hu]
    simp

/-- A destroyed session stays one, whatever is called. -/
theorem perform_gone (hdestroyed : p.object.destroyed = true)
    (call : SessionCall) :
    Ends (fun _ q => q.object.destroyed = true)
      (fun _ q => q.object.destroyed = true) (call.perform p) := by
  obtain ⟨s, host⟩ := p
  have hdestroyed : s.destroyed = true := hdestroyed
  obtain ⟨f, hrefused, -⟩ := @requireModel_refused _ s host
    (Or.inl hdestroyed)
  cases call with
  | invoke budget =>
      show Ends _ _ ((Session.invoke (.int budget) >>= fun _ => pure ())
        (⟨s, host⟩ : Placed _))
      unfold Session.invoke
      rw [ends_bind, Op.read_bind_apply, if_pos hdestroyed]
      exact hdestroyed
  | decode =>
      show Ends _ _ ((Session.decode >>= fun _ => pure ())
        (⟨s, host⟩ : Placed _))
      unfold Session.decode
      rw [bind_of_error (bind_of_error hrefused)]
      exact hdestroyed
  | block scratch =>
      show Ends _ _ ((Session.block scratch >>= fun _ => pure ())
        (⟨s, host⟩ : Placed _))
      unfold Session.block
      rw [bind_of_error (bind_of_error hrefused)]
      exact hdestroyed
  | destroy =>
      show Ends _ _ (Session.destroy (⟨s, host⟩ : Placed _))
      unfold Session.destroy
      rw [Op.read_bind_apply, if_pos hdestroyed]
      exact hdestroyed
  | tell call =>
      show Ends _ _ (onEngine call.perform (⟨s, host⟩ : Placed _))
      rw [onEngine, Op.ends_within]
      exact (ends_true _).imp (fun _ _ _ => hdestroyed)
        fun _ _ _ => hdestroyed

/-- One turn more, whatever is called. -/
theorem Told.turn (h : Told own done p) {call : SessionCall}
    (hproper : call.Proper own) :
    Told own (done ++ [Turn.take SessionCall.perform call p])
      (Turn.take SessionCall.perform call p).after := by
  obtain ⟨s, host⟩ := p
  cases h with
  | live shown d limit habreast hintact haccords hlasting =>
      cases call with
      | invoke budget => exact Told.invoke habreast hintact hlasting budget
      | destroy => exact Told.destroy habreast hintact
      | _ =>
          exact Told.other habreast hintact haccords hlasting hproper
            (by simp) (by simp)
  | gone hdestroyed hended =>
      refine .gone ?_ ?_
      · rcases Turn.take_of_ends (perform_gone hdestroyed call) with
          ⟨-, hafter⟩ | ⟨f, -, hafter⟩
        · exact hafter
        · exact hafter
      · rw [List.map_append]
        exact List.mem_append_left _ hended

-- ================================================================= runs

/-- Without variables a closed clause is the empty one. -/
theorem nil_mem_closed (h : Abreast own shown d limit ⟨s.engine, host⟩)
    (hvars : s.engine.varCount = 0) (hclosed : d.closed ≠ []) :
    [] ∈ d.closed := by
  obtain ⟨c, hc⟩ := List.exists_mem_of_ne_nil _ hclosed
  have hempty : c = [] := by
    refine List.eq_nil_iff_forall_not_mem.mpr fun l hl => ?_
    have hadmitted := h.keeps.admitted c (List.mem_append_left _ hc) l hl
    have hnonzero := hadmitted.nonzero
    have hvar : l.natAbs ≤ s.engine.varCount := hadmitted.exists_var
    omega
  rwa [hempty] at hc

/-- The closed clauses of a session, as its engine tells them. -/
def closedClauses (p : Placed (Session TableEngine)) :
    EStateM.Result Fault (Placed TableEngine) (List (List Int)) :=
  clauses ⟨p.object.engine, p.host⟩

/-- Any calls of a session keep it to the account of its calls. -/
theorem told_of_created (hp : host.Plain) (ht : host.TakesBack)
    {search : Search} (hsound : search.Sound) {config : Config} {v : Value}
    {host' : Host}
    (hmade : create (TableEngine.create search) config v host
      = .ok s host')
    (calls : List SessionCall)
    (hproper : ∀ call ∈ calls, call.Proper s.engine.tables) :
    Told s.engine.tables (turns SessionCall.perform calls ⟨s, host'⟩)
      (afterTurns SessionCall.perform calls ⟨s, host'⟩) := by
  obtain ⟨hintact, hlast, d, limit, habreast⟩ :=
    created_serving hp ht hsound hmade
  have hstart : Told s.engine.tables [] ⟨s, host'⟩ := by
    refine .live none d limit habreast hintact ⟨?_, ?_, ?_⟩ (by simp)
    · rw [show (⟨s, host'⟩ : Placed _).object.last = none from hlast]
      exact iff_of_false (by simp) fun ⟨t, ht⟩ => Turn.not_latest_nil ht
    · exact iff_of_false (by simp) fun ⟨t, ht⟩ => Turn.not_latest_nil ht
    · rw [show (⟨s, host'⟩ : Placed _).object.last = none from hlast]
      simp
  -- over the turns: as long as all calls are proper
  refine turns_keep SessionCall.perform
    (fun done p => (∀ call ∈ done.map Turn.call,
      call.Proper s.engine.tables) → Told s.engine.tables done p)
    (fun done p call h hall => ?_) calls [] ⟨s, host'⟩
    (fun _ => hstart) (by rwa [List.nil_append, map_call_turns])
  rw [List.map_append, List.map_singleton, Turn.call_take] at hall
  exact (h fun c hc => hall c (List.mem_append_left _ hc)).turn
    (hall call (by simp))

/-- After any calls of a session, on a host that may refuse any of its
requests: what still holds is decoded, a total list that satisfies all
closed clauses. What does not is refused, but for an engine without
variables whose session last found an assignment: there the empty list is
decoded while the empty clause is closed. -/
theorem decodes_what_holds (hp : host.Plain) (ht : host.TakesBack)
    {search : Search} (hsound : search.Sound) {config : Config} {v : Value}
    {host' : Host}
    (hmade : create (TableEngine.create search) config v host
      = .ok s host')
    (calls : List SessionCall)
    (hproper : ∀ call ∈ calls, call.Proper s.engine.tables) :
    let done := turns SessionCall.perform calls ⟨s, host'⟩
    let p := afterTurns SessionCall.perform calls ⟨s, host'⟩
    let n := p.object.engine.varCount
    (StillHolds done → .destroy ∉ calls →
        ∃ list closed, decode p = .ok (list.map Value.int) p
          ∧ closedClauses p = .ok closed ⟨p.object.engine, p.host⟩
          ∧ Total n list ∧ Satisfies list closed)
      ∧ (¬ StillHolds done ∨ .destroy ∈ calls →
          ¬ (LastFound done ∧ .destroy ∉ calls ∧ n = 0) →
          ∃ f, decode p = .error f p
            ∧ f.errorClass = .preconditionViolation)
      ∧ (¬ StillHolds done → LastFound done → .destroy ∉ calls → n = 0 →
          decode p = .ok [] p
            ∧ ∃ closed,
              closedClauses p = .ok closed ⟨p.object.engine, p.host⟩
              ∧ [] ∈ closed) := by
  intro done p n
  have hcalls : done.map Turn.call = calls := map_call_turns ..
  -- the account of the turns carries both guards: the record of the session
  -- and the flag of the table
  have hend : Told s.engine.tables done p :=
    told_of_created hp ht hsound hmade calls hproper
  cases hend with
  | gone hdestroyed hended =>
      rw [hcalls] at hended
      refine ⟨fun _ hnot => absurd hended hnot, fun _ _ => ?_,
        fun _ _ hnot => absurd hended hnot⟩
      exact decode_refused (Or.inl hdestroyed)
  | live shown d limit habreast hintact haccords hlasting =>
      rw [hcalls] at hlasting
      have hclauses : closedClauses p
          = .ok d.closed ⟨p.object.engine, p.host⟩ :=
        habreast.keeps.clauses_eq
      refine ⟨fun hstill _ => ?_, fun hcase hrest => ?_,
        fun hcase hfound _ hvars => ?_⟩
      · have hlast := haccords.word.mpr hstill.lastFound
        obtain ⟨n, rfl⟩ :=
          Option.isSome_iff_exists.mp (haccords.flag.mpr hstill)
        obtain ⟨a, hdecode, hsat⟩ := decode_shown habreast hintact hlast
        exact ⟨_, d.closed, hdecode, hclauses, total_signedList a _, hsat⟩
      -- nothing is on the table: either the record of the session refuses, or
      -- the table does, which it is not asked to without variables
      · have hnot : shown = none := by
          have hno := mt haccords.flag.mp
            (hcase.resolve_right hlasting)
          simpa using hno
        subst hnot
        by_cases hlast : p.object.last = some .satisfiable
        · have hvars : n ≠ 0 := fun hvars =>
            hrest ⟨haccords.word.mp hlast, hlasting, hvars⟩
          have hdecode := decode_unshown habreast hintact hlast
          rw [if_neg hvars] at hdecode
          exact ⟨_, hdecode, rfl⟩
        · exact decode_refused (Or.inr hlast)
      · have hnot : shown = none := by
          have hno := mt haccords.flag.mp hcase
          simpa using hno
        subst hnot
        have hlast := haccords.word.mpr hfound
        have hdecode := decode_unshown habreast hintact hlast
        rw [if_pos hvars] at hdecode
        exact ⟨hdecode, d.closed, hclauses,
          nil_mem_closed habreast hvars (haccords.closed rfl hlast)⟩

/-- A clause of one literal: its solution is decoded, and is not any more
once another clause has been closed. -/
theorem decodes_what_holds_one_clause :
    Ends
      (fun s host' =>
        (let p := afterTurns SessionCall.perform [.invoke (-1)] ⟨s, host'⟩
          ∃ list, decode p = .ok (list.map Value.int) p
            ∧ Total 1 list ∧ Satisfies list [[1]])
        ∧ (let p := afterTurns SessionCall.perform
            [.invoke (-1), .tell (.addLiteral 2), .tell .terminateClause]
            ⟨s, host'⟩
          ∃ f, decode p = .error f p
            ∧ f.errorClass = .preconditionViolation))
      never
      (create (TableEngine.create Learning.search) {}
        (.seq .list [.seq .tuple [.int 1]]) .boundless) := by
  have hg := Host.generous_boundless
  generalize hmade : create (TableEngine.create Learning.search) {}
    (.seq .list [.seq .tuple [.int 1]]) .boundless = made
  have hrun : Ends
      (fun s host' =>
        let p := afterTurns SessionCall.perform [.invoke (-1)] ⟨s, host'⟩
        let q := afterTurns SessionCall.perform
          [.invoke (-1), .tell (.addLiteral 2)] ⟨s, host'⟩
        let r := afterTurns SessionCall.perform
          [.invoke (-1), .tell (.addLiteral 2), .tell .terminateClause]
          ⟨s, host'⟩
        Ends (fun outcome _ => outcome = .satisfiable) (fun _ _ => False)
            (invoke (.int (-1)) ⟨s, host'⟩)
          ∧ Ends (fun closed _ => closed = [[1]]) (fun _ _ => False)
              (closedClauses p)
          ∧ p.object.engine.varCount = 1
          ∧ (Turn.take SessionCall.perform
              (.tell .terminateClause) q).fault = none
          ∧ r.object.engine.varCount = 2)
      (fun _ _ => False) made := by
    rw [← hmade]
    decide +kernel
  cases made with
  | error f host' => exact hrun
  | ok s host' =>
      obtain ⟨hinvoke, hclosed, hone, hfault, htwo⟩ := hrun
      have hdecodes := decodes_what_holds hg.plain hg.takesBack
        Learning.search_sound hmade
      constructor
      · have hstill : StillHolds
            (turns SessionCall.perform [.invoke (-1)] ⟨s, host'⟩) :=
          ⟨_, [], [], rfl, finds_take hinvoke, by simp⟩
        obtain ⟨list, closed, hdecode, hclauses, htotal, hsat⟩ :=
          (hdecodes [.invoke (-1)] (by simp [SessionCall.Proper])).1 hstill
            (by simp)
        rw [hclauses] at hclosed
        obtain rfl : closed = [[1]] := hclosed
        rw [hone] at htotal
        exact ⟨list, hdecode, htotal, hsat⟩
      · have hover : ¬ StillHolds (turns SessionCall.perform
            [.invoke (-1), .tell (.addLiteral 2), .tell .terminateClause]
            ⟨s, host'⟩) := by
          generalize hu : Turn.take SessionCall.perform
            (.tell .terminateClause) (afterTurns SessionCall.perform
              [.invoke (-1), .tell (.addLiteral 2)] ⟨s, host'⟩) = u at hfault
          have hcall : u.call = .tell .terminateClause := by
            rw [← hu, Turn.call_take]
          have hdone : turns SessionCall.perform
              [.invoke (-1), .tell (.addLiteral 2), .tell .terminateClause]
              ⟨s, host'⟩
              = turns SessionCall.perform
                [.invoke (-1), .tell (.addLiteral 2)] ⟨s, host'⟩ ++ [u] := by
            rw [← hu]
            rfl
          rw [hdone]
          rintro ⟨t, ht⟩
          refine Turn.not_latest_concat ?_ (Or.inr ⟨hfault, ?_⟩) ht
          · rintro ⟨-, budget, hinvoke, -⟩
            rw [hcall] at hinvoke
            cases hinvoke
          · rw [hcall]
            rfl
        refine (hdecodes [.invoke (-1), .tell (.addLiteral 2),
          .tell .terminateClause] ?_).2.1 (Or.inl hover) ?_
        · simp [SessionCall.Proper]
        · rintro ⟨-, -, hvars⟩
          rw [htwo] at hvars
          cases hvars

/-- Decoding is not always refused where the assignment does not hold any
more: without variables the empty list is decoded while the empty clause is
closed. -/
theorem decodes_the_empty_list :
    ¬ ∀ (host : Host), host.Plain → host.TakesBack →
      ∀ (search : Search), search.Sound →
      ∀ (config : Config) (v : Value) (s : Session TableEngine)
        (host' : Host),
        create (TableEngine.create search) config v host = .ok s host' →
      ∀ calls : List SessionCall,
        (∀ call ∈ calls, call.Proper s.engine.tables) →
        let p := afterTurns SessionCall.perform calls ⟨s, host'⟩
        Ends
          (fun literals _ => ∃ list closed,
            literals = list.map Value.int
              ∧ closedClauses p = .ok closed ⟨p.object.engine, p.host⟩
              ∧ Total p.object.engine.varCount list
              ∧ Satisfies list closed)
          (fun f _ => f.errorClass = .preconditionViolation)
          (decode p) := by
  intro hall
  have hg := Host.generous_boundless
  have hdecodes := hall .boundless hg.plain hg.takesBack Learning.search
    Learning.search_sound {} (.seq .list [])
  generalize hmade : create (TableEngine.create Learning.search) {}
    (.seq .list []) .boundless = made at hdecodes
  have hrun : Ends
      (fun s host' =>
        let p := afterTurns SessionCall.perform
          [.invoke (-1), .tell .terminateClause] ⟨s, host'⟩
        Ends (fun _ _ => True) (fun _ _ => False) (decode p)
          ∧ Ends (fun closed _ => closed = [[]]) (fun _ _ => False)
              (closedClauses p))
      (fun _ _ => False) made := by
    rw [← hmade]
    decide +kernel
  cases made with
  | error f host' => exact hrun
  | ok s host' =>
      obtain ⟨hdecoded, hclosed⟩ := hrun
      have hholds : Ends _ _ (decode (afterTurns SessionCall.perform
          [.invoke (-1), .tell .terminateClause] ⟨s, host'⟩)) :=
        hdecodes s host' rfl [.invoke (-1), .tell .terminateClause]
          (by simp [SessionCall.Proper])
      revert hholds hdecoded
      cases decode (afterTurns SessionCall.perform
          [.invoke (-1), .tell .terminateClause] ⟨s, host'⟩) with
      | error f q => exact fun hdecoded _ => hdecoded
      | ok literals q =>
          rintro - ⟨list, closed, -, hclauses, -, hsat⟩
          rw [hclauses] at hclosed
          obtain rfl : closed = [[]] := hclosed
          obtain ⟨l, hl, -⟩ := hsat [] (by simp)
          cases hl

end Session

end SatSession
