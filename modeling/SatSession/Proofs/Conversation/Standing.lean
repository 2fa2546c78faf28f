/-
Which search the guard of a session goes by.

Decoding and blocking ask the guard of their session first, and the guard
looks at two things that the session has noted of itself: that it is not
destroyed, and what it was last told. Any answer of a search changes the
second, whether or not it is a code, but a search that fails inside the
engine changes nothing. So the guard goes by the last invocation that the
engine has answered, and this need not be the last one
(`guard_follows_last_answer`): after a search that failed, what the one
before it has found is still decoded (`not_always_last_invocation`).
-/
import SatSession.Proofs.Conversation.Laws
import SatSession.Proofs.Turns
import Mathlib.Logic.Basic

namespace SatSession

variable {E α : Type}

namespace Session

variable {s : Session E} {host : Host}

-- ========================================================== the guard

/-- The guard lets a session pass that was last told of an assignment. -/
theorem requireModel_eq (hintact : s.destroyed = false)
    (hlast : s.last = some .satisfiable) :
    requireModel ⟨s, host⟩ = .ok () ⟨s, host⟩ := by
  unfold requireModel
  rw [Op.read_bind_apply]
  simp only [hintact, hlast, Bool.false_eq_true, if_false, ne_eq,
    not_true_eq_false]
  rfl

/-- It stops every other one. -/
theorem requireModel_refused
    (h : s.destroyed = true ∨ s.last ≠ some .satisfiable) :
    ∃ f, requireModel ⟨s, host⟩ = .error f ⟨s, host⟩
      ∧ f.errorClass = .preconditionViolation := by
  unfold requireModel
  rw [Op.read_bind_apply]
  by_cases hdestroyed : s.destroyed = true
  · rw [if_pos hdestroyed]
    exact ⟨.sessionDestroyed, rfl, rfl⟩
  · rw [if_neg hdestroyed, if_pos (h.resolve_left hdestroyed)]
    exact ⟨.noAssignment s.last, rfl, rfl⟩

/-- What the guard looks at. -/
def standing (p : Placed (Session E)) : Bool × Option Outcome :=
  (p.object.destroyed, p.object.last)

variable [Engine E] {budget : Value} {f : Fault} {code : Value}
  {q : Placed E}

-- ========================================================= invocations

/-- A search that fails leaves no note in the session. -/
theorem invoke_of_failure (hintact : s.destroyed = false)
    (hsolve : Engine.solve budget ⟨s.engine, host⟩ = .error f q) :
    invoke budget ⟨s, host⟩
      = .error f ⟨{ s with engine := q.object }, q.host⟩ := by
  have hasked : onEngine (Engine.solve budget) ⟨s, host⟩
      = .error f ⟨{ s with engine := q.object }, q.host⟩ := by
    simp only [onEngine, Op.within, hsolve]
  unfold invoke
  rw [Op.read_bind_apply, if_neg (by simp [hintact])]
  exact bind_of_error hasked

/-- Any answer of a search leaves one: what its code stands for, or that it
stands for nothing. -/
theorem invoke_of_code {p : Placed (Session E)}
    (halive : p.object.destroyed = false)
    (hsolve : Engine.solve budget ⟨p.object.engine, p.host⟩ = .ok code q) :
    Ends
      (fun outcome r => Outcome.ofCode code = .ok outcome
        ∧ standing r = (false, some outcome))
      (fun f r => (f = .engineCode code
          ∧ ∀ outcome, Outcome.ofCode code ≠ .ok outcome)
        ∧ standing r = (false, none))
      (invoke budget p) := by
  unfold invoke
  rw [Op.read_bind_apply, if_neg (by simp [halive]), ends_bind, onEngine,
    Op.ends_within, hsolve, ends_ok, Op.update_bind_apply]
  cases hcode : Outcome.ofCode code with
  | error f =>
      exact ⟨⟨rfl, fun _ h => by cases h⟩, Prod.ext halive rfl⟩
  | ok outcome => exact ⟨rfl, Prod.ext halive rfl⟩

omit [Engine E] in
/-- The engine has no part in what a session remembers. -/
theorem onEngine_leaves_standing (op : Op E α) :
    Leaves standing (onEngine op) := by
  intro p
  rw [onEngine, Op.ends_within]
  exact (ends_true _).imp (fun _ _ _ => rfl) fun _ _ _ => rfl

omit [Engine E] in
/-- Nor has the host. -/
theorem onHost_leaves_standing (op : HostOp α) :
    Leaves standing (Op.onHost op : Op (Session E) α) := by
  intro p
  rw [Op.ends_onHost]
  exact (ends_true _).imp (fun _ _ _ => rfl) fun _ _ _ => rfl

/-- Whatever is asked of the engine and the host, a session does not note
down. -/
theorem deals_standing : Deals (E := E) (Same standing) where
  variableCount := onEngine_leaves_standing _
  valueOf _ := onEngine_leaves_standing _
  addLiteral _ := onEngine_leaves_standing _
  terminateClause := onEngine_leaves_standing _
  alloc _ := onHost_leaves_standing _
  realloc _ _ _ := onHost_leaves_standing _
  poke _ _ _ := onHost_leaves_standing _

end Session

-- ================================================================= uses

/-- A use of a session. -/
inductive SessionUse where
  | invoke (budget : Value)
  | requireModel
  | decode
  | block (scratch : Option BlockId)
  | destroy

namespace SessionUse

open Session

variable [Engine E]

/-- Makes use of a session; what it answers is dropped. -/
def perform : SessionUse → Op (Session E) Unit
  | invoke budget => do
      let _ ← Session.invoke budget
  | requireModel => Session.requireModel
  | decode => do
      let _ ← Session.decode
  | block scratch => do
      let _ ← Session.block scratch
  | destroy => Session.destroy

/-- A turn in which the engine answered a search, with whatever value. -/
def Answered (t : Turn SessionUse (Session E)) : Prop :=
  ∃ budget code q, t.call = .invoke budget
    ∧ Engine.solve budget ⟨t.before.object.engine, t.before.host⟩
      = .ok code q

/-- A turn in which an invocation returned that there is an assignment. -/
def Found (t : Turn SessionUse (Session E)) : Prop :=
  ∃ budget, t.call = .invoke budget
    ∧ Session.invoke budget t.before = .ok .satisfiable t.after

/-- The last search that was answered has found an assignment. -/
def LastFound (done : List (Turn SessionUse (Session E))) : Prop :=
  ∃ t, Turn.Latest Found Answered t done

variable {s : Session E} {host : Host} {p q : Placed (Session E)}
  {fault : Option Fault} {budget : Value} {t : Turn SessionUse (Session E)}
  {done : List (Turn SessionUse (Session E))}

/-- An invocation is answered just if the engine answers the search. -/
theorem answered_invoke :
    Answered (⟨.invoke budget, p, fault, q⟩ : Turn SessionUse (Session E))
      ↔ ∃ code r, Engine.solve budget ⟨p.object.engine, p.host⟩
          = .ok code r := by
  constructor
  · rintro ⟨budget, code, r, hcall, hsolve⟩
    cases hcall
    exact ⟨code, r, hsolve⟩
  · rintro ⟨code, r, hsolve⟩
    exact ⟨budget, code, r, rfl, hsolve⟩

/-- It finds an assignment just if it ends satisfiable. -/
theorem found_invoke :
    Found (⟨.invoke budget, p, fault, q⟩ : Turn SessionUse (Session E))
      ↔ Session.invoke budget p = .ok .satisfiable q := by
  constructor
  · rintro ⟨budget, hcall, hinvoke⟩
    cases hcall
    exact hinvoke
  · exact fun hinvoke => ⟨budget, rfl, hinvoke⟩

/-- What the guard looks at agrees with the account of the turns. -/
inductive Accords (done : List (Turn SessionUse (Session E)))
    (p : Placed (Session E)) : Prop where
  | live (intact : p.object.destroyed = false)
      (word : p.object.last = some .satisfiable ↔ LastFound done)
      (lasting : .destroy ∉ done.map Turn.call)
  | gone (destroyed : p.object.destroyed = true)
      (ended : .destroy ∈ done.map Turn.call)

-- ============================================================= one turn

omit [Engine E] in
/-- A session lasts over any other call. -/
theorem destroy_notMem_concat (h : .destroy ∉ done.map Turn.call)
    (ht : t.call ≠ .destroy) : .destroy ∉ (done ++ [t]).map Turn.call := by
  rw [List.map_append, List.map_singleton]
  simp [h, Ne.symm ht]

/-- Whatever is neither an invocation nor the end leaves what the guard
looks at. -/
theorem perform_leaves {use : SessionUse}
    (hinvoke : ∀ budget, use ≠ .invoke budget)
    (hdestroy : use ≠ .destroy) :
    Leaves standing (use.perform : Op (Session E) Unit) := by
  cases use with
  | invoke budget => exact absurd rfl (hinvoke budget)
  | destroy => exact absurd rfl hdestroy
  | requireModel => exact requireModel_moves
  | decode =>
      exact (decode_moves deals_standing.variableCount
        deals_standing.valueOf).bind fun _ => .pure _
  | block scratch =>
      exact (block_moves deals_standing scratch).bind fun _ => .pure _

/-- A destroyed session stays one, whatever use is made of it. -/
theorem perform_gone (use : SessionUse) (hp : p.object.destroyed = true) :
    Ends (fun _ q => q.object.destroyed = true)
      (fun _ q => q.object.destroyed = true) (use.perform p) := by
  have hsame : ∀ q : Placed (Session E), standing q = standing p →
      q.object.destroyed = true :=
    fun q hq => (Prod.mk.inj hq).1.trans hp
  cases use with
  | invoke budget =>
      show Ends _ _ ((Session.invoke budget >>= fun _ => pure ()) p)
      unfold Session.invoke
      rw [ends_bind, Op.read_bind_apply, if_pos hp]
      exact hp
  | destroy =>
      show Ends _ _ (Session.destroy p)
      unfold Session.destroy
      rw [Op.read_bind_apply, if_pos hp]
      exact hp
  | _ =>
      refine (perform_leaves (by simp) (by simp) p).imp ?_ ?_
      · exact fun _ q hq => hsame q hq
      · exact fun _ q hq => hsame q hq

/-- A session that is destroyed has gone, even if the reset fails. -/
theorem destroy_gone (p : Placed (Session E)) :
    Ends (fun _ q => q.object.destroyed = true)
      (fun _ q => q.object.destroyed = true) (Session.destroy p) := by
  unfold Session.destroy
  rw [Op.read_bind_apply]
  split
  next hp => exact hp
  next =>
    rw [Op.update_bind_apply, ends_bind, onEngine, Op.ends_within]
    exact (ends_true _).imp (fun _ _ _ => rfl) fun _ _ _ => rfl

/-- A turn after which a session is gone. -/
theorem Accords.end {use : SessionUse}
    (hgone : Ends (fun _ q => q.object.destroyed = true)
      (fun _ q => q.object.destroyed = true) (use.perform p))
    (hended : .destroy ∈ done.map Turn.call ∨ use = .destroy) :
    let t := Turn.take perform use p
    Accords (done ++ [t]) t.after := by
  intro t
  refine .gone ?_ ?_
  · rcases Turn.take_of_ends hgone with ⟨-, hafter⟩ | ⟨f, -, hafter⟩
    · exact hafter
    · exact hafter
  · rw [List.map_append, List.map_singleton,
      show t.call = use from Turn.call_take ..]
    rcases hended with hended | rfl
    · exact List.mem_append_left _ hended
    · exact List.mem_append_right _ List.mem_cons_self

section

variable (hintact : s.destroyed = false)
  (hword : s.last = some .satisfiable ↔ LastFound done)
  (hlasting : .destroy ∉ done.map Turn.call)

include hintact hword hlasting

/-- A turn that is no answered search and leaves what the guard looks at. -/
theorem Accords.keep (hcall : t.call ≠ .destroy) (hfound : ¬ Found t)
    (hanswered : ¬ Answered t)
    (hsame : standing t.after = (s.destroyed, s.last)) :
    Accords (done ++ [t]) t.after := by
  obtain ⟨hdestroyed, hlast⟩ := Prod.mk.inj hsame
  refine .live (hdestroyed.trans hintact) ?_
    (destroy_notMem_concat hlasting hcall)
  rw [hlast]
  exact hword.trans (exists_congr fun u =>
    (Turn.latest_concat_of_neither hfound hanswered).symm)

/-- A turn with an invocation: what the search answers is the new word, and
the old one stays if it fails. -/
theorem Accords.invoke (budget : Value) :
    let t := Turn.take perform (.invoke budget) ⟨s, host⟩
    Accords (done ++ [t]) t.after := by
  intro t
  have hne : t.call ≠ .destroy := by
    rw [show t.call = .invoke budget from Turn.call_take ..]
    simp
  have hlasts := destroy_notMem_concat hlasting hne
  cases hsolve : Engine.solve budget ⟨s.engine, host⟩ with
  | error f q =>
      have hinvoke := invoke_of_failure hintact hsolve
      have ht : t = ⟨.invoke budget, ⟨s, host⟩, some f,
          ⟨{ s with engine := q.object }, q.host⟩⟩ :=
        Turn.take_of_error (bind_of_error hinvoke)
      -- the engine failed: neither the record nor the account takes notice
      refine Accords.keep hintact hword hlasting hne ?_ ?_ ?_
      · rw [ht, found_invoke, hinvoke]
        simp
      · rw [ht, answered_invoke, hsolve]
        simp
      · rw [ht]
        rfl
  | ok code q =>
      have hends := invoke_of_code (p := ⟨s, host⟩) hintact hsolve
      cases hinvoke : Session.invoke budget ⟨s, host⟩ with
      | error f r =>
          rw [hinvoke] at hends
          obtain ⟨hdestroyed, hlast⟩ := Prod.mk.inj hends.2
          have ht : t = ⟨.invoke budget, ⟨s, host⟩, some f, r⟩ :=
            Turn.take_of_error (bind_of_error hinvoke)
          rw [ht] at hlasts ⊢
          refine .live hdestroyed ?_ hlasts
          -- the answer was no outcome: it is answered for the account, and the
          -- record is cleared
          refine iff_of_false (by rw [hlast]; simp) ?_
          rintro ⟨u, hu⟩
          refine Turn.not_latest_concat ?_ ?_ hu
          · rw [found_invoke, hinvoke]
            simp
          · exact answered_invoke.mpr ⟨code, q, hsolve⟩
      | ok outcome r =>
          rw [hinvoke] at hends
          obtain ⟨hdestroyed, hlast⟩ := Prod.mk.inj hends.2
          have ht : t = ⟨.invoke budget, ⟨s, host⟩, none, r⟩ :=
            Turn.take_of_ok (bind_of_ok (f := fun _ => pure ()) hinvoke)
          rw [ht] at hlasts ⊢
          have hanswered : Answered (⟨.invoke budget, ⟨s, host⟩, none, r⟩ :
              Turn SessionUse (Session E)) :=
            answered_invoke.mpr ⟨code, q, hsolve⟩
          refine .live hdestroyed ?_ hlasts
          rw [hlast, Option.some.injEq]
          constructor
          · rintro rfl
            exact ⟨_, (Turn.latest_concat_of_both
              (found_invoke.mpr hinvoke) hanswered).mpr rfl⟩
          · rintro ⟨u, hu⟩
            by_cases hfound : Session.invoke budget ⟨s, host⟩
                = .ok .satisfiable r
            · rw [hinvoke] at hfound
              cases hfound
              rfl
            · exact absurd hu (Turn.not_latest_concat
                (mt found_invoke.mp hfound) hanswered)

end

/-- One turn more. -/
theorem Accords.turn (h : Accords done p) (use : SessionUse) :
    Accords (done ++ [Turn.take perform use p])
      (Turn.take perform use p).after := by
  obtain ⟨s, host⟩ := p
  cases h with
  | gone hdestroyed hended =>
      exact .end (perform_gone use hdestroyed) (Or.inl hended)
  | live hintact hword hlasting =>
      by_cases hend : use = .destroy
      · subst hend
        exact .end (destroy_gone ⟨s, host⟩) (Or.inr rfl)
      by_cases hinvoke : ∃ budget, use = .invoke budget
      · obtain ⟨budget, rfl⟩ := hinvoke
        exact .invoke hintact hword hlasting budget
      · have hcall : (Turn.take perform use ⟨s, host⟩).call = use :=
          Turn.call_take ..
        have hother : ∀ budget, use ≠ .invoke budget :=
          fun budget hbudget => hinvoke ⟨budget, hbudget⟩
        refine .keep hintact hword hlasting (by rwa [hcall]) ?_ ?_ ?_
        · rintro ⟨budget, hbudget, -⟩
          exact hother budget (hcall.symm.trans hbudget)
        · rintro ⟨budget, code, q, hbudget, -⟩
          exact hother budget (hcall.symm.trans hbudget)
        · rcases Turn.take_of_ends (perform_leaves hother hend ⟨s, host⟩)
            with ⟨-, hafter⟩ | ⟨f, -, hafter⟩
          · exact hafter
          · exact hafter

-- ================================================================ runs

/-- A session is created undestroyed and without a word. -/
theorem create_standing (make : HostOp E) (config : Config) (v : Value)
    (host : Host) :
    Ends (fun s _ => s.destroyed = false ∧ s.last = none)
      (fun _ _ => True) (Session.create make config v host) := by
  unfold Session.create
  rw [ends_bind]
  refine (ends_true _).imp_answer fun e _ _ => ?_
  rw [ends_bind, Op.ends_on]
  exact (ends_true _).imp_answer fun _ _ _ => ⟨rfl, rfl⟩

/-- The guard of a session goes by the last search that the engine has
answered, over any engine and after any uses; where it stops, decoding and
blocking stop with it, and nothing is changed. -/
theorem guard_follows_last_answer {make : HostOp E} {config : Config}
    {v : Value} {host host' : Host} {s : Session E}
    (hmade : Session.create make config v host = .ok s host')
    (uses : List SessionUse) :
    let done := turns perform uses ⟨s, host'⟩
    let p := afterTurns perform uses ⟨s, host'⟩
    (Session.requireModel p = .ok () p
        ↔ .destroy ∉ uses ∧ LastFound done)
      ∧ (¬ (.destroy ∉ uses ∧ LastFound done) →
        ∃ f, f.errorClass = .preconditionViolation
          ∧ Session.requireModel p = .error f p
          ∧ Session.decode p = .error f p
          ∧ ∀ scratch, Session.block scratch p = .error f p) := by
  intro done p
  have hcalls : done.map Turn.call = uses := map_call_turns ..
  have hfresh := create_standing make config v host
  rw [hmade] at hfresh
  obtain ⟨hintact, hlast⟩ := hfresh
  have hstart : Accords [] (⟨s, host'⟩ : Placed (Session E)) := by
    refine .live hintact (iff_of_false ?_ ?_) (by simp)
    · rw [hlast]
      simp
    · exact fun ⟨t, ht⟩ => Turn.not_latest_nil ht
  have hend : Accords done p :=
    turns_keep perform Accords (fun done p use h => h.turn use) uses []
      ⟨s, host'⟩ hstart
  -- what the guard looks at is what the account says
  have hguard : (p.object.destroyed = false
      ∧ p.object.last = some .satisfiable)
        ↔ .destroy ∉ uses ∧ LastFound done := by
    cases hend with
    | live hintact hword hlasting =>
        rw [hcalls] at hlasting
        exact and_congr (iff_of_true hintact hlasting) hword
    | gone hdestroyed hended =>
        rw [hcalls] at hended
        refine iff_of_false ?_ fun h => h.1 hended
        rw [hdestroyed]
        simp
  have hstops : ¬ (.destroy ∉ uses ∧ LastFound done) →
      ∃ f, Session.requireModel p = .error f p
        ∧ f.errorClass = .preconditionViolation := by
    intro hnot
    refine requireModel_refused ?_
    rwa [← hguard, not_and_or, Bool.not_eq_false] at hnot
  refine ⟨⟨fun hpass => ?_, fun hfound => ?_⟩, fun hnot => ?_⟩
  · by_cases hfound : .destroy ∉ uses ∧ LastFound done
    · exact hfound
    · obtain ⟨f, hrefused, -⟩ := hstops hfound
      rw [hrefused] at hpass
      cases hpass
  · obtain ⟨hintact, hlast⟩ := hguard.mpr hfound
    exact requireModel_eq hintact hlast
  · obtain ⟨f, hrefused, hclass⟩ := hstops hnot
    exact ⟨f, hclass, hrefused, bind_of_error hrefused,
      fun scratch => bind_of_error hrefused⟩

-- ============================================ a search that fails

/-- An engine that finds an assignment and fails in its second search. -/
def failingLater : Scripted :=
  { script := { failures := [("solve", 2)] } }

/-- A session over this engine. -/
def sessionFailingLater : EStateM.Result Fault Host (Session Scripted) :=
  Session.create (pure failingLater) {} (.list [.list [.int 1]])
    (Host.new (.open false) none)

/-- Two invocations. -/
def twoInvocations : List SessionUse :=
  [.invoke (.int (-1)), .invoke (.int (-1))]

/-- What the first search has found stands after the second one, and is
gone once the session is destroyed. -/
theorem guard_follows_last_answer_failed_search :
    Ends
      (fun s host' =>
        let p := afterTurns perform twoInvocations ⟨s, host'⟩;
        let q := afterTurns perform (twoInvocations ++ [.destroy])
          ⟨s, host'⟩;
        LastFound (turns perform twoInvocations ⟨s, host'⟩)
          ∧ Session.requireModel p = .ok () p
          ∧ ∃ f, f.errorClass = .preconditionViolation
            ∧ Session.decode q = .error f q)
      never sessionFailingLater := by
  generalize hmade : sessionFailingLater = made
  have hrun : Ends
      (fun s host' =>
        let p := afterTurns perform twoInvocations ⟨s, host'⟩;
        p.object.destroyed = false ∧ p.object.last = some .satisfiable)
      (fun _ _ => False) made := by
    rw [← hmade]
    decide +kernel
  cases made with
  | error f host' => exact hrun
  | ok s host' =>
      obtain ⟨hintact, hlast⟩ := hrun
      have hguard := guard_follows_last_answer hmade
      have hpass : Session.requireModel
          (afterTurns perform twoInvocations ⟨s, host'⟩)
          = .ok () (afterTurns perform twoInvocations ⟨s, host'⟩) :=
        requireModel_eq hintact hlast
      obtain ⟨f, hclass, -, hdecode, -⟩ :=
        (hguard (twoInvocations ++ [.destroy])).2
          fun hnot => hnot.1 (by simp)
      exact ⟨((hguard twoInvocations).1.mp hpass).2, hpass, f, hclass,
        hdecode⟩

/-- The guard does not go by the last invocation, however it ended: here
this one has failed. -/
theorem not_always_last_invocation :
    ¬ ∀ (E : Type) [Engine E] (make : HostOp E) (config : Config)
      (v : Value) (host host' : Host) (s : Session E),
      Session.create make config v host = .ok s host' →
        ∀ uses : List SessionUse,
          let p := afterTurns perform uses ⟨s, host'⟩;
          Session.requireModel p = .ok () p
            ↔ .destroy ∉ uses ∧ ∃ t, Turn.Latest Found
                (fun t => ∃ budget, t.call = .invoke budget) t
                (turns perform uses ⟨s, host'⟩) := by
  intro hall
  have hholds := hall Scripted (pure failingLater) {}
    (.list [.list [.int 1]]) (Host.new (.open false) none)
  change ∀ host' s, sessionFailingLater = .ok s host' → _ at hholds
  generalize hmade : sessionFailingLater = made at hholds
  have hrun : Ends
      (fun s host' =>
        let p := afterTurns perform twoInvocations ⟨s, host'⟩;
        let first := Turn.take perform (.invoke (.int (-1))) ⟨s, host'⟩;
        Ends (fun _ _ => False) (fun _ _ => True)
            (Session.invoke (.int (-1)) first.after)
          ∧ p.object.destroyed = false ∧ p.object.last = some .satisfiable)
      (fun _ _ => False) made := by
    rw [← hmade]
    decide +kernel
  cases made with
  | error f host' => exact hrun
  | ok s host' =>
      obtain ⟨hfails, hintact, hlast⟩ := hrun
      obtain ⟨-, t, ht⟩ := (hholds host' s rfl twoInvocations).mp
        (requireModel_eq hintact hlast)
      let first := Turn.take perform (.invoke (.int (-1)))
        (⟨s, host'⟩ : Placed (Session Scripted))
      let second := Turn.take perform (.invoke (.int (-1))) first.after
      have hcall : second.call = .invoke (.int (-1)) := Turn.call_take ..
      have hnotfound : ¬ Found second := by
        rintro ⟨budget, hbudget, hfound⟩
        rw [hcall] at hbudget
        cases hbudget
        rw [show second.before = first.after from Turn.before_take ..]
          at hfound
        rw [show Session.invoke (.int (-1)) first.after = _ from hfound]
          at hfails
        exact hfails
      exact Turn.not_latest_concat hnotfound ⟨_, hcall⟩
        (show Turn.Latest _ _ t ([first] ++ [second]) from ht)

end SessionUse

end SatSession
