/-
What an engine has been given when the loading of clauses ends.

Clauses are checked one by one in front of their literals, so an engine is
given whole clauses only: all of them if none has a defect, and otherwise
those in front of the first defect, which is also what the fault speaks
about (`loads_up_to_first_defect`). This takes an engine that accepts what
it is given; with any other the loading may end earlier. Still it ends
with a fault if there is a defect, so that nobody asks for a search: no
session is made, and neither `solve` nor `enumerate` gets to its engine
(`Session.create_stopped`).
-/
import SatSession.Proofs.Conversation.Loading
import SatSession.Proofs.Conversation.FirstStep
import SatSession.Proofs.Defects
import SatSession.Engine.Dispatch

namespace SatSession

variable {E : Type} [Engine E]

/-- Engines that accept every literal and every end of a clause, in the
states in which they are good, and stay good. -/
structure Obliging (good : Placed E → Prop) : Prop where
  addLiteral : ∀ (l : Int) (p : Placed E), good p →
    Ends (fun _ q => good q) never (Engine.addLiteral (.int l) p)
  terminateClause : ∀ p : Placed E, good p →
    Ends (fun _ q => good q) never (Engine.terminateClause p)

namespace Recorded

/-- The engine that is recorded, on its host. -/
def inner (p : Placed (Recorded E)) : Placed E := ⟨p.object.engine, p.host⟩

/-- The engine has been called in this way, and is still good. -/
structure Given (good : Placed E → Prop) (p : Placed (Recorded E))
    (calls : List Call) (q : Placed (Recorded E)) : Prop where
  good : good (inner q)
  calls : q.object.calls = p.object.calls ++ calls

variable {good : Placed E → Prop} {p q r : Placed (Recorded E)}
  {calls more : List Call}

omit [Engine E] in
theorem Given.refl (h : good (inner p)) : Given good p [] p :=
  ⟨h, (List.append_nil _).symm⟩

omit [Engine E] in
/-- Calls that are handed over one row after the other. -/
theorem Given.trans (h : Given good p calls q) (h' : Given good q more r) :
    Given good p (calls ++ more) r :=
  ⟨h'.good, by rw [h'.calls, h.calls, List.append_assoc]⟩

-- ======================================================= whole clauses

omit [Engine E] in
/-- A call that the engine accepts. -/
theorem hear_given {α : Type} {call : Call} {response : α → Response}
    {op : Op E α} (hop : Ends (fun _ q => good q) never (op (inner p))) :
    Ends (fun _ q => Given good p [call] q) never
      (hear call response op p) := by
  rw [ends_hear]
  refine Ends.imp_ok hop ?_
  intro a q hq
  refine ⟨hq, ?_⟩
  simp only [after, Recorded.calls, List.map_append, List.map_cons,
    List.map_nil]

/-- A clause is given to an obliging engine completely. -/
theorem loadClause_given (h : Obliging good) (clause : List Int)
    (hp : good (inner p)) :
    Ends (fun _ q => Given good p (clauseCalls clause) q) never
      (loadClause clause p) := by
  unfold loadClause clauseCalls
  rw [ends_bind]
  refine (ends_forM (fun done q => Given good p
    (done.map fun l => Call.addLiteral (.int l)) q) clause [] p
    (Given.refl hp) ?_).imp_ok ?_
  · intro done l q _ hq
    refine (hear_given (h.addLiteral l _ hq.good)).imp_ok ?_
    intro _ r hr
    rw [List.map_append]
    exact hq.trans hr
  · intro _ q hq
    refine (hear_given (h.terminateClause _ hq.good)).imp_ok ?_
    exact fun _ r hr => hq.trans hr

/-- Clean clauses are given to it one after the other. -/
theorem loadNexts_given (h : Obliging good) {values : List Value}
    {clauses : List (List Int)}
    (hclean : List.Forall₂ Value.IsCleanClause values clauses) :
    ∀ (count : Nat) (p : Placed (Recorded E)), good (inner p) →
      Ends (fun count' q => count' = count + clauses.length
          ∧ Given good p (clauses.flatMap clauseCalls) q) never
        (values.foldlM loadNext count p) := by
  induction hclean with
  | nil => exact fun count p hp => ⟨rfl, Given.refl hp⟩
  | @cons v clause values clauses hv hclean ih =>
      intro count p hp
      rw [List.foldlM_cons, ends_bind]
      unfold loadNext
      rw [Clause.validate_iff.mpr hv]
      simp only [ends_bind, ends_pure]
      refine (loadClause_given h clause hp).imp_ok ?_
      intro _ q hq
      refine (ih (count + 1) q hq.good).imp_ok ?_
      intro count' r hr
      obtain ⟨rfl, hr⟩ := hr
      rw [List.flatMap_cons, List.length_cons, Nat.add_assoc,
        Nat.add_comm 1]
      exact ⟨rfl, hq.trans hr⟩

end Recorded

-- ============================================================= stopping

/-- A clause that does not pass is not handed over. -/
theorem loadNext_of_error {w : Value} {count : Nat} {f : Fault}
    (h : Clause.validate w (.int count) = .error f) (p : Placed E) :
    loadNext count w p = .error f p := by
  unfold loadNext
  rw [h]
  rfl

/-- Clauses with a defect are not loaded by any engine. -/
theorem loadClauses_stopped {v : Value}
    (hv : ∀ clauses, ¬ v.IsCleanSet clauses) (p : Placed E) :
    Ends (fun _ _ => False) (fun _ _ => True) (loadClauses v p) := by
  unfold loadClauses
  rcases Value.stopped_of_not_clean hv with hseq | ⟨items, good, w, rest,
    early, hseq, hitems, -, hw⟩
  · rw [hseq]
    trivial
  · simp only [hseq, Items.foldlM_eq, hitems, List.foldlM_append,
      List.foldlM_cons, ends_bind]
    refine (ends_true _).imp_answer ?_
    intro count q _
    obtain ⟨f, hcheck⟩ := Clause.exists_validate_error hw (.int count)
    rw [loadNext_of_error hcheck]
    trivial

namespace Recorded

/-- How a loading stops at a defect: with the fault for it, when all the
clauses in front of it have been handed over and nothing else. -/
structure Stopped (v : Value) (p : Placed (Recorded E)) (d : Defect)
    (found : Value) (f : Fault) (q : Placed (Recorded E)) : Prop where
  first : d.First v found
  fault : f = d.fault found
  reported : d.index < Number.firstUnwritable →
    f.errorClass = d.errorClass ∧ f.message? = some (d.message found)
  calls : ∃ early,
    List.Forall₂ Value.IsCleanClause (v.itemList.take d.index) early
      ∧ q.object.calls = p.object.calls ++ early.flatMap clauseCalls

variable {v : Value} {good : Placed E → Prop} {p : Placed (Recorded E)}

/-- An obliging engine is given the clauses in front of the first
defect. -/
theorem loadClauses_stops (h : Obliging good) (hp : good (inner p))
    (hv : ∀ clauses, ¬ v.IsCleanSet clauses) :
    Ends (fun _ _ => False)
      (fun f q => ∃ d found, Stopped v p d found f q)
      (loadClauses v p) := by
  unfold loadClauses
  rcases Value.stopped_of_not_clean hv with hseq | ⟨items, before, w, rest,
    early, hseq, hitems, hbefore, hw⟩
  · rw [hseq]
    refine ⟨.shape, v, Defect.first_shape hseq, rfl,
      fun h => Defect.fault_reported h v, [], ?_, ?_⟩
    · exact .nil
    · exact (List.append_nil _).symm
  · simp only [hseq, Items.foldlM_eq, hitems, List.foldlM_append,
      List.foldlM_cons, ends_bind]
    refine (loadNexts_given h hbefore 0 p hp).imp_ok ?_
    intro count q hq
    obtain ⟨rfl, hq⟩ := hq
    rw [Nat.zero_add, ← hbefore.length_eq]
    obtain ⟨f, hcheck⟩ :=
      Clause.exists_validate_error hw (.int before.length)
    obtain ⟨d, found, hin, hleast, rfl⟩ := Clause.validate_first hcheck
    have hfirst := Defect.first_of_clause hseq hitems hbefore hin hleast
    have htake : v.itemList.take before.length = before := by
      rw [Value.itemList_of_sequence hseq, hitems, List.take_left']
      rfl
    rw [loadNext_of_error hcheck]
    refine ⟨.clause before.length d, found, hfirst, rfl,
      fun h => Defect.fault_reported h found, early, ?_, hq.calls⟩
    rw [show (Defect.clause before.length d).index = before.length from rfl,
      htake]
    exact hbefore

end Recorded

-- ============================================================= creation

namespace Session

open Recorded

variable {config : Config} {v : Value}

/-- No engine is asked to search while clauses with a defect are loaded
into it, and the loading fails. -/
theorem prepare_stopped (hv : ∀ clauses, ¬ v.IsCleanSet clauses)
    {p : Placed (Recorded E)} (hfresh : p.object.record = []) :
    Ends (fun _ _ => False)
      (fun _ q => ∀ c ∈ q.object.calls, c.isSolve = false)
      (prepare config v p) := by
  have hload : Ends (fun _ _ => False) (fun _ _ => True)
      (load config v p) := by
    rw [load_eq, ends_bind]
    refine (ends_true _).imp_answer ?_
    intro _ q _
    rw [ends_bind]
    exact (loadClauses_stopped hv q).imp_answer fun _ _ hf => hf.elim
  have hfails : Ends (fun _ _ => False) (fun _ _ => True)
      (prepare config v p) := by
    unfold prepare
    rw [ends_bind, Op.ends_orRelease]
    refine hload.imp (fun _ _ hf => hf.elim) ?_
    exact fun _ q _ => (ends_true _).imp (fun _ _ _ => trivial)
      fun _ _ _ => trivial
  refine (hfails.and (prepare_loads hfresh)).imp (fun _ _ h => h.1) ?_
  rintro f q ⟨-, hgiven | hleft⟩ c hc
  · obtain ⟨early, hcalls, -, clauses, hearly⟩ := hgiven.calls
    rw [hcalls, List.mem_append, List.mem_singleton] at hc
    rcases hc with hc | rfl
    · exact (idle_of_mem_loadingCalls (hearly.subset hc)).1
    · rfl
  · obtain ⟨clauses, -, hcalls⟩ := hleft.calls
    rw [hcalls, List.mem_append, List.mem_singleton] at hc
    rcases hc with hc | rfl
    · exact (idle_of_mem_loadingCalls hc).1
    · rfl

/-- What fails with a fresh engine fails the making of the session, and
with it whatever needs one. -/
theorem create_stopped {make : HostOp E} {host host₁ : Host} {e : E}
    (hmake : make host = .ok e host₁) {f : Fault}
    {q : Placed (Recorded E)}
    (hrun : prepare config v ⟨{ engine := e }, host₁⟩ = .error f q) :
    create (Recorded.making make) config v host = .error f q.host := by
  have hmade : Recorded.making make host = .ok { engine := e } host₁ := by
    unfold Recorded.making
    rw [bind_of_ok hmake]
    rfl
  unfold create
  rw [bind_of_ok hmade]
  refine bind_of_error ?_
  simp only [Op.on, hrun]

end Session

open Recorded in
/-- Loading hands over all clauses if they have no defect, and otherwise
those in front of the first one; then it fails with the fault for this
defect, no session is made, and no search is asked for. -/
theorem loads_up_to_first_defect (v : Value) :
    (∀ good : Placed E → Prop, Obliging good →
      ∀ clauses, v.IsCleanSet clauses →
        ∀ p : Placed (Recorded E), good (inner p) →
          Ends (fun count q => count = clauses.length
              ∧ Given good p (clauses.flatMap clauseCalls) q) never
            (loadClauses v p))
      ∧ ((∀ clauses, ¬ v.IsCleanSet clauses) →
        (∀ good : Placed E → Prop, Obliging good →
          ∀ p : Placed (Recorded E), good (inner p) →
            Ends (fun _ _ => False)
              (fun f q => ∃ d found, Stopped v p d found f q)
              (loadClauses v p))
        ∧ ∀ (make : HostOp E) (vars verbose propLimit : Value)
            (config : Config) (host host₁ : Host) (e : E),
          Config.build vars verbose propLimit = .ok config →
          make host = .ok e host₁ →
            Ends (fun _ _ => False)
              (fun f (q : Placed (Recorded E)) =>
                (∀ c ∈ q.object.calls, c.isSolve = false)
                ∧ Session.create (making make) config v host
                  = .error f q.host
                ∧ solve (making make) v vars verbose propLimit host
                  = .error f q.host
                ∧ enumerate (making make) v vars verbose propLimit host
                  = .error f q.host)
              (Session.prepare config v
                ⟨({ engine := e } : Recorded E), host₁⟩)) := by
  refine ⟨?_, fun hv => ⟨?_, ?_⟩⟩
  · intro good h clauses hclean p hp
    obtain ⟨items, hseq, hclean⟩ := hclean
    unfold loadClauses
    simp only [hseq, Items.foldlM_eq]
    refine (loadNexts_given h hclean 0 p hp).imp_ok ?_
    intro count q hq
    rwa [Nat.zero_add] at hq
  · exact fun good h p hp => loadClauses_stops h hp hv
  · intro make vars verbose propLimit config host host₁ e hbuild hmake
    -- what fails in the loading fails in all that begins with it
    have hstop : Ends (fun _ _ => False)
        (fun _ q => ∀ c ∈ q.object.calls, c.isSolve = false)
        (Session.prepare config v
          ⟨({ engine := e } : Recorded E), host₁⟩) :=
      Session.prepare_stopped hv rfl
    cases hrun : Session.prepare config v
        ⟨({ engine := e } : Recorded E), host₁⟩ with
    | ok u q =>
        rw [hrun] at hstop
        exact hstop.elim
    | error f q =>
        rw [hrun] at hstop
        have hcreate := Session.create_stopped hmake hrun
        refine ⟨hstop, hcreate, ?_, ?_⟩
        · unfold solve
          rw [bind_of_ok (checkedConfig_ok hbuild)]
          exact bind_of_error hcreate
        · unfold enumerate
          rw [bind_of_ok (checkedConfig_ok hbuild)]
          exact bind_of_error hcreate

/-- A clause with a truth value where a number is due and with a zero
behind it, and another bad clause: the truth value is objected to. -/
theorem loads_up_to_first_defect_truth_value :
    let v : Value := .list [.seq .tuple [.int 1, .int (-2)],
      .list [.int 3, .bool true, .int 0], .list [.int 0]]
    let fresh : Placed (Recorded Blank) :=
      ⟨{ engine := ⟨⟩ }, Host.new (.open false) none⟩
    (∀ clauses, ¬ v.IsCleanSet clauses)
      ∧ Obliging (fun _ : Placed Blank => True)
      ∧ Ends (fun _ _ => False)
        (fun f q => (∃ d found, Recorded.Stopped v fresh d found f q)
          ∧ f.message?
            = some "clause 1, literal 1: integer expected, got bool"
          ∧ q.object.calls.map Call.method
            = ["add_literal", "add_literal", "terminate_clause"])
        (loadClauses v fresh) := by
  intro v fresh
  have hdefect : (Defect.clause 1 (.kind 1)).In v (.bool true) := by
    refine ⟨.list [.int 3, .bool true, .int 0], rfl, rfl, ?_⟩
    intro n h
    cases h
  have hdirty : ∀ clauses, ¬ v.IsCleanSet clauses :=
    fun clauses hclean => Defect.not_in_clean hclean hdefect
  have hobliging : Obliging (fun _ : Placed Blank => True) :=
    ⟨fun _ _ _ => trivial, fun _ _ => trivial⟩
  refine ⟨hdirty, hobliging, ?_⟩
  have hstop := ((loads_up_to_first_defect v).2 hdirty).1 _ hobliging fresh
    trivial
  have hrun : Ends (fun _ _ => False)
      (fun f q => f.message?
          = some "clause 1, literal 1: integer expected, got bool"
        ∧ q.object.calls.map Call.method
          = ["add_literal", "add_literal", "terminate_clause"])
      (loadClauses v fresh) := by
    decide +kernel
  exact (hstop.and hrun).imp (fun _ _ h => h.1) fun _ _ h => h

end SatSession
