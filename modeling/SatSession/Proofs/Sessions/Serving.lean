/-
A session at work, whatever is asked of it.

`Serving own shown d limit s p` says that at `p` the session is `s` but
for its engine, and that the engine is abreast of a draft. Every call of a
session but its invocation and its end keeps it, and so does every part of
a call that fails halfway. Blocking comes with any buffer that is none of
the tables (`block_serving`): the literals that were added before a
failure stay in the open clause, where no search sees them.
-/
import SatSession.Proofs.Sessions.Blocking
import SatSession.Proofs.Tables.Abreast

namespace SatSession.Session

open TableEngine

variable {own : List BlockId} {shown : Option Nat} {d : Draft} {limit : Int}
  {s : Session TableEngine} {host : Host} {buffer : BlockId}
  {p : Placed (Session TableEngine)}

/-- A session that is what it was but for its engine. -/
structure Serving (own : List BlockId) (shown : Option Nat) (d : Draft)
    (limit : Int) (s : Session TableEngine)
    (p : Placed (Session TableEngine)) : Prop where
  object : p.object = { s with engine := p.object.engine }
  abreast : Abreast own shown d limit ⟨p.object.engine, p.host⟩

/-- A session to which literals may have been added. -/
def Stays (own : List BlockId) (shown : Option Nat) (d : Draft)
    (limit : Int) (s : Session TableEngine)
    (p : Placed (Session TableEngine)) : Prop :=
  ∃ opened, Serving own shown { d with opened := opened } limit s p

/-- A session to which nothing has been added yet. -/
theorem Serving.stays (h : Serving own shown d limit s p) :
    Stays own shown d limit s p :=
  ⟨d.opened, h⟩

/-- A call of the engine is one of the session. -/
theorem Serving.tell (h : Serving own shown d limit s p) (call : NumberCall)
    (hcall : ∀ budget, call ≠ .solve budget) :
    Ends
      (fun _ p => Serving own (if call.closes then none else shown)
        (d.told call) (call.limit limit) s p)
      (fun _ p => Serving own shown d (call.limit limit) s p)
      (onEngine call.perform p) := by
  rw [onEngine, Op.ends_within]
  refine (h.abreast.perform hcall).imp ?_ ?_
  · intro _ q hq
    exact ⟨by rw [h.object], hq⟩
  · intro f q hq
    exact ⟨by rw [h.object], hq⟩

/-- An invocation is answered, and what it found is shown. -/
theorem invoke_serving (h : Abreast own shown d limit ⟨s.engine, host⟩)
    (hintact : s.destroyed = false) (budget : Int) :
    ∃ outcome e host',
      invoke (.int budget) ⟨s, host⟩ = .ok outcome ⟨s.asked outcome e, host'⟩
      ∧ Abreast own (shownFor outcome e.varCount) d limit ⟨e, host'⟩ := by
  obtain ⟨code, ⟨e, host'⟩, hsolve, outcome, rfl, -, hafter⟩ :=
    (h.solve budget).exists_ok
  refine ⟨outcome, e, s.told outcome host', ?_,
    hafter.elsewhere ⟨rfl, rfl, rfl, rfl, rfl⟩ fun _ _ => rfl⟩
  have hengine : onEngine (Engine.solve (.int budget)) ⟨s, host⟩
      = .ok (.int (codeOf outcome)) ⟨{ s with engine := e }, host'⟩ :=
    onEngine_ok hsolve
  unfold invoke
  rw [Op.read_bind_apply]
  simp only [hintact, Bool.false_eq_true, if_false]
  rw [bind_of_ok hengine, Op.update_bind_apply, ofCode_codeOf]
  rfl

-- ========================================================== the buffer

/-- A buffer is found apart from the tables, or memory is denied. -/
theorem scratchFor_serving (h : Serving own shown d limit s p)
    {scratch : Option BlockId} (hscratch : ∀ b ∈ scratch, b ∉ own)
    (n : Nat) :
    Ends (fun buffer q => buffer ∉ own ∧ q.object = p.object
          ∧ Serving own shown d limit s q)
      (fun _ q => Serving own shown d limit s q)
      (scratchFor scratch (.int (n + 1)) p) := by
  obtain ⟨s', host⟩ := p
  have hp := h.abreast.plain
  have hs := h.abreast.keeps.seated
  have hasked : Serving own shown d limit s ⟨s', host.asked⟩ :=
    ⟨h.object, h.abreast.elsewhere ⟨rfl, rfl, rfl, rfl, rfl⟩
      fun _ _ => rfl⟩
  rw [scratchFor_eq hp]
  cases scratch with
  | none =>
      dsimp only
      split
      next => exact hasked
      next =>
        have hnew : ∀ b ∈ own, b ≠ host.heap.blocks.size := by
          intro b hb
          rw [← h.abreast.tables] at hb
          exact Nat.ne_of_lt (hs.tables_handed b hb)
        refine ⟨fun hmem => hnew _ hmem rfl, rfl, h.object,
          h.abreast.elsewhere ⟨rfl, rfl, rfl, rfl, rfl⟩ fun b hb => ?_⟩
        show (host.heap.granted (n + 1)).contents b = _
        rw [Heap.contents_granted, if_neg (hnew b hb)]
  | some b =>
      have hapart : b ∉ own := hscratch b rfl
      dsimp only
      split
      next => exact ⟨hapart, rfl, h⟩
      next =>
        split
        next => exact hasked
        next =>
          refine ⟨hapart, rfl, h.object,
            h.abreast.elsewhere ⟨rfl, rfl, rfl, rfl, rfl⟩ fun c hc => ?_⟩
          show (host.heap.resized b (n + 1)).contents c = _
          have hne : c ≠ b := fun hcb => hapart (hcb ▸ hc)
          rw [Heap.contents_resized, if_neg fun hcb => hne hcb.1]

-- ============================================================ the notes

/-- The polarity of a variable is a number, or there is no assignment; it
is only read. -/
theorem polarity_serving (h : Serving own shown d limit s p) {i : Nat}
    (h1 : 1 ≤ i) (hi : i ≤ p.object.engine.varCount) :
    Ends (fun v q => q = p ∧ ∃ n : Int, v = .int n) (fun _ q => q = p)
      (polarity i p) := by
  obtain ⟨s', host⟩ := p
  have hflag := h.abreast.display.flag
  cases hshown : shown with
  | none =>
      rw [hshown] at hflag
      rw [polarity_unshown hflag]
      exact rfl
  | some n =>
      rw [hshown] at hflag
      unfold polarity
      obtain ⟨a, ha⟩ := h.abreast.display.exhibits n hshown
      have hread := onEngine_ok (valueOf_eq hflag ha.shows h1 hi)
      rw [show (onEngine (Engine.valueOf (.int (i : Int))) >>= _) _ = _
        from bind_of_ok hread]
      cases a i
      · exact ⟨rfl, -1, rfl⟩
      · exact ⟨rfl, 1, rfl⟩

/-- A byte is written as told, or nothing is. -/
theorem poke_ends (h : Heap) (b : BlockId) (i : Nat) (byte : UInt8) :
    Ends (fun _ h' => h' = h.poked b i byte) (fun _ h' => h' = h)
      (Heap.poke b i byte h) := by
  unfold Heap.poke
  split
  · exact rfl
  · exact rfl

/-- Noting a polarity concerns a buffer apart from the tables. -/
theorem notePolarity_serving (h : Serving own shown d limit s p)
    (hapart : buffer ∉ own) {i : Nat} (h1 : 1 ≤ i)
    (hi : i ≤ p.object.engine.varCount) :
    Ends (fun _ q => q.object = p.object ∧ Serving own shown d limit s q)
      (fun _ q => Serving own shown d limit s q)
      (notePolarity buffer i p) := by
  unfold notePolarity
  rw [ends_bind]
  refine (polarity_serving h h1 hi).imp ?_ ?_
  · intro v q hq
    obtain ⟨rfl, n, rfl⟩ := hq
    rw [Value.lt_int, settle_ok, pure_bind, Op.ends_onHost,
      Host.ends_onHeap]
    refine (poke_ends ..).imp ?_ ?_
    · rintro _ h' rfl
      refine ⟨rfl, h.object,
        h.abreast.elsewhere ⟨rfl, rfl, rfl, rfl, rfl⟩ fun c hc => ?_⟩
      show (q.host.heap.poked ..).contents c = _
      have hne : c ≠ buffer := fun hcb => hapart (hcb ▸ hc)
      rw [Heap.contents_poked, if_neg fun hcb => hne hcb.1]
    · rintro f h' rfl
      exact h
  · rintro f q rfl
    exact h

/-- So does noting all of them. -/
theorem notePolarities_serving (h : Serving own shown d limit s p)
    (hapart : buffer ∉ own) :
    Ends (fun _ q => Serving own shown d limit s q)
      (fun _ q => Serving own shown d limit s q)
      (Op.each (notePolarity buffer) p.object.engine.varCount 1 p) := by
  refine (ends_each
    (fun _ q => q.object = p.object ∧ Serving own shown d limit s q)
    p.object.engine.varCount 1 p ⟨rfl, h⟩ ?_).imp
    (fun _ _ hq => hq.2) fun _ _ hq => hq
  intro i q h1 hlt hq
  obtain ⟨hsame, hq⟩ := hq
  rw [← hsame]
  exact notePolarity_serving hq hapart h1 (by rw [hsame]; omega)

-- =========================================================== the clause

/-- A literal is added or refused, and the session serves on with what is
open then. -/
theorem addOpposite_serving (h : Stays own shown d limit s p) {i : Nat}
    (h1 : 1 ≤ i) :
    Ends (fun _ p => Stays own shown d limit s p)
      (fun _ p => Stays own shown d limit s p) (addOpposite buffer i p) := by
  obtain ⟨opened, h⟩ := h
  unfold addOpposite
  rw [get_bind_apply]
  cases p.host.heap.byte? buffer i with
  | none => exact h.stays
  | some byte =>
      show Ends _ _ (onEngine (NumberCall.perform
        (.addLiteral (if byte ≠ 0 then -(i : Int) else i))) p)
      generalize hl : (if byte ≠ 0 then -(i : Int) else i) = l
      have hnonzero : l ≠ 0 := by
        rw [← hl]
        split <;> omega
      have hcloses : NumberCall.closes (.addLiteral l) = false :=
        beq_eq_false_iff_ne.mpr hnonzero
      have htell := h.tell (.addLiteral l) (by simp)
      rw [hcloses] at htell
      refine htell.imp ?_ ?_
      · intro _ q hq
        rw [Draft.told, if_neg hnonzero] at hq
        exact hq.stays
      · intro f q hq
        exact hq.stays

/-- So it does with several, up to the first refusal. -/
theorem addOpposites_serving (h : Stays own shown d limit s p)
    (count : Nat) :
    Ends (fun _ p => Stays own shown d limit s p)
      (fun _ p => Stays own shown d limit s p)
      (Op.each (addOpposite buffer) count 1 p) :=
  ends_each (fun _ p => Stays own shown d limit s p) count 1 p h
    fun _ _ h1 _ hq => addOpposite_serving hq h1

-- ============================================================= blocking

/-- Blocking closes one more clause, or leaves some literals behind. -/
theorem block_serving (h : Serving own shown d limit s p)
    {scratch : Option BlockId} (hscratch : ∀ b ∈ scratch, b ∉ own) :
    Ends (fun _ q => p.object.last = some .satisfiable
          ∧ ∃ clause, Serving own none
            { closed := d.closed ++ [clause] } limit s q)
      (fun _ q => Stays own shown d limit s q)
      (block scratch p) := by
  obtain ⟨s', host⟩ := p
  by_cases hready : s'.destroyed = false ∧ s'.last = some .satisfiable
  · obtain ⟨hintact, hlast⟩ := hready
    rw [block_of_ready hintact hlast, ends_bind]
    refine (scratchFor_serving h hscratch _).imp ?_ ?_
    · intro buffer q hq
      obtain ⟨hapart, hobject, hq⟩ := hq
      obtain rfl : q.object = s' := hobject
      rw [ends_bind]
      refine (notePolarities_serving hq hapart).imp ?_ ?_
      · intro _ q hq
        rw [ends_bind]
        refine (addOpposites_serving hq.stays _).imp ?_ fun _ _ hq => hq
        intro _ q hq
        obtain ⟨opened, hq⟩ := hq
        rw [ends_bind]
        refine (hq.tell .terminateClause (by simp)).imp ?_ ?_
        · intro _ q hq
          exact ⟨hlast, opened, hq⟩
        · intro f q hq
          exact hq.stays
      · intro f q hq
        exact hq.stays
    · intro f q hq
      exact hq.stays
  · rw [not_and_or, Bool.not_eq_false] at hready
    obtain ⟨f, hrefused, -⟩ := @block_refused s' host hready scratch
    rw [hrefused]
    exact h.stays

-- ============================================================== opening

/-- An engine that keeps some draft and shows nothing. -/
def Filled (own : List BlockId) (p : Placed TableEngine) : Prop :=
  ∃ d limit, Abreast own none d limit p

/-- No call but a search puts anything on show. -/
theorem Filled.perform {p : Placed TableEngine} (h : Filled own p)
    (call : NumberCall) (hcall : ∀ budget, call ≠ .solve budget) :
    Ends (fun _ p => Filled own p) (fun _ _ => True) (call.perform p) := by
  obtain ⟨d, limit, h⟩ := h
  refine (h.perform hcall).imp ?_ fun _ _ _ => trivial
  intro _ q hq
  rw [ite_self] at hq
  exact ⟨_, _, hq⟩

variable {q : Placed TableEngine}

/-- A call that depends on a setting. -/
theorem Filled.perform_if (h : Filled own q) (c : Prop) [Decidable c]
    (call : NumberCall) (hcall : ∀ budget, call ≠ .solve budget) :
    Ends (fun _ q => Filled own q) (fun _ _ => True)
      ((if c then call.perform else pure ⟨⟩ : Op TableEngine Unit) q) := by
  split
  · exact h.perform call hcall
  · exact h

theorem loadClause_filled (h : Filled own q) (literals : List Int) :
    Ends (fun _ q => Filled own q) (fun _ _ => True)
      ((loadClause literals : Op TableEngine Unit) q) := by
  unfold loadClause
  rw [ends_bind]
  refine (ends_forM (fun _ q => Filled own q) literals [] q h
    fun _ l q _ hq => hq.perform (.addLiteral l) (by simp)).imp ?_
    fun _ _ _ => trivial
  intro _ q hq
  exact hq.perform .terminateClause (by simp)

theorem loadNext_filled (h : Filled own q) (count : Nat) (v : Value) :
    Ends (fun _ q => Filled own q) (fun _ _ => True)
      ((loadNext count v : Op TableEngine Nat) q) := by
  unfold loadNext
  cases Clause.validate v (.int count) with
  | error f => exact trivial
  | ok literals =>
      dsimp only
      rw [ends_bind]
      exact loadClause_filled h literals

/-- Nothing is on show while clauses are loaded. -/
theorem loadClauses_filled (h : Filled own q) (v : Value) :
    Ends (fun _ q => Filled own q) (fun _ _ => True)
      ((loadClauses v : Op TableEngine Nat) q) := by
  unfold loadClauses
  cases v.sequence? with
  | none => exact trivial
  | some items =>
      simp only [Items.foldlM_eq]
      exact ends_foldlM (fun _ _ q => Filled own q) items.toList [] 0 q h
        fun _ v count q _ hq => loadNext_filled hq count v

/-- Loading fills the tables and makes no search. -/
theorem load_filled (h : Filled own q) (config : Config) (v : Value) :
    Ends (fun _ q => Filled own q) (fun _ _ => True)
      ((load config v : Op TableEngine Nat) q) := by
  have hverbosity : Filled own
      ⟨{ q.object with verbosity := .int config.verbose }, q.host⟩ := by
    obtain ⟨d, limit, h⟩ := h
    obtain ⟨verbosity, hset⟩ := h.settings
    exact ⟨d, limit, h.set (v := .int config.verbose)
      (l := q.object.propagationLimit) ⟨rfl, hset.limit⟩⟩
  unfold load
  rw [ends_bind]
  change Ends _ _ ((if config.vars ≠ -1 then _ else _ : Op TableEngine Nat)
    ⟨{ q.object with verbosity := .int config.verbose }, q.host⟩)
  rw [ends_when]
  refine (hverbosity.perform_if _ (.reserveVariables config.vars)
    (by simp)).imp ?_ fun _ _ _ => trivial
  intro _ q hq
  rw [ends_when]
  refine (hq.perform_if _ (.setPropagationLimit config.propLimit)
    (by simp)).imp ?_ fun _ _ _ => trivial
  intro _ q hq
  rw [ends_bind]
  refine (loadClauses_filled hq v).imp ?_ fun _ _ _ => trivial
  intro count q hq
  obtain ⟨d, limit, hq⟩ := hq
  refine (printProblem_ends hq.keeps config.verbose count).imp_ok ?_
  intro _ r hr
  obtain ⟨-, console, rfl⟩ := hr
  exact ⟨d, limit, hq.elsewhere ⟨rfl, rfl, rfl, rfl, rfl⟩ fun _ _ => rfl⟩

/-- A session that was opened shows nothing yet. -/
theorem created_serving {host' : Host} (hp : host.Plain)
    (ht : host.TakesBack) {search : Search} (hsound : search.Sound)
    {config : Config} {v : Value}
    (hmade : create (TableEngine.create search) config v host
      = .ok s host') :
    s.destroyed = false ∧ s.last = none
      ∧ ∃ d limit, Abreast s.engine.tables none d limit
        ⟨s.engine, host'⟩ := by
  have hends : Ends
      (fun s host' => s.destroyed = false ∧ s.last = none
        ∧ Filled s.engine.tables ⟨s.engine, host'⟩)
      (fun _ _ => True)
      (create (TableEngine.create search) config v host) := by
    unfold create
    rw [ends_bind]
    cases hengine : TableEngine.create search host with
    | error f host₁ => exact trivial
    | ok e host₁ =>
        have hfilled : Filled e.tables ⟨e, host₁⟩ :=
          ⟨{}, 0, made_abreast hp ht hsound hengine⟩
        rw [ends_ok, ends_bind, Op.ends_on]
        unfold prepare
        rw [ends_bind, Op.ends_orRelease]
        refine (load_filled hfilled config v).imp ?_ ?_
        · intro count q hq
          obtain ⟨d, limit, hq⟩ := hq
          rw [noteCount_eq]
          refine ⟨rfl, rfl, d, limit, ?_⟩
          have htables : q.object.tables = e.tables := hq.tables
          rw [← htables] at hq
          exact hq.elsewhere ⟨rfl, rfl, rfl, rfl, rfl⟩ fun _ _ => rfl
        · intro f q _
          exact ends_true _
  rw [hmade] at hends
  exact hends

end SatSession.Session
