/-
What is decoded can be blocked, as far as words reach.

Variables come to an engine by literals, which have to fit into a word, and
by reservation, which asks for room alone. Blocking makes a literal of each
variable, so it is there that a variable too many is found out. On a host
that grants everything nothing else is in the way (`block_granted`): all
variables of the clause exist, and a literal about a variable that exists
is taken just if it fits (`Keeps.takesKnown`). The loop that adds the
opposite entries goes up variable by variable; it carries that the number
in front of it is at most one above the bound, so that if it is refused it
is refused at the first number that does not fit.

There is one more way for a list to be decoded. An engine that was reset
behind the back of its session has no variables left, and the guard that
would notice is asked once for each variable: the empty list is decoded,
and blocking it fails at its last step, where the clause is closed
(`block_resting`).

That a host goes on granting everything whatever is called is read off the
account of runs that are held to rules, for rules that refuse nothing.
-/
import SatSession.Proofs.Conversation.FirstStep
import SatSession.Proofs.Refusals.Runs
import SatSession.Proofs.Sessions.Excluding
import SatSession.Proofs.Sessions.Solving
import SatSession.Proofs.Sessions.Using

namespace SatSession

open TableEngine

variable {e : TableEngine} {host : Host} {d : Draft}

-- ====================================================== generous hosts

section

variable {σ : Type} {r : Rules}

/-- Every call of an engine is in step with itself under rules. -/
theorem NumberCall.inStep (call : NumberCall) (p : Placed TableEngine) :
    InStep True r call.perform p := by
  cases call with
  | addLiteral n => exact addLiteral_inStep n p
  | terminateClause => exact terminateClause_inStep p
  | reserveVariables n => exact reserveVariables_inStep n p
  | setPropagationLimit n =>
      show InStep True r (Op.update fun e : TableEngine =>
        { e with propagationLimit := .int n }) p
      exact .update
  | solve budget =>
      exact (TableEngine.solve_inStep (.int budget) p).bind
        fun _ _ _ => .pure ()

/-- So is every call of a session, and the reset behind its back. -/
theorem UseCall.inStep (call : UseCall) (p : Placed (Session TableEngine)) :
    InStep True r call.perform p := by
  cases call with
  | reset => exact Session.onEngine_inStep (reset_inStep _)
  | session call =>
      cases call with
      | invoke budget =>
          exact (Session.invoke_inStep _ p).bind fun _ _ _ => .pure _
      | decode => exact (Session.decode_inStep p).bind fun _ _ _ => .pure _
      | block scratch =>
          exact (Session.block_inStep scratch p).bind fun _ _ _ => .pure _
      | destroy => exact Session.destroy_inStep p
      | tell call => exact Session.onEngine_inStep (call.inStep _)

/-- On a host that grants everything a program does not run out of memory,
and the host goes on granting everything. -/
theorem InStep.generous {α : Type} {op : Op σ α} {p : Placed σ}
    (h : InStep True .open op p) (hg : p.host.Generous) :
    Ends (fun _ q => q.host.Generous)
      (fun f q => q.host.Generous ∧ ∀ use, f ≠ .outOfMemory use) (op p) :=
  (h hg).1.imp (fun _ _ hq => hq.lavish) fun _ _ hq => ⟨hq.1.lavish, hq.2⟩

/-- A generous host is one after a session was made on it. -/
theorem generous_created (hg : host.Generous) {search : Search}
    {config : Config} {v : Value} {s : Session TableEngine} {host₁ : Host}
    (hmade : Session.create (TableEngine.create search) config v host
      = .ok s host₁) : host₁.Generous := by
  have hsober := (Session.create_inStep (r := .open) search config v host
    hg).1
  rw [hmade] at hsober
  exact hsober.lavish

/-- It stays one whatever is called. -/
theorem generous_afterTurns (calls : List UseCall)
    {p : Placed (Session TableEngine)} (hg : p.host.Generous) :
    (afterTurns UseCall.perform calls p).host.Generous :=
  Session.afterTurns_keeps (fun p => p.host.Generous) (fun _ => True)
    (fun call p _ hp => ((call.inStep p).generous hp).imp
      (fun _ _ hq => hq) fun _ _ hq => hq.1)
    calls (fun _ _ => trivial) p hg

end

-- =========================================================== one literal

namespace TableEngine

/-- Of the literals about its variables an engine takes those that fit into
a word, which are then read back from the open clause, and refuses the
others without a trace. -/
def TakesKnown (p : Placed TableEngine) : Prop :=
  ∀ l : Int, l ≠ 0 → l.natAbs ≤ p.object.varCount →
    Ends
      (fun _ q => (l.natAbs : Int) ≤ Word.literalMax
        ∧ ∃ words, (readout p).pending = .ok words
          ∧ (readout q).pending = .ok (words ++ [l]))
      (fun f q => Word.literalMax < l.natAbs ∧ f = .literalRange (.int l)
        ∧ q = p)
      (addLiteral (.int l) p)

/-- Where everything is granted only the range of a literal matters. -/
theorem addLiteral_granted (hg : host.Generous) (hs : Seated e host.heap)
    {l : Int} (hl : l ≠ 0) :
    Ends
      (fun _ q => (l.natAbs : Int) ≤ Word.literalMax ∧ Added l e host q)
      (fun f q => Word.literalMax < l.natAbs ∧ f = .literalRange (.int l)
        ∧ q = ⟨e, host⟩)
      (addLiteral (.int l) ⟨e, host⟩) := by
  refine (addLiteral_ends hg.plain hs hl).imp (fun _ q hq => ⟨hq.fits, hq⟩)
    ?_
  intro f q hq
  rcases hq with hrange | hdenied | ⟨r, hensured, hdenied⟩
  · exact hrange
  · exact absurd hg hdenied.not_generous
  · exact absurd (hg.of_sameRules hensured.within.rules)
      hdenied.not_generous

/-- On a generous host an engine takes any literal about a variable it
knows. -/
theorem Keeps.takesKnown {p : Placed TableEngine}
    (hk : Keeps d p.object p.host.heap) (hg : p.host.Generous) :
    TakesKnown p := by
  intro l hl _
  refine (addLiteral_granted hg hk.seated hl).imp ?_ fun _ _ hq => hq
  intro _ q hq
  obtain ⟨hfits, hadded⟩ := hq
  exact ⟨hfits, d.opened, hk.reads.2, (hk.added hl hadded).reads.2⟩

end TableEngine

namespace Session

variable {s : Session TableEngine} {a : Assignment} {n : Nat}
  {buffer : BlockId} {own : List BlockId} {scratch : Option BlockId}
  {closed : List (List Int)} {p q : Placed (Session TableEngine)}
  {solution : Solution}

-- ============================================================== the loop

/-- A session with `n` variables to which opposite entries can be added, as
a buffer has them. -/
structure Opposing (n : Nat) (buffer : BlockId) (closed : List (List Int))
    (p : Placed (Session TableEngine)) : Prop where
  generous : p.host.Generous
  keeps : ∃ opened, Keeps { closed := closed, opened := opened }
    p.object.engine p.host.heap
  vars : p.object.engine.varCount = n
  apart : buffer ∉ p.object.engine.tables
  long : n < p.host.heap.size buffer

/-- There are variables with numbers that do not fit into a word, and the
first of them has been found. -/
def Overruns (n : Nat) (f : Fault) : Prop :=
  Word.literalMax < n
    ∧ ∃ l : Int, (l.natAbs : Int) = Word.literalMax + 1
      ∧ f = .literalRange (.int l)

/-- The opposite of one more entry is added just if it fits. -/
theorem Opposing.addOpposite (h : Opposing n buffer closed p) {i : Nat}
    (h1 : 1 ≤ i) (hi : i ≤ n) :
    Ends
      (fun _ q => (i : Int) ≤ Word.literalMax ∧ Opposing n buffer closed q)
      (fun f _ => Word.literalMax < i
        ∧ ∃ l : Int, l.natAbs = i ∧ f = .literalRange (.int l))
      (addOpposite buffer i p) := by
  obtain ⟨s, host⟩ := p
  obtain ⟨opened, hk⟩ := h.keeps
  have hlong : i < (host.heap.contents buffer).size :=
    Nat.lt_of_le_of_lt hi h.long
  have hvars : s.engine.varCount = n := h.vars
  unfold Session.addOpposite
  rw [get_bind_apply]
  simp only [Heap.byte?, Array.getElem?_eq_getElem hlong]
  generalize hl : (if (host.heap.contents buffer)[i] ≠ 0 then -(i : Int)
    else i) = l
  have hmagnitude : l.natAbs = i := by
    rw [← hl]
    split <;> simp
  have hnonzero : l ≠ 0 := by omega
  rw [onEngine, Op.ends_within]
  refine (addLiteral_granted h.generous hk.seated hnonzero).imp ?_ ?_
  · intro _ q hq
    obtain ⟨hfits, hadded⟩ := hq
    have hw := hadded.onward.within
    rw [hmagnitude] at hfits
    refine ⟨hfits, h.generous.of_sameRules hw.rules,
      ⟨_, hk.added hnonzero hadded⟩, ?_, ?_, ?_⟩
    · show q.object.varCount = n
      rw [hadded.varCount, hmagnitude, hvars]
      exact Nat.max_eq_left hi
    · show buffer ∉ q.object.tables
      rw [hadded.onward.tables]
      exact h.apart
    · show n < q.host.heap.size buffer
      rw [hw.size_eq h.apart]
      exact h.long
  · intro f q hq
    obtain ⟨hrange, hfault, -⟩ := hq
    rw [hmagnitude] at hrange
    exact ⟨hrange, l, hmagnitude, hfault⟩

/-- All opposite entries are added just if the last one fits. -/
theorem Opposing.addOpposites (h : Opposing n buffer closed p) :
    Ends
      (fun _ q => (n : Int) ≤ Word.literalMax ∧ Opposing n buffer closed q)
      (fun f _ => Overruns n f)
      (Op.each (Session.addOpposite buffer) n 1 p) := by
  refine (ends_each
    (fun i q => (i : Int) ≤ Word.literalMax + 1
      ∧ Opposing n buffer closed q)
    n 1 p ⟨by decide, h⟩ ?_).imp ?_ fun _ _ hf => hf
  · rintro i q h1 hlt ⟨hbelow, hq⟩
    refine (hq.addOpposite h1 (by omega)).imp ?_ ?_
    · rintro _ r ⟨hfits, hr⟩
      exact ⟨by omega, hr⟩
    · rintro f _ ⟨hrange, l, hmagnitude, hfault⟩
      exact ⟨by omega, l, by omega, hfault⟩
  · rintro _ q ⟨hbelow, hq⟩
    exact ⟨by omega, hq⟩

-- ============================================================== blocking

/-- What can be read can be noted, and nothing but the buffer is
touched. -/
theorem notePolarities_granted
    (hreads : s.engine.varCount = 0 ∨ ∃ a, Showing a s host)
    (hapart : buffer ∉ s.engine.tables)
    (hlong : s.engine.varCount < host.heap.size buffer) :
    Ends (fun _ q => q.object = s ∧ Host.Within [buffer] host q.host
          ∧ q.host.heap.size buffer = host.heap.size buffer) never
      (Op.each (notePolarity buffer) s.engine.varCount 1 ⟨s, host⟩) := by
  rcases hreads with hvars | ⟨a, hshowing⟩
  · rw [hvars]
    exact ⟨rfl, .refl .., rfl⟩
  · refine (notePolarities_ends hshowing hapart hlong).imp_ok ?_
    intro _ q hq
    exact ⟨hq.object, hq.within, hq.shown.size⟩

/-- Where everything is granted, what can be read is blocked just if the
last variable has a number that fits into a word. -/
theorem block_granted (hg : host.Generous)
    (hk : Keeps d s.engine host.heap) (hintact : s.destroyed = false)
    (hlast : s.last = some .satisfiable)
    (hreads : s.engine.varCount = 0 ∨ ∃ a, Showing a s host)
    (hscratch : ∀ b ∈ scratch, b < host.heap.blocks.size
      ∧ b ∉ s.engine.tables) :
    Ends
      (fun _ q => (s.engine.varCount : Int) ≤ Word.literalMax
        ∧ ∃ clause, closedClauses q
          = .ok (d.closed ++ [clause]) ⟨q.object.engine, q.host⟩)
      (fun f _ => Overruns s.engine.varCount f)
      (block scratch ⟨s, host⟩) := by
  rw [block_of_ready hintact hlast, ends_bind]
  refine (scratchFor_furnishes hg.plain fun b hb => (hscratch b hb).1).imp
    ?_ fun _ _ hf => absurd hg hf.2.not_generous
  intro buffer p hfurnished
  obtain ⟨s₁, host₁⟩ := p
  obtain rfl : s₁ = s := hfurnished.object
  have hapart := hfurnished.apart hk.seated fun b hb => (hscratch b hb).2
  have hsame := hfurnished.same hapart
  have hreads₁ : s₁.engine.varCount = 0 ∨ ∃ a, Showing a s₁ host₁ :=
    hreads.imp_right fun ⟨a, ha⟩ => ⟨a, ha.of_contents hsame⟩
  rw [ends_bind]
  refine (notePolarities_granted hreads₁ hapart hfurnished.long).imp_ok ?_
  rintro _ ⟨s₂, host₂⟩ ⟨hobject, hw, hsize⟩
  obtain rfl : s₂ = s₁ := hobject
  have hopposing : Opposing s₂.engine.varCount buffer d.closed
      ⟨s₂, host₂⟩ := by
    refine ⟨(hg.of_sameRules hfurnished.rules).of_sameRules hw.rules,
      ⟨d.opened, ?_⟩, rfl, hapart, ?_⟩
    · refine (hk.of_contents hsame).of_contents fun b hb =>
        hw.others b fun hmem => hapart ?_
      rwa [List.mem_singleton.mp hmem] at hb
    · show s₂.engine.varCount < host₂.heap.size buffer
      rw [hsize]
      exact hfurnished.long
  rw [ends_bind]
  refine hopposing.addOpposites.imp ?_ fun _ _ hf => hf
  rintro _ q ⟨hfits, hq⟩
  obtain ⟨opened, hk'⟩ := hq.keeps
  rw [ends_bind, onEngine, Op.ends_within]
  refine (terminateClause_ends hq.generous.plain hk').imp ?_ ?_
  · exact fun _ r hclosed =>
      ⟨hfits, opened, (hk'.closed hclosed).clauses_eq⟩
  · exact fun f r hdenied => absurd hq.generous hdenied.not_generous

/-- An engine that was reset closes no clause. -/
theorem block_resting (hg : host.Generous) (hempty : Emptied s.engine)
    (hintact : s.destroyed = false) (hlast : s.last = some .satisfiable)
    (hscratch : ∀ b ∈ scratch, b < host.heap.blocks.size) :
    Ends (fun _ _ => False) (fun f _ => f = .engineReset)
      (block scratch ⟨s, host⟩) := by
  rw [block_of_ready hintact hlast, hempty.vars, ends_bind]
  refine (scratchFor_furnishes hg.plain hscratch).imp ?_
    fun _ _ hf => absurd hg hf.2.not_generous
  intro buffer p hfurnished
  obtain ⟨s₁, host₁⟩ := p
  obtain rfl : s₁ = s := hfurnished.object
  have hclose : onEngine Engine.terminateClause ⟨s₁, host₁⟩
      = .error .engineReset ⟨s₁, host₁⟩ := by
    have hcheck : TableEngine.terminateClause ⟨s₁.engine, host₁⟩
        = .error .engineReset ⟨s₁.engine, host₁⟩ :=
      bind_of_error (checkLive_spent hempty.toSpent)
    simp only [onEngine, Op.within]
    rw [show Engine.terminateClause _ = _ from hcheck]
  show Ends _ _ ((onEngine Engine.terminateClause >>= fun _ => pure buffer)
    (⟨s₁, host₁⟩ : Placed (Session TableEngine)))
  rw [bind_of_error hclose]
  exact rfl

-- ============================================================== decoding

/-- A list with an entry for each variable has been decoded. -/
structure Decoded (p : Placed (Session TableEngine)) (solution : Solution) :
    Prop where
  intact : p.object.destroyed = false
  last : p.object.last = some .satisfiable
  length : solution.length = p.object.engine.varCount
  reads : p.object.engine.varCount = 0 ∨ ∃ a, Showing a p.object p.host

/-- What is decoded of an engine without a flag is the empty list. -/
theorem decoded_unflagged (hflag : s.engine.hasModel = false)
    (hintact : s.destroyed = false) (hlast : s.last = some .satisfiable)
    (hdecode : decode ⟨s, host⟩ = .ok solution q) :
    q = ⟨s, host⟩ ∧ solution = [] ∧ s.engine.varCount = 0 := by
  rw [decode_unflagged hflag hintact hlast] at hdecode
  split at hdecode
  next hvars =>
    obtain ⟨rfl, rfl⟩ := EStateM.Result.ok.inj hdecode
    exact ⟨rfl, rfl, hvars⟩
  next => cases hdecode

/-- Nothing is decoded unless the last answer was satisfiable. -/
theorem decoded_ready (hdecode : decode ⟨s, host⟩ = .ok solution q) :
    s.destroyed = false ∧ s.last = some .satisfiable := by
  by_contra hnot
  rw [not_and_or, Bool.not_eq_false] at hnot
  obtain ⟨f, hrefused, -⟩ := @decode_refused s host hnot
  rw [hrefused] at hdecode
  cases hdecode

/-- Decoding changes nothing, and what is decoded is what the table
shows. -/
theorem Working.decoded (h : Working own p)
    (hdecode : decode p = .ok solution q) : q = p ∧ Decoded p solution := by
  obtain ⟨s, host⟩ := p
  obtain ⟨search, t, ht⟩ := h.tallies
  obtain ⟨hintact, hlast⟩ := decoded_ready hdecode
  have hflag := ht.exposes.flag
  cases hshown : t.shown with
  | none =>
      rw [hshown] at hflag
      obtain ⟨rfl, rfl, hvars⟩ :=
        decoded_unflagged hflag hintact hlast hdecode
      exact ⟨rfl, hintact, hlast, hvars.symm, Or.inl hvars⟩
  | some a =>
      rw [hshown] at hflag
      have hshowing : Showing a s host :=
        ⟨hintact, hlast, hflag, ht.exposes.shows a hshown⟩
      rw [decode_eq hshowing] at hdecode
      obtain ⟨rfl, rfl⟩ := EStateM.Result.ok.inj hdecode
      refine ⟨rfl, hintact, hlast, ?_, Or.inr ⟨a, hshowing⟩⟩
      rw [List.length_map, length_signedList]

/-- Blocking closes one more clause if the last variable has a number that
fits into a word, and is refused at the first that does not otherwise. -/
def Blocks (own : List BlockId) (p : Placed (Session TableEngine)) : Prop :=
  ∀ scratch : Option BlockId,
    (∀ b ∈ scratch, b < p.host.heap.blocks.size ∧ b ∉ own) →
    Ends
      (fun _ q => (p.object.engine.varCount : Int) ≤ Word.literalMax
        ∧ ∃ old clause,
          closedClauses p = .ok old ⟨p.object.engine, p.host⟩
          ∧ closedClauses q
            = .ok (old ++ [clause]) ⟨q.object.engine, q.host⟩)
      (fun f _ => Overruns p.object.engine.varCount f)
      (block scratch p)

/-- A session at work blocks what it decodes. -/
theorem Decoded.blocks (h : Decoded p solution) (hw : Working own p)
    (hg : p.host.Generous) : Blocks own p := by
  obtain ⟨search, t, ht⟩ := hw.tallies
  intro scratch hscratch
  have htables : p.object.engine.tables = own := hw.tables
  refine (block_granted hg ht.keeps h.intact h.last h.reads
    (htables ▸ hscratch)).imp ?_ fun _ _ hf => hf
  rintro _ q ⟨hfits, clause, hclosed⟩
  exact ⟨hfits, t.draft.closed, clause, ht.keeps.clauses_eq, hclosed⟩

end Session

-- =========================================================== at one go

section

variable {E : Type} [Engine E] {make : HostOp E}
  {v vars verbose propLimit : Value} {literals : Solution} {host' : Host}

/-- A session that answers a solution has found one and decoded it. -/
theorem Session.answer_solution {p q : Placed (Session E)}
    (h : Session.answer p = .ok (.solution literals) q) :
    ∃ r, Session.invoke Session.noBudget p = .ok .satisfiable r
      ∧ Session.decode r = .ok literals q := by
  unfold Session.answer at h
  cases hinvoke : Session.invoke Session.noBudget p with
  | error f r =>
      rw [bind_of_error hinvoke] at h
      cases h
  | ok outcome r =>
      rw [bind_of_ok hinvoke] at h
      cases outcome with
      | unsatisfiable => cases h
      | unknown => cases h
      | satisfiable =>
          dsimp only at h
          cases hdecode : Session.decode r with
          | error f t =>
              rw [bind_of_error hdecode] at h
              cases h
          | ok solution t =>
              rw [bind_of_ok hdecode] at h
              cases h
              exact ⟨r, rfl, hdecode⟩

/-- A solution is answered by the session that was made. -/
theorem solve_solution
    (h : solve make v vars verbose propLimit host
      = .ok (.solution literals) host') :
    ∃ config s host₁ p, Config.build vars verbose propLimit = .ok config
      ∧ Session.create make config v host = .ok s host₁
      ∧ Session.answer ⟨s, host₁⟩ = .ok (.solution literals) p := by
  have hends : Ends (fun answer _ => answer = .solution literals)
      (fun _ _ => False) (solve make v vars verbose propLimit host) := by
    rw [h]
    exact rfl
  unfold solve at hends
  cases hconfig : Config.build vars verbose propLimit with
  | error f =>
      rw [bind_of_error (checkedConfig_error hconfig)] at hends
      exact hends.elim
  | ok config =>
      rw [bind_of_ok (checkedConfig_ok hconfig)] at hends
      cases hcreate : Session.create make config v host with
      | error f host₁ =>
          rw [bind_of_error hcreate] at hends
          exact hends.elim
      | ok s host₁ =>
          rw [bind_of_ok hcreate, ends_bind, Op.ends_on] at hends
          unfold Session.answerAndDestroy at hends
          rw [ends_bind, Op.ends_orRelease] at hends
          cases hanswer : Session.answer (⟨s, host₁⟩ : Placed (Session E)) with
          | error f p =>
              rw [hanswer, ends_error] at hends
              revert hends
              cases Session.destroy p <;> exact False.elim
          | ok answer p =>
              rw [hanswer, ends_ok, ends_bind] at hends
              refine ⟨config, s, host₁, p, rfl, hcreate, ?_⟩
              revert hends
              cases Session.destroy p with
              | error f q => exact False.elim
              | ok _ q =>
                  intro hsame
                  obtain rfl : answer = .solution literals := hsame
                  exact hanswer

end

namespace Cursor

variable {search : Search} {limit : Int} {n : Nat}
  {clauses : List (List Int)} {base : Host} {c : Cursor TableEngine}

/-- A running cursor hands a solution out unless it cannot be ruled out,
and then hands on why. -/
theorem Running.first (h : Running search limit n clauses base c host)
    (hc : c.scratch = none) {literals : Solution}
    {p : Placed (Session TableEngine)}
    (hanswer : Session.answer ⟨c.session, host⟩
      = .ok (.solution literals) p) :
    FirstStep (.solution literals) p (next ⟨c, host⟩) := by
  have hadvance := advance_eq c host
  rw [hanswer] at hadvance
  simp only [afterAnswer] at hadvance
  have hends := advance_ends h
  rw [FirstStep, ← hc]
  cases hblock : Session.block c.scratch p with
  | ok b q =>
      rw [hblock] at hadvance
      exact next_of_found h.unfinished h.unclosed hadvance
  | error f q =>
      rw [hblock] at hadvance
      rw [hadvance] at hends
      have hstuck : Stuck n base host f _ := hends
      exact next_of_failure h.unfinished h.unclosed hadvance
        (hstuck.released.imp (fun _ _ _ => trivial) fun _ _ hf => hf)

end Cursor

/-- The first advance of a cursor over a problem that is solved. -/
theorem first_of_solved (hg : host.Generous) {search : Search}
    {v vars verbose propLimit : Value} {literals : Solution} {host' : Host}
    (hsolve : solve (TableEngine.create search) v vars verbose propLimit host
      = .ok (.solution literals) host') :
    ∃ c host₁,
      enumerate (TableEngine.create search) v vars verbose propLimit host
        = .ok c host₁
      ∧ Ends
        (fun r _ => (literals.length : Int) ≤ Word.literalMax
          ∧ r = some literals)
        (fun f _ => Session.Overruns literals.length f)
        (Cursor.next ⟨c, host₁⟩) := by
  obtain ⟨config, s, host₁, q, hconfig, hmade, hanswer⟩ :=
    solve_solution hsolve
  have henumerate := enumerate_eq hconfig hmade
  have hstarted := Cursor.enumerate_ends hg.plain hg.takesBack search v vars
    verbose propLimit
  rw [henumerate] at hstarted
  obtain ⟨_, clauses, -, -, hstarted⟩ := hstarted
  refine ⟨_, host₁, henumerate, ?_⟩
  -- the session of the cursor is at work with the solution on show
  obtain ⟨r, hfound, hdecode⟩ := Session.answer_solution hanswer
  have hworks : Session.Working s.engine.tables r := by
    have hmoves : Moves (Session.StaysWorking s.engine.tables)
        (Session.invoke (.int (-1))) := Session.invoke_works (-1)
    have hinvoke := hmoves ⟨s, host₁⟩
    rw [show Session.invoke (.int (-1)) ⟨s, host₁⟩ = _ from hfound]
      at hinvoke
    exact hinvoke (Session.working_of_created hg.plain hg.takesBack hmade)
  have hgr : r.host.Generous := by
    have hinvoke := InStep.generous (Session.invoke_inStep (.int (-1)) _)
      (show (⟨s, host₁⟩ : Placed _).host.Generous from
        generous_created hg hmade)
    rw [show Session.invoke (.int (-1)) ⟨s, host₁⟩ = _ from hfound]
      at hinvoke
    exact hinvoke
  obtain ⟨rfl, hdecoded⟩ := hworks.decoded hdecode
  -- so it is blocked as far as words reach, and the advance ends likewise
  have hfirst : Ends
      (fun _ _ => AnswersWith (some literals) (Cursor.next ⟨_, host₁⟩))
      (fun f _ => FailsWith f (Cursor.next ⟨_, host₁⟩))
      (Session.block none q) :=
    hstarted.running.first rfl hanswer
  have hboth := hfirst.and (hdecoded.blocks hworks hgr none (by simp))
  rw [hdecoded.length]
  cases hblock : Session.block none q with
  | ok b r =>
      rw [hblock] at hboth
      obtain ⟨hanswers, hfits, -⟩ := hboth
      exact hanswers.imp (fun _ _ hr => ⟨hfits, hr⟩) fun _ _ hf => hf.elim
  | error f r =>
      rw [hblock] at hboth
      obtain ⟨hfails, hoverruns⟩ := hboth
      refine hfails.imp (fun _ _ hr => hr.elim) ?_
      rintro g _ rfl
      exact hoverruns

-- ============================================================ the result

/-- What is decoded can be blocked if words reach as far.

On a host that grants everything, whatever the search says, and whatever
was called of a session and of its engine, its reset included: if the
engine is live and a list is decoded, it has an entry for each variable,
every literal about these variables that fits into a word is accepted and
stored, and blocking succeeds if all of them fit; if not, it is refused at
the first variable that is too many. If the engine was reset behind the
back of the session, a list that is decoded is empty, and cannot be
blocked.

So if solving at once answers a list, the first advance of a cursor over
the same problem answers that list if all its entries fit, and otherwise
says that one does not. -/
theorem blocks_what_is_decoded (hg : host.Generous) (search : Search) :
    (∀ (config : Config) (v : Value) (s : Session TableEngine) host₁,
      Session.create (TableEngine.create search) config v host
        = .ok s host₁ →
      ∀ calls : List UseCall,
        (∀ call ∈ calls, call.Proper s.engine.tables) →
        let p := afterTurns UseCall.perform calls ⟨s, host₁⟩
        ∀ solution q, Session.decode p = .ok solution q →
          (p.object.engine.live = true →
            solution.length = p.object.engine.varCount
              ∧ TableEngine.TakesKnown ⟨p.object.engine, p.host⟩
              ∧ Session.Blocks s.engine.tables p)
          ∧ (p.object.engine.live = false →
            solution = [] ∧ ∀ scratch : Option BlockId,
              (∀ b ∈ scratch, b < p.host.heap.blocks.size) →
              Ends (fun _ _ => False) (fun f _ => f = .engineReset)
                (Session.block scratch p)))
    ∧ ∀ (v vars verbose propLimit : Value) (literals : Solution) host₁,
      solve (TableEngine.create search) v vars verbose propLimit host
        = .ok (.solution literals) host₁ →
      ∃ c host₂,
        enumerate (TableEngine.create search) v vars verbose propLimit host
          = .ok c host₂
        ∧ Ends
          (fun r _ => (literals.length : Int) ≤ Word.literalMax
            ∧ r = some literals)
          (fun f _ => Session.Overruns literals.length f)
          (Cursor.next ⟨c, host₂⟩) := by
  refine ⟨?_, fun v vars verbose propLimit literals host₁ hsolve =>
    first_of_solved hg hsolve⟩
  intro config v s host₁ hmade calls hproper p solution q hdecode
  have hgp : p.host.Generous :=
    generous_afterTurns calls (generous_created hg hmade)
  have hstanding : Session.Standing s.engine.tables p :=
    Session.standing_of_created hg.plain hg.takesBack hmade calls hproper
  cases hstanding with
  | working hworks =>
      obtain ⟨search, t, ht⟩ := hworks.tallies
      have hlive : p.object.engine.live = true := ht.keeps.seated.live
      obtain ⟨-, hdecoded⟩ := hworks.decoded hdecode
      refine ⟨fun _ => ⟨hdecoded.length, ht.keeps.takesKnown hgp,
        hdecoded.blocks hworks hgp⟩, fun hdead => ?_⟩
      rw [hdead] at hlive
      cases hlive
  | resting hempty =>
      -- without tables only the empty list is decoded, and nothing blocks it
      have hdead : p.object.engine.live = false := hempty.dead
      refine ⟨fun hlive => ?_, fun _ => ?_⟩
      · rw [hlive] at hdead
        cases hdead
      · obtain ⟨hintact, hlast⟩ := Session.decoded_ready hdecode
        obtain ⟨-, hnil, -⟩ :=
          Session.decoded_unflagged hempty.flag hintact hlast hdecode
        exact ⟨hnil, fun scratch hscratch =>
          Session.block_resting hgp hempty hintact hlast hscratch⟩

/-- A session that decodes and blocks with a literal pending, and a problem
with a variable that its clause does not name. -/
theorem blocks_what_is_decoded_pending_literal :
    Ends
      (fun s host₁ =>
        let p := afterTurns UseCall.perform
          [.session (.invoke (-1)), .session (.tell (.addLiteral 2))]
          ⟨s, host₁⟩
        Ends
          (fun _ q => ∃ clause, Session.closedClauses q
            = .ok [[1], clause] ⟨q.object.engine, q.host⟩)
          never (Session.block none p))
      never
      (Session.create (TableEngine.create Learning.search) {}
        (.seq .list [.seq .tuple [.int 1]]) .boundless)
    ∧ ∃ literals c host₁,
      literals.length = 3
      ∧ enumerate (TableEngine.create Learning.search)
          (.seq .list [.seq .tuple [.int 1, .int (-2)]]) (.int 3) (.int 0)
          (.int 0) .boundless
        = .ok c host₁
      ∧ Ends (fun r _ => r = some literals) never
          (Cursor.next ⟨c, host₁⟩) := by
  have hg := Host.generous_boundless
  constructor
  · generalize hmade : Session.create (TableEngine.create Learning.search) {}
      (.seq .list [.seq .tuple [.int 1]]) .boundless = made
    have hrun : Ends
        (fun s host₁ =>
          let p := afterTurns UseCall.perform
            [.session (.invoke (-1)), .session (.tell (.addLiteral 2))]
            ⟨s, host₁⟩
          Ends (fun _ _ => True) (fun _ _ => False) (Session.decode p)
            ∧ p.object.engine.live = true
            ∧ p.object.engine.varCount = 2
            ∧ Ends (fun closed _ => closed = [[1]]) (fun _ _ => False)
                (Session.closedClauses p))
        (fun _ _ => False) made := by
      rw [← hmade]
      decide +kernel
    cases made with
    | error f host₁ => exact hrun
    | ok s host₁ =>
        obtain ⟨hdecodes, hlive, hvars, hclosed⟩ := hrun
        obtain ⟨solution, q, hdecode, -⟩ := hdecodes.exists_ok
        obtain ⟨-, -, hblocks⟩ :=
          ((blocks_what_is_decoded hg Learning.search).1 {} _ s host₁ hmade
            [.session (.invoke (-1)), .session (.tell (.addLiteral 2))]
            (by simp [UseCall.Proper]) solution q hdecode).1 hlive
        refine (hblocks none (by simp)).imp ?_ ?_
        · rintro _ r ⟨-, old, clause, hold, hnew⟩
          rw [hold] at hclosed
          obtain rfl : old = [[1]] := hclosed
          exact ⟨clause, hnew⟩
        · rintro f _ ⟨hlong, -⟩
          rw [hvars] at hlong
          exact absurd hlong (by decide)
  · have hv : Value.IsClauseSet
        (.seq .list [.seq .tuple [.int 1, .int (-2)]]) [[1, -2]] :=
      ⟨_, rfl, .cons ⟨_, rfl, rfl⟩ .nil⟩
    obtain ⟨literals, host', hsolve, hlength⟩ :=
      solve_finds hg Learning.search_sound hv
        (by simp [InRange, Word.literalMax]) (show -1 ≤ 3 by decide)
        ⟨[1, 2, 3], mem_models.mp (by decide)⟩
    have hthree : literals.length = 3 := hlength
    obtain ⟨c, host₁, henumerate, hnext⟩ :=
      (blocks_what_is_decoded hg Learning.search).2 _ _ _ _ literals host'
        hsolve
    refine ⟨literals, c, host₁, hthree, henumerate, hnext.imp ?_ ?_⟩
    · exact fun r _ hr => hr.2
    · rintro f _ ⟨hlong, -⟩
      rw [hthree] at hlong
      exact absurd hlong (by decide)

/-- Not all that is decoded can be blocked: neither the empty list of an
engine that was reset, nor a list over more variables than words can
tell. -/
theorem decoded_but_not_blocked :
    Ends
      (fun s host₁ =>
        let p := afterTurns UseCall.perform
          [.session (.invoke (-1)), .reset] ⟨s, host₁⟩
        Ends (fun solution _ => solution.length = 0) (fun _ _ => False)
            (Session.decode p)
          ∧ Ends (fun _ _ => False)
              (fun f _ => f.errorClass = .preconditionViolation)
              (Session.block none p))
      (fun _ _ => False)
      (Session.create (TableEngine.create Learning.search) {}
        (.seq .list [.seq .tuple [.int 1]]) .boundless)
    ∧ ∃ literals host₁ c host₂,
      solve (TableEngine.create Learning.search) (.seq .list [])
          (.int 0x80000000) (.int 0) (.int 0) .boundless
        = .ok (.solution literals) host₁
      ∧ enumerate (TableEngine.create Learning.search) (.seq .list [])
          (.int 0x80000000) (.int 0) (.int 0) .boundless
        = .ok c host₂
      ∧ Ends (fun _ _ => False) (fun f _ => f.errorClass = .value)
          (Cursor.next ⟨c, host₂⟩) := by
  refine ⟨by decide +kernel, ?_⟩
  have hg := Host.generous_boundless
  have hv : Value.IsClauseSet (.seq .list []) [] := ⟨_, rfl, .nil⟩
  obtain ⟨literals, host₁, hsolve, hlength⟩ :=
    solve_finds hg Learning.search_sound hv (by simp [InRange])
      (show -1 ≤ 0x80000000 by decide)
      ⟨_, total_signedList (fun _ => true) _, by simp [Satisfies]⟩
  have hlong : Word.literalMax < literals.length := by
    rw [hlength]
    simp [variablesOf, largest, Word.literalMax]
  obtain ⟨c, host₂, henumerate, hnext⟩ := first_of_solved hg hsolve
  refine ⟨literals, host₁, c, host₂, hsolve, henumerate, hnext.imp ?_ ?_⟩
  · rintro r _ ⟨hfits, -⟩
    omega
  · rintro _ _ ⟨-, l, hfirst, rfl⟩
    have hl : l = 0x80000000 ∨ l = -0x80000000 := by
      simp only [Word.literalMax] at hfirst
      omega
    rcases hl with rfl | rfl <;> decide +kernel

end SatSession
