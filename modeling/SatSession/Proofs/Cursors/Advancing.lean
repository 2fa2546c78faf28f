/-
Advancing a cursor.

A running cursor owns the tables of its session and its buffer, if it has
one, and nothing else has been taken since a time `base`. One advance
comes to one of three ends (`next_ends`):

- it produces the list of the assignment that the search gave, and runs on
  with that list ruled out (`Produced`);
- the search gives no assignment, and the cursor is closed with everything
  given back (`Finished`);
- blocking fails, and the cursor is closed with at most one block lost
  (`Failed`).
-/
import SatSession.Proofs.Cursors.Closing
import SatSession.Solve

namespace SatSession

open TableEngine

variable {search : Search} {limit : Int} {n : Nat}
  {clauses : List (List Int)} {base host : Host}

-- ============================================================== asking

namespace Session

variable {s : Session TableEngine}

/-- What an answered invocation leaves of a session at work. -/
structure Asked (search : Search) (limit : Int) (n : Nat)
    (clauses : List (List Int)) (s : Session TableEngine) (host : Host)
    (outcome : Outcome) (p : Placed (Session TableEngine)) : Prop where
  live : Live search limit n clauses p.object p.host
  tables : p.object.engine.tables = s.engine.tables
  handed : p.host.heap.blocks.size = host.heap.blocks.size
  rules : Host.SameRules host p.host
  others : ∀ b, b ∉ s.engine.tables →
    p.host.heap.size b = host.heap.size b
  holding : ∀ base own, Host.Holding (s.engine.tables ++ own) base host →
    Host.Holding (s.engine.tables ++ own) base p.host
  answers : p.host.answers = host.answers ++ [outcome]

/-- An answered invocation leaves a session at work at work. -/
theorem Live.asked (h : Live search limit n clauses s host)
    {outcome : Outcome} {p : Placed (Session TableEngine)}
    (ha : Answered limit s host outcome p) :
    Asked search limit n clauses s host outcome p := by
  obtain ⟨q, hq, rfl⟩ := ha.search
  have hs := h.keeps.seated
  have hon := hq.onward hs
  have hw := hon.within
  obtain ⟨verbosity, hset⟩ := h.settings
  refine ⟨⟨?_, ?_, h.keeps.searched hq, hon.search.trans h.search,
      ⟨verbosity, hon.settings hset⟩, ?_, hon.fitted h.fitted, h.intact⟩,
    hon.tables, hw.handed, hw.rules.trans ⟨rfl, rfl, rfl, rfl, rfl⟩,
    fun b hb => hw.size_eq hb, ?_, ?_⟩
  · exact (h.plain.of_sameRules hw.rules).of_sameRules
      ⟨rfl, rfl, rfl, rfl, rfl⟩
  · exact (h.takesBack.of_sameRules hw.rules).of_sameRules
      ⟨rfl, rfl, rfl, rfl, rfl⟩
  · show q.object.varCount = n
    rw [hq.object]
    exact h.vars
  · intro base own hholding
    exact (hholding.within (hw.append hholding.apart)).logged _
  · have hsame : q.host.answers = host.answers := hw.answers
    rw [← hsame]
    simp [told, Host.answers, LogEntry.answer?]

end Session

namespace Cursor

variable {c : Cursor TableEngine} {a : Assignment}

-- ============================================================= running

/-- A cursor that may produce more. -/
structure Running (search : Search) (limit : Int) (n : Nat)
    (clauses : List (List Int)) (base : Host) (c : Cursor TableEngine)
    (host : Host) : Prop where
  unclosed : c.closed = false
  unfinished : c.exhausted = false
  live : Session.Live search limit n clauses c.session host
  holding : Host.Holding c.known base host
  scratch : ∀ b ∈ c.scratch, host.heap.size b = n + 1

/-- The next solution has been produced. -/
structure Produced (search : Search) (limit : Int) (n : Nat)
    (clauses : List (List Int)) (base : Host) (c : Cursor TableEngine)
    (host : Host) (literals : Solution) (p : Placed (Cursor TableEngine)) :
    Prop where
  found : ∃ a, c.session.engine.verdict (limitInForce limit (-1)) = .sat a
    ∧ literals = (signedList a n).map Value.int
    ∧ Running search limit n (clauses ++ [(signedList a n).map (- ·)]) base
        p.object p.host
  buffered : p.object.scratch.isSome
  answers : p.host.answers = host.answers ++ [.satisfiable]

/-- The search has given no further solution. -/
structure Ended (limit : Int) (base : Host) (c : Cursor TableEngine)
    (host : Host) (outcome : Outcome) (p : Placed (Cursor TableEngine)) :
    Prop where
  refused : outcome ≠ .satisfiable
  said : outcome
    = (c.session.engine.verdict (limitInForce limit (-1))).outcome
  closable : Closable [] p.object base p.host
  answers : p.host.answers = host.answers ++ [outcome]

/-- A solution could not be ruled out. -/
structure Stuck (n : Nat) (base host : Host) (_ : Fault)
    (p : Placed (Cursor TableEngine)) : Prop where
  lost : ∃ lost, Session.Lost n host p.host lost
    ∧ Closable lost p.object base p.host
  unfit : host.Generous → ¬ (n : Int) ≤ Word.literalMax

section

variable {outcome : Outcome} {s' : Session TableEngine} {host' : Host}

/-- The buffer keeps its size while the session is asked. -/
theorem Running.size_asked (h : Running search limit n clauses base c host)
    (hasked : Session.Asked search limit n clauses c.session host outcome
      ⟨s', host'⟩) : ∀ b ∈ c.scratch, host'.heap.size b = n + 1 := by
  intro b hb
  have hb' : b ∈ c.scratch.toList := by simpa using hb
  have hother : b ∉ c.session.engine.tables := fun hmem =>
    (List.nodup_append.mp h.holding.apart).2.2 b hmem b hb' rfl
  rw [hasked.others b hother]
  exact h.scratch b hb

/-- A solution that is ruled out is produced, and the cursor runs on with
the buffer that was used. -/
theorem Running.produced (h : Running search limit n clauses base c host)
    (hasked : Session.Asked search limit n clauses c.session host
      .satisfiable ⟨s', host'⟩)
    (hverdict : c.session.engine.verdict (limitInForce limit (-1)) = .sat a)
    {buffer : BlockId} {p : Placed (Session TableEngine)}
    (hp : Session.Blocked search limit n a clauses s' base host' buffer p) :
    Produced search limit n clauses base c host
      ((signedList a n).map Value.int)
      ⟨{ c with
          session := p.object
          scratch := some buffer
          count := c.count + 1 }, p.host⟩ := by
  refine ⟨⟨a, hverdict, rfl, h.unclosed, h.unfinished, hp.live, ?_, ?_⟩, rfl,
    hp.answers.trans hasked.answers⟩
  · show Host.Holding (p.object.engine.tables ++ [buffer]) base p.host
    rw [hp.tables]
    exact hp.holding
  · intro b hb
    rw [← Option.mem_some.mp hb]
    exact hp.size

/-- A solution that is not ruled out leaves a cursor that can be closed. -/
theorem Running.stuck (h : Running search limit n clauses base c host)
    (hasked : Session.Asked search limit n clauses c.session host outcome
      ⟨s', host'⟩)
    {f : Fault} {p : Placed (Session TableEngine)}
    (hp : Session.NotBlocked n s' base host' c.scratch f p) :
    Stuck n base host f ⟨{ c with session := p.object }, p.host⟩ := by
  have hlive := hasked.live
  obtain ⟨lost, hlost, hleft⟩ := hp.lost
  refine ⟨⟨lost, ⟨hlost.few, hlost.sizes, ?_⟩, ?_⟩, ?_⟩
  · exact hlost.handed.trans (by rw [hasked.handed])
  · refine ⟨h.unclosed, ?_, hlive.plain.of_sameRules hp.rules,
      hlive.takesBack.of_sameRules hp.rules, hp.seated, ?_⟩
    · show p.object.destroyed = false
      rw [hp.object]
      exact hlive.intact
    · show Host.Holding
        (p.object.engine.tables ++ c.scratch.toList ++ lost) base p.host
      rw [hp.tables]
      exact hleft
  · intro hg
    exact hp.unfit (hg.of_sameRules hasked.rules)

/-- A search that gives no solution ends the enumeration. -/
theorem Running.ended (h : Running search limit n clauses base c host)
    (hasked : Session.Asked search limit n clauses c.session host outcome
      ⟨s', host'⟩)
    (hrefused : outcome ≠ .satisfiable)
    (hsaid : outcome
      = (c.session.engine.verdict (limitInForce limit (-1))).outcome) :
    Ended limit base c host outcome ⟨{ c with session := s' }, host'⟩ := by
  have hlive := hasked.live
  refine ⟨hrefused, hsaid, ⟨h.unclosed, hlive.intact, hlive.plain,
    hlive.takesBack, hlive.keeps.seated, ?_⟩, hasked.answers⟩
  rw [List.append_nil, known]
  show Host.Holding (s'.engine.tables ++ c.scratch.toList) base host'
  rw [hasked.tables]
  exact hasked.holding base c.scratch.toList h.holding

end

/-- An advance before anything is released. -/
theorem advance_ends (h : Running search limit n clauses base c host) :
    Ends (fun r p =>
        (∃ literals, r = (.satisfiable, some literals)
          ∧ Produced search limit n clauses base c host literals p)
        ∨ ∃ outcome, r = (outcome, none)
          ∧ Ended limit base c host outcome p)
      (Stuck n base host) (advance ⟨c, host⟩) := by
  have hlive := h.live
  obtain ⟨verbosity, hset⟩ := hlive.settings
  unfold advance
  rw [ends_bind, ends_onSession]
  refine (Session.invoke_ends hlive.keeps.seated hlive.intact hset).imp_ok
    ?_
  intro outcome p hanswered
  obtain ⟨s', host'⟩ := p
  have hasked := hlive.asked hanswered
  by_cases hsat : outcome = .satisfiable
  · rw [if_pos hsat]
    subst hsat
    obtain ⟨a, hverdict, hshowing⟩ := hanswered.showing hlive.intact
    have hdecode : onSession Session.decode
        ⟨{ c with session := s' }, host'⟩
        = .ok ((signedList a n).map Value.int)
          ⟨{ c with session := s' }, host'⟩ := by
      rw [← show s'.engine.varCount = n from hasked.live.vars]
      simp only [onSession, Op.within, Session.decode_eq hshowing]
    rw [bind_of_ok hdecode, Op.read_bind_apply, ends_bind, ends_onSession]
    have hknown : Host.Holding (s'.engine.tables ++ c.scratch.toList) base
        host' := by
      rw [hasked.tables]
      exact hasked.holding base c.scratch.toList h.holding
    refine (Session.block_ends hasked.live hshowing hknown
      (h.size_asked hasked)).imp ?_ ?_
    · intro buffer p hp
      exact Or.inl ⟨_, rfl, h.produced hasked hverdict hp⟩
    · intro f p hp
      exact h.stuck hasked hp
  · rw [if_neg hsat]
    obtain ⟨q, hsearched, -⟩ := hanswered.search
    exact Or.inr ⟨outcome, rfl, h.ended hasked hsat hsearched.said⟩

-- =========================================================== one advance

/-- The enumeration has ended, with everything given back. -/
structure Finished (limit : Int) (base : Host) (c : Cursor TableEngine)
    (host : Host) (p : Placed (Cursor TableEngine)) : Prop where
  said : ∃ outcome, outcome ≠ .satisfiable
    ∧ outcome = (c.session.engine.verdict (limitInForce limit (-1))).outcome
    ∧ p.host.answers = host.answers ++ [outcome]
  closed : p.object.closed = true
  exhausted : p.object.exhausted = true
  holding : Host.Holding [] base p.host

/-- An advance has failed, and the cursor is closed. -/
structure Failed (n : Nat) (base host : Host) (_ : Fault)
    (p : Placed (Cursor TableEngine)) : Prop where
  closed : p.object.closed = true
  lost : ∃ lost, Session.Lost n host p.host lost
    ∧ Host.Holding lost base p.host
  unfit : host.Generous → ¬ (n : Int) ≤ Word.literalMax

/-- An advance that failed has closed the cursor. -/
theorem Stuck.released {f : Fault} {p : Placed (Cursor TableEngine)}
    (h : Stuck n base host f p) :
    Ends (fun _ p => Failed n base host f p) never (close p) := by
  obtain ⟨lost, hlost, hclosable⟩ := h.lost
  refine (close_ends hclosable).imp_ok ?_
  intro _ q hq
  refine ⟨hq.closed, ⟨lost, ⟨hlost.few, ?_, hq.handed.trans hlost.handed⟩,
    hq.holding⟩, h.unfit⟩
  intro b hb
  rw [hq.sizes b hb]
  exact hlost.sizes b hb

/-- An advance that gave no solution has closed the cursor. -/
theorem Ended.released {outcome : Outcome} {p : Placed (Cursor TableEngine)}
    (h : Ended limit base c host outcome p) :
    Ends (fun r p => r = none ∧ Finished limit base c host p) never
      ((do
        let c ← Op.read
        Op.onHost (Host.note (.enumerationFinished c.count outcome))
        Op.update fun c => { c with exhausted := true }
        close
        return none : Op (Cursor TableEngine) (Option Solution)) p) := by
  obtain ⟨c', host'⟩ := p
  let noted : Host := { host' with
    log := host'.log.push (.enumerationFinished c'.count outcome) }
  have hclosable := h.closable
  have hrules : Host.SameRules host' noted := ⟨rfl, rfl, rfl, rfl, rfl⟩
  have hready : Closable [] { c' with exhausted := true } base noted :=
    ⟨hclosable.unclosed, hclosable.intact,
      hclosable.plain.of_sameRules hrules,
      hclosable.takesBack.of_sameRules hrules, hclosable.seated,
      hclosable.holding.logged _⟩
  have hquiet : noted.answers = host'.answers := by
    simp [noted, Host.answers, LogEntry.answer?]
  show Ends _ _ ((close >>= fun _ => pure none)
    ⟨{ c' with exhausted := true }, noted⟩)
  rw [ends_bind]
  refine (close_ends hready).imp_ok ?_
  intro _ q hq
  refine ⟨rfl, ⟨outcome, h.refused, h.said, ?_⟩, hq.closed, hq.exhausted,
    hq.holding⟩
  rw [hq.answers, hquiet]
  exact h.answers

/-- One advance of a running cursor. -/
theorem next_ends (h : Running search limit n clauses base c host) :
    Ends (fun r p =>
        (∃ literals, r = some literals
          ∧ Produced search limit n clauses base c host literals p)
        ∨ (r = none ∧ Finished limit base c host p))
      (Failed n base host) (next ⟨c, host⟩) := by
  unfold next
  rw [Op.read_bind_apply]
  simp only [h.unclosed, h.unfinished, Bool.or_self, Bool.false_eq_true,
    if_false]
  rw [ends_bind, Op.ends_orRelease]
  refine (advance_ends h).imp ?_ ?_
  · intro r p hpost
    rcases hpost with ⟨literals, rfl, hproduced⟩ | ⟨outcome, rfl, hended⟩
    · exact Or.inl ⟨literals, rfl, hproduced⟩
    · exact hended.released.imp_ok fun _ _ hp => Or.inr hp
  · intro f p hstuck
    exact hstuck.released.imp_ok fun _ _ hp => hp

/-- A closed cursor produces nothing and changes nothing. -/
theorem next_closed (hclosed : c.closed = true) :
    next ⟨c, host⟩ = .ok none ⟨c, host⟩ := by
  unfold next
  rw [Op.read_bind_apply]
  simp only [hclosed, Bool.or_true, if_true]
  rfl

/-- Closing a closed cursor changes nothing. -/
theorem close_closed (hclosed : c.closed = true) :
    close ⟨c, host⟩ = .ok () ⟨c, host⟩ := by
  unfold close
  rw [Op.read_bind_apply]
  simp only [hclosed, if_true]
  rfl

/-- A running cursor can be closed, and leaves nothing behind. -/
theorem Running.closable
    (h : Running search limit n clauses base c host) :
    Closable [] c base host := by
  refine ⟨h.unclosed, h.live.intact, h.live.plain, h.live.takesBack,
    h.live.keeps.seated, ?_⟩
  rw [List.append_nil]
  exact h.holding

-- ============================================================ starting

/-- A cursor has been started over a problem. -/
structure Started (search : Search) (config : Config)
    (clauses : List (List Int)) (host : Host) (c : Cursor TableEngine)
    (host' : Host) : Prop where
  running : Running search config.propLimit (variablesOf config.vars clauses)
    clauses host c host'
  unbuffered : c.scratch = none
  answers : host'.answers = host.answers

/-- No cursor has been started, and no memory is kept. -/
structure NotStarted (fit : Prop) (host : Host) (_ : Fault)
    (host' : Host) : Prop where
  holding : Host.Holding [] host host'
  unfit : host.Generous → ¬ fit

/-- A cursor is started, or the memory is as it was. -/
theorem enumerate_ends (hp : host.Plain) (ht : host.TakesBack)
    (search : Search) (v vars verbose propLimit : Value) :
    Ends (fun c host' => ∃ config cs,
          Config.build vars verbose propLimit = .ok config
          ∧ v.IsClauseSet cs ∧ Started search config cs host c host')
      (NotStarted ((∃ config,
          Config.build vars verbose propLimit = .ok config) ∧ v.WellFormed)
        host)
      (enumerate (TableEngine.create search) v vars verbose propLimit
        host) := by
  unfold enumerate checkedConfig
  cases hbuild : Config.build vars verbose propLimit with
  | error f =>
      refine ⟨.refl host, ?_⟩
      intro _ hpost
      obtain ⟨⟨config, hconfig⟩, -⟩ := hpost
      cases hconfig
  | ok config =>
      rw [pure_bind, ends_bind]
      refine (Session.create_ends hp ht search config v).imp ?_ ?_
      · intro s host₁ hpost
        obtain ⟨cs, hcs, hopened⟩ := hpost
        have hrules := hopened.holding.rules
        have hintact : s.destroyed = false := by rw [hopened.object]
        refine ⟨config, cs, rfl, hcs, ⟨rfl, rfl, ?_, ?_, ?_⟩, rfl,
          hopened.answers⟩
        · exact ⟨hp.of_sameRules hrules, ht.of_sameRules hrules,
            hopened.keeps, hopened.search, ⟨_, hopened.settings⟩,
            hopened.vars, hopened.fitted, hintact⟩
        · show Host.Holding (s.engine.tables ++ []) host host₁
          rw [List.append_nil]
          exact hopened.holding
        · intro b hb
          cases hb
      · intro f host₁ hnot
        exact ⟨hnot.holding, fun hg hfit => hnot.unfit hg hfit.2⟩

end Cursor

end SatSession
