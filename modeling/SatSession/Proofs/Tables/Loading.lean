/-
Clause sets in the tables.

Loading hands a value to an engine clause by clause and literal by literal,
and stops at the first one that is not taken. A single induction for each
of the two loops says what the engine keeps then, on any host and behind
whatever it kept before: the clauses so far, and of the next one the
literals so far (`loadClauses_interrupted`).

For an engine that is new this comes to one of two ends
(`loadClauses_ends`). Either it keeps the clauses that the value writes,
and knows their variables (`Loaded`), or it is left somewhere in between,
seated but spoiled (`Spoiled`). The second happens only where the host
denies memory or the value does not write a set of clauses that fit: a
generous host and a well-formed value leave only the first.
-/
import SatSession.Session
import SatSession.Proofs.Defects
import SatSession.Proofs.Models
import SatSession.Proofs.Tables.Onward

namespace SatSession

-- ================================================================ drafts

namespace Draft

/-- The draft with more literals in the open clause. -/
def addAll (d : Draft) (part : List Int) : Draft :=
  { d with opened := d.opened ++ part }

/-- The draft after clauses, the first of which is joined to the one that
is open. -/
def loaded (d : Draft) : List (List Int) → Draft
  | [] => d
  | c :: clauses => (d.addAll c).close.loaded clauses

theorem addAll_nil (d : Draft) : d.addAll [] = d := by
  simp [addAll]

/-- Literals are added in order. -/
theorem add_addAll (d : Draft) (l : Int) (part : List Int) :
    (d.add l).addAll part = d.addAll (l :: part) := by
  simp [add, addAll]

/-- Behind closed clauses only, clauses are as they are loaded. -/
theorem loaded_closed (closed : List (List Int)) :
    ∀ clauses, ({ closed := closed } : Draft).loaded clauses
      = { closed := closed ++ clauses } := by
  intro clauses
  induction clauses generalizing closed with
  | nil => simp [loaded]
  | cons c clauses ih =>
      show ({ closed := closed ++ [[] ++ c] } : Draft).loaded clauses = _
      rw [ih]
      simp

end Draft

namespace TableEngine

variable {e : TableEngine} {host host' : Host} {d d' : Draft}
  {p q : Placed TableEngine} {clause part : List Int} {f : Fault}

-- ============================================================= literals

/-- A literal makes its variable known, with all before it. -/
theorem Added.varCount {l : Int} (h : Added l e host p) :
    p.object.varCount = max e.varCount l.natAbs := by
  obtain ⟨q, hq, hp⟩ := h.steps
  rw [hp.object]
  show q.object.varCount = _
  rw [hq.object]
  rfl

/-- A closed clause makes no variable known. -/
theorem Closed.varCount (h : Closed clause e host p) :
    p.object.varCount = e.varCount := by
  obtain ⟨q, hq, rfl⟩ := h
  show q.object.varCount = _
  rw [hq.object]
  rfl

/-- The same engine further on, with what it keeps. -/
structure Holding (d : Draft) (e : TableEngine) (host : Host)
    (p : Placed TableEngine) : Prop where
  keeps : Keeps d p.object p.host.heap
  onward : Onward e host p

/-- Literals have been taken, and their variables are known. -/
structure Taken (d : Draft) (literals : List Int) (e : TableEngine)
    (host : Host) (p : Placed TableEngine) : Prop
    extends Holding d e host p where
  vars : p.object.varCount = max e.varCount (largest [literals])

theorem Holding.trans (h : Holding d e host q)
    (h' : Holding d' q.object q.host p) : Holding d' e host p :=
  ⟨h'.keeps, h.onward.trans h'.onward⟩

theorem Taken.start (hk : Keeps d e host.heap) :
    Taken d [] e host ⟨e, host⟩ :=
  ⟨⟨hk, .refl e host⟩, by simp [largest]⟩

/-- Literals that are taken one part after the other. -/
theorem Taken.trans {first more : List Int} (h : Taken d first e host q)
    (h' : Taken d' more q.object q.host p) :
    Taken d' (first ++ more) e host p where
  toHolding := h.toHolding.trans h'.toHolding
  vars := by rw [h'.vars, h.vars, largest_join, Nat.max_assoc]

/-- Why a clause has been given up behind some of its literals: the next
one does not fit, or memory was refused. -/
inductive BrokenOff (host : Host) (clause part : List Int) : Fault → Prop
    where
  | range (l : Int) (rest : List Int) (next : clause = part ++ l :: rest)
      (large : Word.literalMax < l.natAbs) :
      BrokenOff host clause part (.literalRange (.int l))
  | memory (use : MemoryUse) (taken : part <+: clause)
      (ungenerous : ¬ host.Generous) :
      BrokenOff host clause part (.outOfMemory use)

/-- A clause has been given up, and some of its literals are open. -/
def LeftOpen (d : Draft) (clause : List Int) (e : TableEngine) (host : Host)
    (f : Fault) (p : Placed TableEngine) : Prop :=
  ∃ part, BrokenOff host clause part f ∧ Holding (d.addAll part) e host p

/-- A clause that is broken off behind its first literal. -/
theorem BrokenOff.cons {l : Int} (h : BrokenOff host clause part f) :
    BrokenOff host (l :: clause) (l :: part) f := by
  cases h with
  | range m rest hnext hlarge =>
      exact .range m rest (by rw [hnext]; rfl) hlarge
  | memory use htaken hungenerous =>
      exact .memory use ((List.prefix_cons_inj l).mpr htaken) hungenerous

/-- On a host with the same rules it is broken off for the same reason. -/
theorem BrokenOff.sameRules (hrules : Host.SameRules host host')
    (h : BrokenOff host' clause part f) : BrokenOff host clause part f := by
  cases h with
  | range m rest hnext hlarge => exact .range m rest hnext hlarge
  | memory use htaken hungenerous =>
      exact .memory use htaken fun hg =>
        hungenerous (hg.of_sameRules hrules)

/-- A literal that is not accepted breaks its clause off at once. -/
theorem NotAdded.brokenOff {l : Int} (h : NotAdded l e host f p)
    (rest : List Int) : BrokenOff host (l :: rest) [] f := by
  rcases h with ⟨hlarge, rfl, -⟩ | h | ⟨q, hq, h⟩
  · exact .range l rest rfl hlarge
  · rw [h.fault]
    exact .memory _ List.nil_prefix h.not_generous
  · rw [h.fault]
    exact .memory _ List.nil_prefix fun hg =>
      h.not_generous (hg.of_sameRules hq.within.rules)

/-- Literals are taken one after the other, up to one that is not. -/
theorem addLiterals_interrupted (hnonzero : ∀ l ∈ clause, l ≠ 0) :
    ∀ (d : Draft) (e : TableEngine) (host : Host), host.Plain →
      Keeps d e host.heap →
      Ends (fun _ p => Taken (d.addAll clause) clause e host p)
        (LeftOpen d clause e host)
        ((clause.forM fun l => addLiteral (.int l) : Op TableEngine PUnit)
          ⟨e, host⟩) := by
  induction clause with
  | nil =>
      intro d e host _ hk
      rw [Draft.addAll_nil]
      exact .start hk
  | cons l rest ih =>
      intro d e host hp hk
      have hl : l ≠ 0 := hnonzero l List.mem_cons_self
      show Ends _ _ ((addLiteral (.int l)
        >>= fun _ => rest.forM fun l => addLiteral (.int l)) ⟨e, host⟩)
      rw [ends_bind]
      refine (addLiteral_ends hp hk.seated hl).imp ?_ ?_
      · intro _ q hq
        have hfirst : Taken (d.add l) [l] e host q :=
          ⟨⟨hk.added hl hq, hq.onward⟩, by simp [hq.varCount, largest]⟩
        have hrules := hq.onward.within.rules
        refine (ih (fun m hm => hnonzero m (List.mem_cons_of_mem l hm))
          (d.add l) q.object q.host (hp.of_sameRules hrules)
          hfirst.keeps).imp ?_ ?_
        · intro _ r hr
          rw [← Draft.add_addAll]
          exact hfirst.trans hr
        · rintro f r ⟨part, hbroken, hholding⟩
          refine ⟨l :: part, (hbroken.sameRules hrules).cons, ?_⟩
          rw [← Draft.add_addAll]
          exact hfirst.toHolding.trans hholding
      · intro f q hq
        refine ⟨[], hq.brokenOff rest, ?_⟩
        rw [Draft.addAll_nil]
        exact ⟨hk.notAdded hq, hq.onward⟩

/-- A clause is closed, or it is left open. -/
theorem loadClause_interrupted (hp : host.Plain) (hk : Keeps d e host.heap)
    (hnonzero : ∀ l ∈ clause, l ≠ 0) :
    Ends (fun _ p => Taken (d.addAll clause).close clause e host p)
      (LeftOpen d clause e host)
      ((loadClause clause : Op TableEngine Unit) ⟨e, host⟩) := by
  unfold loadClause
  rw [ends_bind]
  refine (addLiterals_interrupted hnonzero d e host hp hk).imp ?_
    fun _ _ h => h
  intro _ q htaken
  have hon := htaken.onward
  have hkeeps := htaken.keeps
  refine (terminateClause_ends (hp.of_sameRules hon.within.rules)
    hkeeps).imp ?_ ?_
  · intro _ r hr
    exact ⟨⟨hkeeps.closed hr, hon.trans hr.onward⟩,
      hr.varCount.trans htaken.vars⟩
  · intro f r hr
    refine ⟨clause, ?_, ?_, hon.trans hr.onward⟩
    · rw [hr.fault]
      exact .memory _ (List.prefix_refl _) fun hg =>
        hr.not_generous (hg.of_sameRules hon.within.rules)
    · rw [hr.rest]
      exact hkeeps

-- =========================================================== clause sets

/-- Why the loading of a clause set has been given up behind some clauses
and at some literals: the next clause has a defect, or it has been broken
off. -/
inductive GivenUp (host : Host) (v : Value) (early : List (List Int))
    (part : List Int) : Fault → Prop where
  | defect (d : Defect) (found : Value) (first : d.First v found)
      (place : d.index = early.length) (nothing : part = []) :
      GivenUp host v early part (d.fault found)
  | broken (w : Value) (clause : List Int) (f : Fault)
      (item : v.itemList[early.length]? = some w)
      (writes : w.IsCleanClause clause)
      (broken : BrokenOff host clause part f) :
      GivenUp host v early part f

/-- Values have been loaded as far as one that was not. -/
def StoppedAt (values : List Value) (count : Nat) (d : Draft)
    (e : TableEngine) (host : Host) (f : Fault) (p : Placed TableEngine) :
    Prop :=
  ∃ good w rest early part, values = good ++ w :: rest
    ∧ List.Forall₂ Value.IsCleanClause good early
    ∧ Holding ((d.loaded early).addAll part) e host p
    ∧ (part = [] ∧ Clause.validate w (.int ↑(count + good.length)) = .error f
      ∨ ∃ clause, w.IsCleanClause clause ∧ BrokenOff host clause part f)

/-- Values are loaded one after the other, up to one that is not. -/
theorem loadNext_interrupted (values : List Value) :
    ∀ (count : Nat) (d : Draft) (e : TableEngine) (host : Host),
      host.Plain → Keeps d e host.heap →
      Ends (fun count' p => ∃ clauses,
          List.Forall₂ Value.IsCleanClause values clauses
            ∧ count' = count + clauses.length
            ∧ Taken (d.loaded clauses) clauses.flatten e host p)
        (StoppedAt values count d e host)
        (values.foldlM loadNext count ⟨e, host⟩) := by
  induction values with
  | nil =>
      intro count d e host _ hk
      exact ⟨[], .nil, rfl, .start hk⟩
  | cons w values ih =>
      intro count d e host hp hk
      rw [List.foldlM_cons, ends_bind]
      unfold loadNext
      cases hcheck : Clause.validate w (.int count) with
      | error f =>
          refine ⟨[], w, values, [], [], rfl, .nil, ?_, Or.inl ⟨rfl, ?_⟩⟩
          · rw [Draft.addAll_nil]
            exact (Taken.start hk).toHolding
          · exact hcheck
      | ok clause =>
          have hclean := Clause.validate_iff.mp hcheck
          simp only [ends_bind, ends_pure]
          refine (loadClause_interrupted hp hk hclean.2).imp ?_ ?_
          · intro _ q hfirst
            have hrules := hfirst.onward.within.rules
            refine (ih (count + 1) _ q.object q.host
              (hp.of_sameRules hrules) hfirst.keeps).imp ?_ ?_
            · rintro count' r ⟨clauses, hclauses, rfl, htaken⟩
              refine ⟨clause :: clauses, .cons hclean hclauses, ?_,
                hfirst.trans htaken⟩
              rw [List.length_cons, Nat.add_assoc, Nat.add_comm 1]
            · rintro f r ⟨good, x, rest, early, part, rfl, hgood, hholding,
                hwhy⟩
              refine ⟨w :: good, x, rest, clause :: early, part, rfl,
                .cons hclean hgood, hfirst.toHolding.trans hholding, ?_⟩
              refine hwhy.imp ?_ ?_
              · rintro ⟨hpart, hobjection⟩
                refine ⟨hpart, ?_⟩
                rwa [List.length_cons, Nat.add_comm good.length 1,
                  ← Nat.add_assoc]
              · rintro ⟨c, hc, hbroken⟩
                exact ⟨c, hc, hbroken.sameRules hrules⟩
          · rintro f q ⟨part, hbroken, hholding⟩
            exact ⟨[], w, values, [], part, rfl, .nil, hholding,
              Or.inr ⟨clause, hclean, hbroken⟩⟩

/-- A loading has been given up behind some clauses, with some literals of
the next one open. -/
def Interrupted (v : Value) (d : Draft) (e : TableEngine) (host : Host)
    (f : Fault) (p : Placed TableEngine) : Prop :=
  ∃ early part,
    List.Forall₂ Value.IsCleanClause (v.itemList.take early.length) early
      ∧ GivenUp host v early part f
      ∧ Holding ((d.loaded early).addAll part) e host p

/-- A clause set is loaded behind whatever an engine keeps, or the loading
is given up. -/
theorem loadClauses_interrupted (hp : host.Plain) (hk : Keeps d e host.heap)
    (v : Value) :
    Ends (fun count p => ∃ clauses, v.IsCleanSet clauses
          ∧ count = clauses.length
          ∧ Taken (d.loaded clauses) clauses.flatten e host p)
      (Interrupted v d e host)
      ((loadClauses v : Op TableEngine Nat) ⟨e, host⟩) := by
  unfold loadClauses
  cases hseq : v.sequence? with
  | none =>
      refine ⟨[], [], .nil, ?_, ?_⟩
      · exact .defect .shape v (Defect.first_shape hseq) rfl rfl
      · rw [Draft.addAll_nil]
        exact (Taken.start hk).toHolding
  | some items =>
      simp only [Items.foldlM_eq]
      refine (loadNext_interrupted items.toList 0 d e host hp hk).imp ?_ ?_
      · rintro count q ⟨clauses, hclauses, rfl, htaken⟩
        exact ⟨clauses, ⟨items, hseq, hclauses⟩, Nat.zero_add _, htaken⟩
      · rintro f q ⟨good, w, rest, early, part, hitems, hgood, hholding,
          hwhy⟩
        have hlist : v.itemList = good ++ w :: rest :=
          (Value.itemList_of_sequence hseq).trans hitems
        have hlength : good.length = early.length := hgood.length_eq
        refine ⟨early, part, ?_, ?_, hholding⟩
        · rw [hlist, ← hlength, List.take_left' rfl]
          exact hgood
        rcases hwhy with ⟨rfl, hobjection⟩ | ⟨clause, hclean, hbroken⟩
        · rw [Nat.zero_add] at hobjection
          obtain ⟨d, found, hin, hleast, rfl⟩ :=
            Clause.validate_first hobjection
          exact .defect (.clause good.length d) found
            (Defect.first_of_clause hseq hitems hgood hin hleast) hlength rfl
        · refine .broken w clause f ?_ hclean hbroken
          rw [hlist, ← hlength, List.getElem?_append_right (Nat.le_refl _),
            Nat.sub_self]
          rfl

-- ============================================================ new engines

variable {before more : List (List Int)}

/-- After the clauses before, more have been loaded. -/
structure Loaded (before more : List (List Int)) (e : TableEngine)
    (host : Host) (p : Placed TableEngine) : Prop where
  keeps : Keeps { closed := before ++ more } p.object p.host.heap
  onward : Onward e host p
  vars : p.object.varCount = max e.varCount (largest more)

/-- Loading has been given up, on a generous host only because what was
loaded is unfit. -/
structure Spoiled (fit : Prop) (e : TableEngine) (host : Host) (f : Fault)
    (p : Placed TableEngine) : Prop where
  fault : f.Foreseen
  seated : Seated p.object p.host.heap
  moved : Moved e host p
  unfit : host.Generous → ¬ fit

/-- What is given up later is given up. -/
theorem Spoiled.after {fit fit' : Prop} (hq : Moved e host q)
    (h : Spoiled fit' q.object q.host f p) (hfit : fit → fit') :
    Spoiled fit e host f p where
  fault := h.fault
  seated := h.seated
  moved := hq.trans h.moved
  unfit hg hfits :=
    h.unfit (hg.of_sameRules hq.within.rules) (hfit hfits)

/-- Where memory is denied, whatever is loaded is spoiled. -/
theorem Denied.spoiled {use : MemoryUse} (hs : Seated e host.heap)
    (h : Denied use e host f p) (fit : Prop) : Spoiled fit e host f p := by
  refine ⟨?_, ?_, h.onward.toMoved, fun hg _ => h.not_generous hg⟩
  · rw [h.fault]
    trivial
  · rw [h.rest]
    exact hs

/-- A clause is broken off with a fault that is foreseen. -/
theorem BrokenOff.foreseen (h : BrokenOff host clause part f) :
    f.Foreseen := by
  cases h <;> trivial

/-- A generous host leaves one reason: a literal that does not fit. -/
theorem BrokenOff.unfit (h : BrokenOff host clause part f)
    (hg : host.Generous) :
    ∃ l ∈ clause, Word.literalMax < (l.natAbs : Int) := by
  cases h with
  | range l rest hnext hlarge =>
      exact ⟨l, by simp [hnext], hlarge⟩
  | memory _ _ hungenerous => exact absurd hg hungenerous

/-- A literal that is not accepted spoils what it is in. -/
theorem NotAdded.spoiled (hk : Keeps d e host.heap) {l : Int}
    (h : NotAdded l e host f p) {fit : Prop}
    (hfit : fit → (l.natAbs : Int) ≤ Word.literalMax) :
    Spoiled fit e host f p := by
  have hbroken := h.brokenOff []
  refine ⟨hbroken.foreseen, (hk.notAdded h).seated, h.onward.toMoved,
    fun hg hfits => ?_⟩
  obtain ⟨m, hm, hlarge⟩ := hbroken.unfit hg
  rw [List.mem_singleton.mp hm] at hlarge
  exact absurd (hfit hfits) (not_le.mpr hlarge)

/-- So is a loading. -/
theorem GivenUp.foreseen {v : Value} (h : GivenUp host v before part f) :
    f.Foreseen := by
  cases h with
  | defect d found => exact (d.fault_objection found).foreseen
  | broken _ _ _ _ _ hbroken => exact hbroken.foreseen

/-- The loading of a well-formed value is given up on no generous host. -/
theorem GivenUp.unfit {v : Value} (h : GivenUp host v before part f)
    (hg : host.Generous) : ¬ v.WellFormed := by
  rintro ⟨clauses, hset, hrange⟩
  have hclean := hset.clean hrange
  cases h with
  | defect d found hfirst => exact Defect.not_in_clean hclean hfirst.shown
  | broken w clause _ hitem hwrites hbroken =>
      obtain ⟨l, hl, hlarge⟩ := hbroken.unfit hg
      obtain ⟨c, hc, hwritten⟩ := hclean.of_mem (List.mem_of_getElem? hitem)
      rw [hwrites.1.unique hwritten.1] at hl
      exact absurd (hrange c hc l hl).2 (not_le.mpr hlarge)

/-- A clause set is loaded into a new engine, or the engine is spoiled. -/
theorem loadClauses_ends (hp : host.Plain) (hk : Keeps {} e host.heap)
    (v : Value) :
    Ends (fun count p => ∃ cs, v.IsClauseSet cs ∧ count = cs.length
          ∧ Loaded [] cs e host p)
      (Spoiled v.WellFormed e host)
      ((loadClauses v : Op TableEngine Nat) ⟨e, host⟩) := by
  refine (loadClauses_interrupted hp hk v).imp ?_ ?_
  · rintro count p ⟨clauses, hclean, hcount, htaken⟩
    have hkeeps := htaken.keeps
    rw [Draft.loaded_closed] at hkeeps
    refine ⟨clauses, hclean.isClauseSet, hcount, hkeeps, htaken.onward, ?_⟩
    rw [htaken.vars, largest_flatten]
  · rintro f p ⟨early, part, -, hgiven, hholding⟩
    exact ⟨hgiven.foreseen, hholding.keeps.seated, hholding.onward.toMoved,
      hgiven.unfit⟩

end TableEngine

end SatSession
