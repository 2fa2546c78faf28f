/-
An account with which every question to an engine can be answered.

A `Tally` is what is left of the calls once the memory is forgotten: the
draft, the number of variables, the assignment on show, and what the next
search depends on. It is moved on by a call that is made
(`Tally.told`), whatever the search of the engine is, and it tells all
that can be read off the engine (`Tallies.readout_eq`), the sizes of its
tables among it.

One call comes to one of three ends (`Tallies.perform`): it is made, or
its literal does not fit into a word, or memory is denied. The second
changes nothing. The third changes nothing either, but for one case: if
the store is denied a literal, the variable has been made to exist
(`Tally.left`). Making the call again then has the same effect as if it
had been made at once (`Tally.told_left`).
-/
import SatSession.Proofs.Tables.Abreast

namespace SatSession

open TableEngine

-- ============================================================ the calls

/-- Whether the literal of a call does not fit into a word. -/
def NumberCall.outOfRange : NumberCall → Bool
  | .addLiteral n => decide (Word.literalMax < n.natAbs)
  | .terminateClause | .reserveVariables _ | .setPropagationLimit _
  | .solve _ => false

/-- The variables that a call makes known. -/
def NumberCall.variables : NumberCall → Nat
  | .addLiteral n => n.natAbs
  | .reserveVariables n => n.toNat
  | .terminateClause | .setPropagationLimit _ | .solve _ => 0

/-- The variables that a call makes known although it was denied memory
for something: the store is the last that a literal needs. -/
def NumberCall.leaves : NumberCall → MemoryUse → Nat
  | .addLiteral n, .clauseStore => n.natAbs
  | _, _ => 0

-- ============================================================ the tally

/-- What an engine was told and found. -/
structure Tally where
  draft : Draft := {}
  /-- The number of variables that exist. -/
  vars : Nat := 0
  /-- The assignment on show. -/
  shown : Option Assignment := none
  limit : Int := 0
  /-- The number of searches made. -/
  searches : Nat := 0

namespace Tally

/-- The variables up to a number exist. -/
def knowing (t : Tally) (n : Nat) : Tally := { t with vars := max t.vars n }

/-- A literal is in the open clause. -/
def add (t : Tally) (l : Int) : Tally := { t with draft := t.draft.add l }

/-- The open clause is closed, which ends what is on show. -/
def close (t : Tally) : Tally :=
  { t with draft := t.draft.close, shown := none }

/-- What a search says at this point. -/
def verdict (search : Search) (t : Tally) (budget : Int) : Verdict :=
  search t.searches ⟨t.draft.closed.map Formula.ofClause, t.vars,
    limitInForce t.limit budget⟩

/-- An assignment found is on show for the variables that exist. -/
def solved (t : Tally) (v : Verdict) : Tally :=
  { t with
    searches := t.searches + 1
    shown := match v with
      | .sat a => some fun i => a i && decide (i ≤ t.vars)
      | .unsat | .unknown => none }

/-- The tally after a call for which there is memory. -/
def told (search : Search) (t : Tally) (call : NumberCall) : Tally :=
  if call.outOfRange then t
  else match call with
    | .addLiteral n =>
        if n = 0 then t.close else (t.knowing n.natAbs).add n
    | .terminateClause => t.close
    | .reserveVariables n => t.knowing n.toNat
    | .setPropagationLimit n => { t with limit := n }
    | .solve budget => t.solved (t.verdict search budget)

/-- The tally after a call that was denied memory for something. -/
def left (t : Tally) (use : MemoryUse) (call : NumberCall) : Tally :=
  t.knowing (call.leaves use)

@[simp] theorem knowing_zero (t : Tally) : t.knowing 0 = t := by
  simp [knowing]

@[simp] theorem knowing_knowing (t : Tally) (n : Nat) :
    (t.knowing n).knowing n = t.knowing n := by
  simp [knowing]

/-- A call with a literal that does not fit changes nothing. -/
theorem told_unfit (search : Search) (t : Tally) {call : NumberCall}
    (hunfit : call.outOfRange = true) : t.told search call = t := by
  unfold told
  rw [if_pos hunfit]

/-- A call that was denied memory has its full effect when it is made
again. -/
theorem told_left (search : Search) (t : Tally) (use : MemoryUse)
    {call : NumberCall} (hfits : call.outOfRange = false) :
    (t.left use call).told search call = t.told search call := by
  unfold left NumberCall.leaves
  split
  next n =>
    unfold told
    rw [hfits]
    by_cases hn : n = 0 <;> simp [hn]
  next => rw [knowing_zero]

/-- A call that is made makes its variables known. -/
theorem vars_told (search : Search) (t : Tally) {call : NumberCall}
    (hfits : call.outOfRange = false) :
    (t.told search call).vars = max t.vars call.variables := by
  unfold told NumberCall.variables
  rw [hfits]
  cases call with
  | addLiteral n =>
      by_cases hn : n = 0 <;> simp [hn, close, add, knowing]
  | _ => simp [close, knowing, solved]

/-- A call in range does to the draft of a tally what it does to a
draft. -/
theorem draft_told (search : Search) (t : Tally) {call : NumberCall}
    (hfits : call.outOfRange = false) :
    (t.told search call).draft = t.draft.told call := by
  unfold told Draft.told
  rw [hfits]
  cases call with
  | addLiteral n => by_cases hn : n = 0 <;> simp [hn, close, add, knowing]
  | _ => rfl

end Tally

namespace TableEngine

variable {e : TableEngine} {host : Host} {h : Heap} {t t' : Tally}
  {shown : Option Assignment} {search : Search} {p q : Placed TableEngine}

-- ============================================================ the model

/-- The value table shows an assignment, or nothing, and is zero beyond
the variables that exist. -/
structure Exposes (shown : Option Assignment) (e : TableEngine) (h : Heap) :
    Prop where
  blank : ∀ i, e.varCount < i → i ≤ e.capacity →
    h.byte? e.values i = some 0
  flag : e.hasModel = shown.isSome
  shows : ∀ a ∈ shown, Shows a e h
  beyond : ∀ a ∈ shown, ∀ i, e.varCount < i → a i = false

/-- Where the flag is down, nothing is exposed as long as unknown variables
are blank. -/
theorem exposes_none (hblank : ∀ i, e.varCount < i → i ≤ e.capacity →
      h.byte? e.values i = some 0)
    (hflag : e.hasModel = false) : Exposes none e h :=
  ⟨hblank, hflag, by simp, by simp⟩

/-- A fresh engine exposes nothing. -/
theorem fresh_exposes (search : Search) {values store : BlockId}
    (hzero : h.contents values
      = Array.replicate (valueBytes initialCapacity) 0) :
    Exposes none (fresh search values store) h :=
  exposes_none (fresh_display search hzero).blank rfl

/-- What is exposed depends on the value table alone. -/
theorem Exposes.of_contents (hx : Exposes shown e h) {h' : Heap}
    (hsame : h'.contents e.values = h.contents e.values) :
    Exposes shown e h' :=
  { hx with
    blank := fun i hi hcap => by
      rw [Heap.byte?, hsame]
      exact hx.blank i hi hcap
    shows := fun a ha => (hx.shows a ha).of_contents hsame }

/-- New variables are exposed as false. -/
theorem Exposes.ensured (hs : Seated e host.heap)
    (hx : Exposes shown e host.heap) {n : Nat} (hp : Ensured n e host p) :
    Exposes shown p.object p.host.heap := by
  refine ⟨fun i hi hcap => ?_, ?_, fun a ha => ?_, fun a ha i hi => ?_⟩
  · rw [hp.object] at hi hcap ⊢
    have hi : max e.varCount n < i := hi
    exact hp.blank hs hx.blank (by omega) hcap
  · rw [hp.object]
    exact hx.flag
  · exact hp.shows hs hx.blank (hx.shows a ha) (hx.beyond a ha)
  · rw [hp.object] at hi
    have hi : max e.varCount n < i := hi
    exact hx.beyond a ha i (by omega)

/-- The store is not exposed. -/
theorem Exposes.pushed (hx : Exposes shown e host.heap) {n : Int}
    (hp : Pushed n e host p) : Exposes shown p.object p.host.heap := by
  have hsame := hx.of_contents hp.values
  rw [hp.object]
  exact ⟨hsame.blank, hsame.flag, hsame.shows, hsame.beyond⟩

/-- A search exposes what it has found, cut to the known variables. -/
theorem Exposes.searched (hx : Exposes shown e host.heap) {limit : Nat}
    {outcome : Outcome} (hp : Searched limit e host outcome p) :
    Exposes (match e.verdict limit with
        | .sat a => some fun i => a i && decide (i ≤ e.varCount)
        | .unsat | .unknown => none)
      p.object p.host.heap := by
  have hcount : p.object.varCount = e.varCount := by rw [hp.object]
  have hblank : ∀ i, p.object.varCount < i → i ≤ p.object.capacity →
      p.host.heap.byte? p.object.values i = some 0 := by
    intro i hi hcap
    rw [hp.object] at hi hcap ⊢
    exact (hp.rest i hi).trans (hx.blank i hi hcap)
  have hflag : p.object.hasModel = decide (outcome = .satisfiable) := by
    rw [hp.object]
  rw [hp.said] at hflag
  have hshows := hp.shows
  cases hverdict : e.verdict limit with
  | sat a =>
      rw [hverdict] at hflag hshows
      refine ⟨hblank, hflag, ?_, ?_⟩
      · intro b hb
        obtain rfl := Option.mem_some.mp hb
        intro i h1 hi
        rw [hshows a rfl i h1 hi]
        simp [show i ≤ e.varCount by omega]
      · intro b hb i hi
        obtain rfl := Option.mem_some.mp hb
        simp [show ¬ i ≤ e.varCount by omega]
  | _ =>
      rw [hverdict] at hflag
      exact exposes_none hblank hflag

-- ============================================================ agreement

/-- A live engine is as its tally says. -/
structure Tallies (search : Search) (t : Tally) (p : Placed TableEngine) :
    Prop where
  plain : p.host.Plain
  keeps : Keeps t.draft p.object p.host.heap
  vars : p.object.varCount = t.vars
  settings : ∃ verbosity, Settings p.object verbosity t.limit
  search : p.object.search = search
  searches : p.object.searches = t.searches
  exposes : Exposes t.shown p.object p.host.heap
  fitted : Fitted p.object

namespace Tallies

/-- What a call does not change it keeps. -/
theorem onward (h : Tallies search t ⟨e, host⟩) (hon : Onward e host p)
    (hk : Keeps t'.draft p.object p.host.heap)
    (hvars : p.object.varCount = t'.vars) (hlimit : t'.limit = t.limit)
    (hsearches : p.object.searches = t'.searches)
    (hx : Exposes t'.shown p.object p.host.heap) : Tallies search t' p := by
  obtain ⟨verbosity, hset⟩ := h.settings
  refine ⟨h.plain.of_sameRules hon.within.rules, hk, hvars, ⟨verbosity, ?_⟩,
    hon.search.trans h.search, hsearches, hx, hon.fitted h.fitted⟩
  rw [hlimit]
  exact hon.settings hset

/-- A variable that is made to exist is known to the tally. -/
theorem ensured (h : Tallies search t ⟨e, host⟩) {n : Nat}
    (hp : Ensured n e host p) : Tallies search (t.knowing n) p := by
  have hvars : e.varCount = t.vars := h.vars
  refine h.onward hp.onward (h.keeps.ensured hp) ?_ rfl ?_
    (h.exposes.ensured h.keeps.seated hp)
  · rw [hp.object, Tally.knowing, ← hvars]
    rfl
  · rw [hp.object]
    exact h.searches

/-- A denied request leaves the tally. -/
theorem denied (h : Tallies search t ⟨e, host⟩) {use : MemoryUse} {f : Fault}
    (hp : Denied use e host f p) : Tallies search t p := by
  have hon := hp.onward
  rw [hp.rest] at hon ⊢
  exact h.onward hon h.keeps h.vars rfl h.searches h.exposes

/-- A literal that is taken is entered, with its variable. -/
theorem added (h : Tallies search t ⟨e, host⟩) {l : Int} (hl : l ≠ 0)
    (hp : Added l e host p) :
    Tallies search ((t.knowing l.natAbs).add l) p := by
  have hk := h.keeps.added hl hp
  obtain ⟨q, hq, hpush⟩ := hp.steps
  have hknown := h.ensured hq
  refine hknown.onward hpush.onward hk ?_ rfl ?_
    (hknown.exposes.pushed hpush)
  · rw [hpush.object]
    exact hknown.vars
  · rw [hpush.object]
    exact hknown.searches

/-- A clause that is closed is entered. -/
theorem closed (h : Tallies search t ⟨e, host⟩)
    (hp : Closed t.draft.opened e host p) : Tallies search t.close p := by
  have hk := h.keeps.closed hp
  have hon := hp.onward
  obtain ⟨q, hq, rfl⟩ := hp
  refine h.onward hon hk ?_ rfl ?_
    (exposes_none (h.exposes.pushed hq).blank rfl)
  · show q.object.varCount = t.vars
    rw [hq.object]
    exact h.vars
  · show q.object.searches = t.searches
    rw [hq.object]
    exact h.searches

/-- A search is entered with its verdict. -/
theorem searched (h : Tallies search t ⟨e, host⟩) {budget : Int}
    {outcome : Outcome}
    (hp : Searched (limitInForce t.limit budget) e host outcome p) :
    Tallies search (t.solved (t.verdict search budget)) p := by
  have hs := h.keeps.seated
  have hvars : e.varCount = t.vars := h.vars
  have hsaid : e.verdict (limitInForce t.limit budget)
      = t.verdict search budget := by
    unfold verdict Tally.verdict
    rw [show e.search = search from h.search,
      show e.searches = t.searches from h.searches, hvars, h.keeps.asserted]
  have hx := h.exposes.searched hp
  rw [hsaid, hvars] at hx
  refine h.onward (hp.onward hs) (h.keeps.searched hp) ?_ rfl ?_ hx
  · rw [hp.object]
    exact hvars
  · rw [hp.object]
    exact congrArg (· + 1) h.searches

/-- The settings matter to nothing but the limit of the tally. -/
theorem set (h : Tallies search t ⟨e, host⟩) {v l : Value}
    {verbosity limit : Int}
    (hset : Settings { e with verbosity := v, propagationLimit := l }
      verbosity limit) :
    Tallies search { t with limit := limit }
      ⟨{ e with verbosity := v, propagationLimit := l }, host⟩ := by
  have hk := h.keeps
  have hs := hk.seated
  have hx := h.exposes
  have hf := h.fitted
  exact ⟨h.plain, { hk with seated := { hs with } }, h.vars,
    ⟨verbosity, hset⟩, h.search, h.searches,
    ⟨hx.blank, hx.flag, hx.shows, hx.beyond⟩,
    ⟨hf.capacity, hf.wordCapacity⟩⟩

end Tallies

-- ============================================================= one call

/-- A call was made. -/
structure Accepted (search : Search) (t : Tally) (call : NumberCall)
    (p q : Placed TableEngine) : Prop where
  fits : call.outOfRange = false
  tallies : Tallies search (t.told search call) q
  moved : Moved p.object p.host q

/-- How a call is not made: its literal does not fit, or memory is denied
for some use. -/
inductive Declined (search : Search) (t : Tally) (call : NumberCall)
    (p : Placed TableEngine) (f : Fault) (q : Placed TableEngine) : Prop where
  | range (unfit : call.outOfRange = true)
      (fault : ∃ n, call = .addLiteral n ∧ f = .literalRange (.int n))
      (rest : q = p)
  | denied (use : MemoryUse) (fits : call.outOfRange = false)
      (fault : f = .outOfMemory use) (ungenerous : ¬ p.host.Generous)
      (tallies : Tallies search (t.left use call) q)
      (moved : Moved p.object p.host q)

namespace Tallies

/-- Closing a clause closes it in the tally, or is denied its
terminator. -/
theorem terminateClause (h : Tallies search t ⟨e, host⟩) :
    Ends (fun _ q => Tallies search t.close q ∧ Moved e host q)
      (Denied .clauseStore e host) (TableEngine.terminateClause ⟨e, host⟩) :=
  (terminateClause_ends h.plain h.keeps).imp
    (fun _ _ hq => ⟨h.closed hq, hq.onward.toMoved⟩) fun _ _ hq => hq

/-- A denied request with which a call leaves nothing is declined. -/
theorem declined (h : Tallies search t ⟨e, host⟩) {use : MemoryUse}
    {call : NumberCall} (hfits : call.outOfRange = false)
    (hleaves : call.leaves use = 0) {f : Fault}
    (hq : Denied use e host f q) :
    Declined search t call ⟨e, host⟩ f q := by
  refine .denied use hfits hq.fault hq.not_generous ?_ hq.onward.toMoved
  rw [Tally.left, hleaves, Tally.knowing_zero]
  exact h.denied hq

/-- A literal is accepted by the tally, or declined for one of the reasons
it knows. -/
theorem addLiteral (h : Tallies search t ⟨e, host⟩) {n : Int} (hn : n ≠ 0) :
    Ends (fun _ => Accepted search t (.addLiteral n) ⟨e, host⟩)
      (Declined search t (.addLiteral n) ⟨e, host⟩)
      (TableEngine.addLiteral (.int n) ⟨e, host⟩) := by
  have hs := h.keeps.seated
  by_cases hrange : Word.literalMax < n.natAbs
  · rw [addLiteral_range hs.live hrange]
    exact .range (decide_eq_true hrange) ⟨n, rfl, rfl⟩ rfl
  · have hfits : (NumberCall.addLiteral n).outOfRange = false :=
      decide_eq_false hrange
    refine (addLiteral_ends h.plain hs hn).imp ?_ ?_
    · intro _ q hq
      refine ⟨hfits, ?_, hq.onward.toMoved⟩
      rw [Tally.told, hfits]
      simp only [Bool.false_eq_true, if_false, if_neg hn]
      exact h.added hn hq
    · intro f q hq
      have hon := hq.onward
      rcases hq with ⟨hlarge, -⟩ | hdeny | ⟨r, hr, hdeny⟩
      · exact absurd hlarge hrange
      · exact h.declined hfits rfl hdeny
      · refine .denied .clauseStore hfits hdeny.fault (fun hg => ?_)
          ((h.ensured hr).denied hdeny) hon.toMoved
        exact hdeny.not_generous (hg.of_sameRules hr.within.rules)

/-- A call is made, or it is declined. -/
theorem perform (h : Tallies search t p) (call : NumberCall) :
    Ends (fun _ => Accepted search t call p) (Declined search t call p)
      (call.perform p) := by
  obtain ⟨e, host⟩ := p
  have hs := h.keeps.seated
  cases call with
  | addLiteral n =>
      show Ends _ _ (TableEngine.addLiteral (.int n) ⟨e, host⟩)
      by_cases hn : n = 0
      · subst hn
        rw [addLiteral_zero hs.live]
        refine h.terminateClause.imp ?_ ?_
        · exact fun _ q hq => ⟨rfl, hq.1, hq.2⟩
        · exact fun f q hq => h.declined rfl rfl hq
      · exact h.addLiteral hn
  | terminateClause =>
      refine h.terminateClause.imp ?_ ?_
      · exact fun _ q hq => ⟨rfl, hq.1, hq.2⟩
      · exact fun f q hq => h.declined rfl rfl hq
  | reserveVariables n =>
      refine (reserveVariables_ends h.plain hs n).imp ?_ ?_
      · exact fun _ q hq => ⟨rfl, h.ensured hq, hq.onward.toMoved⟩
      · exact fun f q hq => h.declined rfl rfl hq
  | setPropagationLimit n =>
      obtain ⟨verbosity, hset⟩ := h.settings
      exact ⟨rfl, h.set ⟨hset.verbosity, rfl⟩,
        moved_set e host e.verbosity (.int n)⟩
  | solve budget =>
      show Ends _ _ ((TableEngine.solve (.int budget) >>= fun _ => pure ())
        ⟨e, host⟩)
      obtain ⟨verbosity, hset⟩ := h.settings
      rw [ends_bind]
      refine (solve_ends hs hset budget).imp_ok ?_
      intro code q hpost
      obtain ⟨outcome, -, hq⟩ := hpost
      exact ⟨rfl, h.searched hq, (hq.onward hs).toMoved⟩

end Tallies

-- ============================================================== readout

/-- What a question came to. -/
def answerOf {σ α : Type} : EStateM.Result Fault σ α → Except Fault α
  | .ok a _ => .ok a
  | .error f _ => .error f

@[simp] theorem answerOf_ofExcept {σ α : Type} (r : Except Fault α)
    (s : σ) :
    answerOf ((MonadExcept.ofExcept r : EStateM Fault σ α) s) = r := by
  cases r <;> rfl

/-- All that can be read off an engine. -/
structure Readout where
  clauses : Except Fault (List (List Int))
  /-- The literals of the open clause. -/
  pending : Except Fault (List Int)
  asserted : List Formula
  varCount : Nat
  hasModel : Bool
  valueOf : Int → Except Fault Value
  /-- The bytes of the value table. -/
  valueBytes : Nat
  /-- The bytes of the clause store. -/
  storeBytes : Nat

/-- What is read off an engine, by the calls that tell it. -/
def readout (p : Placed TableEngine) : Readout where
  clauses := answerOf (clauses p)
  pending := answerOf (storedWords p.object.clauseStart p.object.stored p)
  asserted := p.object.asserted.toList
  varCount := p.object.varCount
  hasModel := p.object.hasModel
  valueOf i := answerOf (valueOf (.int i) p)
  valueBytes := p.host.heap.size p.object.values
  storeBytes := p.host.heap.size p.object.store

/-- The draft is read off the engine that keeps it. -/
theorem Keeps.reads {d : Draft} {p : Placed TableEngine}
    (h : Keeps d p.object p.host.heap) :
    (readout p).clauses = .ok d.closed
      ∧ (readout p).pending = .ok d.opened := by
  have hclosed : clauses p = .ok d.closed p := h.clauses_eq
  have hopened : storedWords p.object.clauseStart p.object.stored p
      = .ok d.opened p := h.pending_eq
  unfold readout
  rw [hclosed, hopened]
  exact ⟨rfl, rfl⟩

end TableEngine

namespace Tally

/-- The value of a variable in the assignment on show. -/
def valueOf (t : Tally) (i : Int) : Except Fault Value :=
  match t.shown with
  | none => .error .noModel
  | some a =>
      if 1 ≤ i ∧ i ≤ t.vars then .ok (.int (if a i.toNat then 1 else -1))
      else .error (.variableRange (.int i) t.vars)

/-- What a tally says that is read off the engine. -/
def readout (t : Tally) : Readout where
  clauses := .ok t.draft.closed
  pending := .ok t.draft.opened
  asserted := t.draft.closed.map Formula.ofClause
  varCount := t.vars
  hasModel := t.shown.isSome
  valueOf := t.valueOf
  valueBytes := TableEngine.valueBytes (room t.vars)
  storeBytes := TableEngine.storeBytes (room t.draft.words.length)

end Tally

namespace TableEngine

variable {t : Tally} {search : Search} {p : Placed TableEngine}

/-- A value is read as the tally has it, and nothing is changed. -/
theorem Tallies.valueOf_eq (h : Tallies search t p) (i : Int) :
    valueOf (.int i) p
      = (MonadExcept.ofExcept (t.valueOf i) : Op TableEngine Value) p := by
  obtain ⟨e, host⟩ := p
  have hflag : e.hasModel = t.shown.isSome := h.exposes.flag
  have hvars : e.varCount = t.vars := h.vars
  have hshows := h.exposes.shows
  unfold Tally.valueOf
  cases hshown : t.shown with
  | none =>
      rw [hshown] at hflag
      rw [valueOf_noModel hflag]
      rfl
  | some a =>
      rw [hshown] at hflag hshows
      simp only
      by_cases hi : 1 ≤ i ∧ i ≤ t.vars
      · obtain ⟨k, rfl⟩ := Int.eq_ofNat_of_zero_le (show 0 ≤ i by omega)
        rw [if_pos hi, valueOf_eq hflag (hshows a rfl) (by omega) (by omega)]
        rfl
      · rw [if_neg hi, valueOf_range hflag (by omega), hvars]
        rfl

/-- What is read off an engine is what its tally says. -/
theorem Tallies.readout_eq (h : Tallies search t p) :
    readout p = t.readout := by
  obtain ⟨e, host⟩ := p
  have hk := h.keeps
  have hs := hk.seated
  have hvars : e.varCount = t.vars := h.vars
  have hflag : e.hasModel = t.shown.isSome := h.exposes.flag
  have hasserted : e.asserted.toList = t.draft.closed.map Formula.ofClause :=
    hk.asserted
  have hvalues : (fun i => answerOf (valueOf (.int i) ⟨e, host⟩))
      = t.valueOf := by
    funext i
    rw [h.valueOf_eq, answerOf_ofExcept]
  have hcapacity : e.capacity = room t.vars := by
    rw [← hvars]
    exact h.fitted.capacity
  have hstore : e.wordCapacity = room t.draft.words.length := by
    rw [← hk.stored_eq]
    exact h.fitted.wordCapacity
  unfold readout Tally.readout
  simp only [hk.clauses_eq, hk.pending_eq, hasserted, hvars, hflag, hvalues,
    hs.values_size, hs.store_size, hcapacity, hstore]
  rfl

end TableEngine

end SatSession
