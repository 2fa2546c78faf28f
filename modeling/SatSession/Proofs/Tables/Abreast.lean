/-
A live engine at work, whatever is called.

`Abreast own shown d limit` is what every call of a live engine keeps up:
the engine sits in the blocks `own` on a host that takes back what it is
given, keeps the draft `d`, has the limit `limit` installed, and shows
what `shown` says, which is an assignment for the closed clauses or
nothing. A call that succeeds moves the draft on, and what is shown with
it if it closes a clause or searches; a call that fails leaves both.
-/
import SatSession.Proofs.Tables.Display
import SatSession.Proofs.Tables.History

namespace SatSession

/-- Clauses that some assignment satisfies. -/
def Satisfiable (clauses : List (List Int)) : Prop :=
  ∃ a : Assignment, ∀ c ∈ clauses, clauseHolds a c = true

-- ============================================================ the calls

/-- Whether a call closes a clause if it succeeds. -/
def NumberCall.closes : NumberCall → Bool
  | .addLiteral n => n == 0
  | .terminateClause => true
  | .reserveVariables _ | .setPropagationLimit _ | .solve _ => false

/-- A call that closes adds the open clause to the closed ones, any other
call none. -/
theorem Draft.closed_told (d : Draft) (call : NumberCall) :
    (d.told call).closed
      = if call.closes then d.closed ++ [d.opened] else d.closed := by
  cases call with
  | addLiteral n =>
      unfold told NumberCall.closes
      by_cases hn : n = 0
      · simp [hn, close]
      · simp [hn, add]
  | terminateClause => rfl
  | reserveVariables n => rfl
  | setPropagationLimit n => rfl
  | solve budget => rfl

/-- The limit after a call that succeeded. -/
def NumberCall.limit : NumberCall → Int → Int
  | .setPropagationLimit n, _ => n
  | _, limit => limit

namespace TableEngine

-- ============================================================== one call

variable {e : TableEngine} {host host' : Host} {d d' : Draft}
  {shown shown' : Option Nat} {limit : Int} {own : List BlockId}
  {p : Placed TableEngine}

/-- A live engine that keeps a draft and shows what it should. -/
structure Abreast (own : List BlockId) (shown : Option Nat) (d : Draft)
    (limit : Int) (p : Placed TableEngine) : Prop where
  plain : p.host.Plain
  takesBack : p.host.TakesBack
  keeps : Keeps d p.object p.host.heap
  settings : ∃ verbosity, Settings p.object verbosity limit
  sound : p.object.search.Sound
  display : Display shown d p.object p.host.heap
  tables : p.object.tables = own

namespace Abreast

/-- An engine further on, with what it keeps and shows then. -/
theorem onward (h : Abreast own shown d limit ⟨e, host⟩)
    (hon : Onward e host p) (hk : Keeps d' p.object p.host.heap)
    (hd : Display shown' d' p.object p.host.heap) :
    Abreast own shown' d' limit p := by
  obtain ⟨verbosity, hset⟩ := h.settings
  have hrules := hon.within.rules
  refine ⟨h.plain.of_sameRules hrules, h.takesBack.of_sameRules hrules, hk,
    ⟨verbosity, hon.settings hset⟩, ?_, hd, hon.tables.trans h.tables⟩
  rw [hon.search]
  exact h.sound

/-- A denied request changes nothing that is kept or shown. -/
theorem denied (h : Abreast own shown d limit ⟨e, host⟩) {use : MemoryUse}
    {f : Fault} (hp : Denied use e host f p) :
    Abreast own shown d limit p := by
  refine h.onward hp.onward ?_ (h.display.denied hp)
  rw [hp.rest]
  exact h.keeps

/-- Work on other blocks does not matter to the engine. -/
theorem elsewhere (h : Abreast own shown d limit ⟨e, host⟩)
    (hrules : Host.SameRules host host')
    (hsame : ∀ b ∈ own, host'.heap.contents b = host.heap.contents b) :
    Abreast own shown d limit ⟨e, host'⟩ := by
  have htables : e.tables = own := h.tables
  have hvalues : e.values ∈ own := by
    rw [← htables]
    exact List.mem_cons_self
  exact { h with
    plain := h.plain.of_sameRules hrules
    takesBack := h.takesBack.of_sameRules hrules
    keeps := h.keeps.of_contents fun b hb => hsame b (htables ▸ hb)
    display := h.display.of_contents (hsame e.values hvalues) }

/-- The settings do not matter to what is kept and shown. -/
theorem set (h : Abreast own shown d limit ⟨e, host⟩) {v l : Value}
    {verbosity limit' : Int}
    (hset : Settings { e with verbosity := v, propagationLimit := l }
      verbosity limit') :
    Abreast own shown d limit'
      ⟨{ e with verbosity := v, propagationLimit := l }, host⟩ := by
  have hk := h.keeps
  have hs := hk.seated
  have hd := h.display
  refine ⟨h.plain, h.takesBack, { hk with seated := { hs with } },
    ⟨verbosity, hset⟩, h.sound, ⟨hd.blank, hd.flag, fun n hn => ?_⟩,
    h.tables⟩
  obtain ⟨a, ha⟩ := hd.exhibits n hn
  exact ⟨a, ha.shows, ha.known, ha.beyond, ha.satisfies⟩

/-- A clause that is closed takes what is shown away; one that is refused
its terminator leaves all. -/
theorem terminateClause (h : Abreast own shown d limit ⟨e, host⟩) :
    Ends (fun _ p => Abreast own none d.close limit p)
      (fun _ p => Abreast own shown d limit p)
      (TableEngine.terminateClause ⟨e, host⟩) := by
  refine (terminateClause_ends h.plain h.keeps).imp ?_ ?_
  · intro _ p hp
    exact h.onward hp.onward (h.keeps.closed hp) (h.display.closed hp _)
  · intro f p hp
    exact h.denied hp

/-- A literal leaves what is shown, whether or not it is taken. -/
theorem addLiteral (h : Abreast own shown d limit ⟨e, host⟩) {l : Int}
    (hl : l ≠ 0) :
    Ends (fun _ p => Abreast own shown (d.add l) limit p)
      (fun _ p => Abreast own shown d limit p)
      (TableEngine.addLiteral (.int l) ⟨e, host⟩) := by
  have hs := h.keeps.seated
  refine (addLiteral_ends h.plain hs hl).imp ?_ ?_
  · intro _ p hp
    exact h.onward hp.onward (h.keeps.added hl hp) (h.display.added hs hp)
  · intro f p hp
    exact h.onward hp.onward (h.keeps.notAdded hp)
      (h.display.notAdded hs hp)

/-- So does a reservation. -/
theorem reserveVariables (h : Abreast own shown d limit ⟨e, host⟩) (n : Int) :
    Ends (fun _ p => Abreast own shown d limit p)
      (fun _ p => Abreast own shown d limit p)
      (TableEngine.reserveVariables (.int n) ⟨e, host⟩) := by
  have hs := h.keeps.seated
  refine (reserveVariables_ends h.plain hs n).imp ?_ ?_
  · intro _ p hp
    exact h.onward hp.onward (h.keeps.ensured hp) (h.display.ensured hs hp)
  · intro f p hp
    exact h.denied hp

/-- A search is answered, with the code for what it said, and shows what it
found. -/
theorem solve (h : Abreast own shown d limit ⟨e, host⟩) (budget : Int) :
    Ends (fun code p => ∃ outcome, code = .int (codeOf outcome)
          ∧ outcome = (e.verdict (limitInForce limit budget)).outcome
          ∧ Abreast own (shownFor outcome p.object.varCount) d limit p)
      never (TableEngine.solve (.int budget) ⟨e, host⟩) := by
  have hs := h.keeps.seated
  obtain ⟨verbosity, hset⟩ := h.settings
  refine (solve_ends hs hset budget).imp_ok ?_
  intro code p hpost
  obtain ⟨outcome, rfl, hp⟩ := hpost
  have hcount : p.object.varCount = e.varCount := by rw [hp.object]
  refine ⟨outcome, rfl, hp.said, ?_⟩
  rw [hcount]
  exact h.onward (hp.onward hs) (h.keeps.searched hp)
    (h.display.searched h.keeps h.sound hp)

/-- A call other than a search. -/
theorem perform (h : Abreast own shown d limit p) {call : NumberCall}
    (hcall : ∀ budget, call ≠ .solve budget) :
    Ends
      (fun _ p => Abreast own (if call.closes then none else shown)
        (d.told call) (call.limit limit) p)
      (fun _ p => Abreast own shown d (call.limit limit) p)
      (call.perform p) := by
  obtain ⟨e, host⟩ := p
  cases call with
  | addLiteral n =>
      show Ends _ _ (TableEngine.addLiteral (.int n) ⟨e, host⟩)
      by_cases hn : n = 0
      · subst hn
        rw [addLiteral_zero h.keeps.seated.live]
        exact h.terminateClause
      · simp only [NumberCall.closes, Draft.told, beq_iff_eq, if_neg hn]
        exact h.addLiteral hn
  | terminateClause => exact h.terminateClause
  | reserveVariables n => exact h.reserveVariables n
  | setPropagationLimit n =>
      obtain ⟨verbosity, hset⟩ := h.settings
      exact h.set (v := e.verbosity) (l := .int n)
        ⟨hset.verbosity, rfl⟩
  | solve budget => exact absurd rfl (hcall budget)

/-- Without a limit a search decides the closed clauses. -/
theorem decides (h : Abreast own shown d limit ⟨e, host⟩) {budget : Int}
    (hlimit : limit ≤ 0) (hbudget : budget ≤ 0) :
    ∃ code q, TableEngine.solve (.int budget) ⟨e, host⟩ = .ok (.int code) q
      ∧ (code = 10 ∧ Satisfiable d.closed
        ∨ code = 20 ∧ ¬ Satisfiable d.closed) := by
  have hfree : limitInForce limit budget = 0 := by
    unfold limitInForce smallestPositive
    rw [if_neg (by omega), if_neg (by omega)]
  obtain ⟨code, q, hsolve, outcome, rfl, hsaid, -⟩ :=
    (h.solve budget).exists_ok
  rw [hfree] at hsaid
  refine ⟨_, q, hsolve, ?_⟩
  cases hverdict : e.verdict 0 with
  | sat a =>
      rw [hsaid, hverdict]
      have ha := h.keeps.satisfiedBy_iff_holds.mp
        (h.sound.satisfied hverdict)
      exact Or.inl ⟨rfl, a, ha⟩
  | unsat =>
      rw [hsaid, hverdict]
      refine Or.inr ⟨rfl, fun hex => ?_⟩
      obtain ⟨a, ha⟩ := hex
      exact h.sound.denied hverdict a (h.keeps.satisfiedBy_iff_holds.mpr ha)
  | unknown => exact absurd (h.sound.limited hverdict) (Nat.lt_irrefl 0)

end Abreast

-- ============================================================= creation

/-- An engine is made without clauses, with nothing to show. -/
theorem made_abreast (hp : host.Plain) (ht : host.TakesBack)
    {search : Search} (hsound : search.Sound)
    (hmade : create search host = .ok e host') :
    Abreast e.tables none {} 0 ⟨e, host'⟩ := by
  have hfresh := create_ends hp search
  rw [hmade] at hfresh
  obtain ⟨values, store, rfl⟩ := hfresh.object
  have hrules := hfresh.holding.rules
  exact ⟨hp.of_sameRules hrules, ht.of_sameRules hrules, hfresh.keeps,
    ⟨0, rfl, rfl⟩, hsound, fresh_display search hfresh.zeros, rfl⟩

end TableEngine

end SatSession
