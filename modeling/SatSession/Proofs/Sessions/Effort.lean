/-
How much effort a search may take.

A limit is set on an engine and a budget given with each search, and the
search is to be held to the smaller of those that are positive (`cap`); if
none is, nothing holds it. What reaches the search is a word of 32 bits, in
which zero stands for no limit. The two agree as long as the smaller
positive limit fits into the word (`heldTo_eq_cap_iff`). From `2 ^ 32` on
only the remainder is left of it: a search is then held to less than it
was given, or to nothing at all, and a larger limit can be worth less than
a smaller one (`larger_limit_holds_harder`).

The limit of an engine is the one set last, whatever was called since
(`limitAfter`), and that of a session the one it was made with.
-/
import SatSession.Proofs.Sessions.Asking
import SatSession.Proofs.Tables.Usage
import SatSession.Search.Learning
import Mathlib.Order.Lattice.Nat
import Mathlib.Order.WithBot

namespace SatSession

-- ============================================================ the limits

/-- The effort that one limit allows: its own if it is positive, and any
otherwise. -/
def allowed (n : Int) : WithTop ℕ := if 0 < n then .some n.toNat else ⊤

/-- The effort that a limit and a budget allow together. -/
def cap (limit budget : Int) : WithTop ℕ :=
  min (allowed limit) (allowed budget)

/-- The effort that a word holds a search to. -/
def heldTo (word : Nat) : WithTop ℕ := if word = 0 then ⊤ else .some word

/-- The first limit that does not fit into a word. -/
def limitBound : Nat := 0x100000000

/-- A word can hold a search to this effort. -/
def Fits (effort : WithTop ℕ) : Prop := effort = ⊤ ∨ effort < .some limitBound

section

variable {limit limit' budget budget' : Int}

/-- A positive limit allows what it says. -/
theorem allowed_of_pos (h : 0 < limit) : allowed limit = .some limit.toNat :=
  if_pos h

/-- Any other limit allows everything. -/
theorem allowed_of_not_pos (h : ¬ 0 < limit) : allowed limit = ⊤ :=
  if_neg h

/-- A positive limit that is increased allows no less. -/
theorem allowed_mono (hpos : 0 < limit) (hle : limit ≤ limit') :
    allowed limit ≤ allowed limit' := by
  rw [allowed_of_pos hpos, allowed_of_pos (by omega), WithTop.coe_le_coe]
  omega

/-- What a limit and a budget come to: nothing that holds, or the smaller
positive one. -/
theorem smallestPositive_cases (limit budget : Int) :
    (TableEngine.smallestPositive limit budget = none
      ∧ cap limit budget = ⊤ ∧ limit ≤ 0 ∧ budget ≤ 0)
    ∨ ∃ m : Nat, TableEngine.smallestPositive limit budget = some (m : Int)
      ∧ cap limit budget = .some m ∧ 0 < m ∧ (0 < limit ∨ 0 < budget) := by
  unfold TableEngine.smallestPositive cap
  by_cases hlimit : 0 < limit <;> by_cases hbudget : 0 < budget
  · right
    refine ⟨(min limit budget).toNat, ?_, ?_, by omega, .inl hlimit⟩
    · rw [if_pos hlimit, if_pos hbudget]
      congr 1
      omega
    · rw [allowed_of_pos hlimit, allowed_of_pos hbudget, ← WithTop.coe_min]
      congr 1
      omega
  · right
    refine ⟨limit.toNat, ?_, ?_, by omega, .inl hlimit⟩
    · rw [if_pos hlimit, if_neg hbudget]
      congr 1
      omega
    · rw [allowed_of_pos hlimit, allowed_of_not_pos hbudget, min_top_right]
  · right
    refine ⟨budget.toNat, ?_, ?_, by omega, .inr hbudget⟩
    · rw [if_neg hlimit, if_pos hbudget]
      congr 1
      omega
    · rw [allowed_of_not_pos hlimit, allowed_of_pos hbudget, min_top_left]
  · left
    refine ⟨?_, ?_, by omega, by omega⟩
    · rw [if_neg hlimit, if_neg hbudget]
    · rw [allowed_of_not_pos hlimit, allowed_of_not_pos hbudget, min_self]

/-- Nothing holds a search just if no limit is positive. -/
theorem cap_eq_top_iff : cap limit budget = ⊤ ↔ limit ≤ 0 ∧ budget ≤ 0 := by
  rcases smallestPositive_cases limit budget with
    ⟨-, hcap, hlimit, hbudget⟩ | ⟨m, -, hcap, -, hpos⟩
  · exact iff_of_true hcap ⟨hlimit, hbudget⟩
  · rw [hcap]
    exact iff_of_false WithTop.coe_ne_top (by omega)

/-- Larger limits allow no less. -/
theorem cap_mono (hlimit : allowed limit ≤ allowed limit')
    (hbudget : allowed budget ≤ allowed budget') :
    cap limit budget ≤ cap limit' budget' :=
  min_le_min hlimit hbudget

-- ============================================================== the word

/-- Where everything is allowed, no limit is in force. -/
theorem limitInForce_of_top (h : cap limit budget = ⊤) :
    TableEngine.limitInForce limit budget = 0 := by
  unfold TableEngine.limitInForce
  rcases smallestPositive_cases limit budget with
    ⟨hnone, -⟩ | ⟨m, -, hcap, -⟩
  · rw [hnone]
  · rw [hcap] at h
    exact absurd h WithTop.coe_ne_top

/-- The word for the smaller positive limit is its remainder. -/
theorem limitInForce_of_nat {m : Nat} (h : cap limit budget = .some m) :
    TableEngine.limitInForce limit budget = m % limitBound ∧ 0 < m := by
  unfold TableEngine.limitInForce
  rcases smallestPositive_cases limit budget with
    ⟨-, hcap, -⟩ | ⟨k, hsome, hcap, hpos, -⟩
  · rw [hcap] at h
    exact absurd h.symm WithTop.coe_ne_top
  · rw [hcap] at h
    obtain rfl : k = m := WithTop.coe_injective h
    rw [hsome]
    refine ⟨?_, hpos⟩
    show ((k : Int) % Word.modulus).toNat = k % limitBound
    unfold Word.modulus limitBound
    omega

/-- What a search is held to, of any limits. -/
theorem heldTo_limitInForce {m : Nat} (h : cap limit budget = .some m) :
    heldTo (TableEngine.limitInForce limit budget)
      = if m % limitBound = 0 then ⊤ else .some (m % limitBound) := by
  rw [(limitInForce_of_nat h).1]
  rfl

/-- A search is held to the smaller positive limit just if that fits into
the word. -/
theorem heldTo_eq_cap_iff :
    heldTo (TableEngine.limitInForce limit budget) = cap limit budget
      ↔ Fits (cap limit budget) := by
  cases hcap : cap limit budget using WithTop.recTopCoe with
  | top =>
      rw [limitInForce_of_top hcap]
      exact iff_of_true rfl (.inl rfl)
  | coe m =>
      have hpos := (limitInForce_of_nat hcap).2
      have hfits : Fits (.some m) ↔ m < limitBound := by
        unfold Fits
        rw [WithTop.coe_lt_coe]
        exact or_iff_right WithTop.coe_ne_top
      rw [heldTo_limitInForce hcap, hfits]
      by_cases hlt : m < limitBound
      · rw [Nat.mod_eq_of_lt hlt, if_neg (Nat.ne_of_gt hpos)]
        exact iff_of_true rfl hlt
      · refine iff_of_false ?_ hlt
        have hless : m % limitBound < limitBound :=
          Nat.mod_lt m (by decide)
        split
        · exact WithTop.top_ne_coe
        · rw [WithTop.coe_inj]
          omega

/-- As long as the limits fit, allowing more never holds a search
harder. -/
theorem heldTo_mono (hlimit : allowed limit ≤ allowed limit')
    (hbudget : allowed budget ≤ allowed budget')
    (hfits : Fits (cap limit budget)) (hfits' : Fits (cap limit' budget')) :
    heldTo (TableEngine.limitInForce limit budget)
      ≤ heldTo (TableEngine.limitInForce limit' budget') := by
  rw [heldTo_eq_cap_iff.mpr hfits, heldTo_eq_cap_iff.mpr hfits']
  exact cap_mono hlimit hbudget

end

-- ================================================================= runs

namespace LiveCall

/-- The limit after a call. -/
def limit : LiveCall → Int → Int
  | number call, limit => call.limit limit
  | side _, limit => limit

/-- The limit that calls leave installed: the last one set, none at the
start. -/
def limitAfter (calls : List LiveCall) : Int :=
  calls.foldl (fun limit call => call.limit limit) 0

/-- One call more counts last. -/
theorem limitAfter_concat (calls : List LiveCall) (call : LiveCall) :
    limitAfter (calls ++ [call]) = call.limit (limitAfter calls) := by
  unfold limitAfter
  rw [List.foldl_append]
  rfl

end LiveCall

/-- A tally has the limit that it was told last. -/
theorem Tally.limit_told (search : Search) (t : Tally) (call : NumberCall) :
    (t.told search call).limit = call.limit t.limit := by
  unfold told
  split
  next hunfit =>
    cases call with
    | addLiteral n => rfl
    | _ => cases hunfit
  next =>
    cases call with
    | addLiteral n =>
        dsimp only
        split <;> rfl
    | _ => rfl

namespace TableEngine

variable {e : TableEngine} {base host host' : Host} {search : Search}
  {t : Tally} {own : List BlockId} {p : Placed TableEngine}

/-- One turn sets the limit or leaves it, whatever becomes of it. -/
theorem InUse.limit_turn (h : InUse search t own base p) (call : LiveCall) :
    ∃ t', InUse search t' own base (Turn.take LiveCall.perform call p).after
      ∧ t'.limit = call.limit t.limit := by
  cases call with
  | number call =>
      rcases Turn.take_of_ends
          (show Ends _ _ (LiveCall.perform (.number call) p) from
            h.tallies.perform call) with
        ⟨-, hq⟩ | ⟨f, hfault, hq⟩
      · exact ⟨_, h.moved hq.tallies hq.moved, Tally.limit_told ..⟩
      · cases hq with
        | range unfit hf hrest =>
            obtain ⟨n, rfl, -⟩ := hf
            exact ⟨t, by rwa [hrest], rfl⟩
        | denied use fits hf ungenerous tallies moved =>
            refine ⟨_, h.moved tallies moved, ?_⟩
            cases call with
            | setPropagationLimit n => cases hfault
            | _ => rfl
  | side call =>
      rcases Turn.take_of_ends
          (show Ends _ _ (LiveCall.perform (.side call) p) from
            h.tallies.side call) with
        ⟨-, htallies, hmoved⟩ | ⟨f, -, hrest, -⟩
      · exact ⟨t, h.moved htallies hmoved, rfl⟩
      · exact ⟨t, by rwa [hrest], rfl⟩

/-- Whatever was called, the limit of the engine is the one set last. -/
theorem Made.limited (h : Made search host e host') (hp : host.Plain)
    (calls : List LiveCall) :
    ∃ t, InUse search t e.tables host
        (afterTurns LiveCall.perform calls ⟨e, host'⟩)
      ∧ t.limit = LiveCall.limitAfter calls := by
  have hrun := turns_keep LiveCall.perform
    (fun done p => ∃ t, InUse search t e.tables host p
      ∧ t.limit = LiveCall.limitAfter (done.map Turn.call))
    ?_ calls [] ⟨e, host'⟩ ⟨{}, h.inUse hp, rfl⟩
  · rwa [List.nil_append, map_call_turns] at hrun
  · intro done p call hex
    obtain ⟨t, ht, hlimit⟩ := hex
    obtain ⟨t', ht', hlimit'⟩ := ht.limit_turn call
    refine ⟨t', ht', ?_⟩
    rw [hlimit', hlimit, List.map_append, List.map_singleton,
      Turn.call_take, LiveCall.limitAfter_concat]

end TableEngine

/-- An invocation answers what the search says under the limit of the
engine and the budget. -/
theorem Session.invoke_answers {s : Session TableEngine} {host : Host}
    (hs : TableEngine.Seated s.engine host.heap)
    (hintact : s.destroyed = false) {verbosity limit : Int}
    (hset : TableEngine.Settings s.engine verbosity limit) (budget : Int) :
    ∃ q, invoke (.int budget) ⟨s, host⟩
      = .ok (s.engine.verdict
          (TableEngine.limitInForce limit budget)).outcome q := by
  obtain ⟨code, ⟨e, host'⟩, hsolve, outcome, rfl, hsearched⟩ :=
    (TableEngine.solve_ends hs hset budget).exists_ok
  have hengine : onEngine (Engine.solve (.int budget)) ⟨s, host⟩
      = .ok (.int (TableEngine.codeOf outcome))
        ⟨{ s with engine := e }, host'⟩ :=
    onEngine_ok hsolve
  refine ⟨⟨s.asked outcome e, s.told outcome host'⟩, ?_⟩
  unfold invoke
  rw [Op.read_bind_apply]
  simp only [hintact, Bool.false_eq_true, if_false]
  rw [bind_of_ok hengine, Op.update_bind_apply, ofCode_codeOf,
    ← hsearched.said]
  rfl

/-- What a search is held to.

After any calls of an engine, the search is made under the word for the
limit set last and the budget of the search, and in a session that was just
made under that for the limit of its settings and the budget. With `m` the
smaller positive of the two, the search is held to `m` itself if that fits
into the word, and if it does not, to what is left of `m` modulo
`2 ^ 32`, or to nothing if nothing is left; it is held to nothing if
neither is positive. So, as long as limits fit, setting one, or lowering a
positive one, only ever holds a search harder, and a search that can be
trusted and is held to nothing comes to a decision. -/
theorem held_to_smaller_limit {host host₁ : Host} {e : TableEngine}
    (hp : host.Plain) {search : Search}
    (hmade : TableEngine.create search host = .ok e host₁)
    (calls : List LiveCall) (budget : Int) :
    let p := afterTurns LiveCall.perform calls ⟨e, host₁⟩
    let limit := LiveCall.limitAfter calls
    let word := TableEngine.limitInForce limit budget
    (∃ q, TableEngine.solve (.int budget) p
        = .ok (.int (TableEngine.codeOf (p.object.verdict word).outcome)) q)
    ∧ (∀ (config : Config) (v : Value) (s : Session TableEngine) host₂,
        host.TakesBack →
        Session.create (TableEngine.create search) config v host
          = .ok s host₂ →
        ∃ q, Session.invoke (.int budget) ⟨s, host₂⟩
          = .ok (s.engine.verdict (TableEngine.limitInForce
              config.propLimit budget)).outcome q)
    ∧ (cap limit budget = ⊤ ↔ limit ≤ 0 ∧ budget ≤ 0)
    ∧ (heldTo word = cap limit budget ↔ Fits (cap limit budget))
    ∧ (∀ m : Nat, cap limit budget = .some m →
        heldTo word
          = if m % limitBound = 0 then ⊤ else .some (m % limitBound))
    ∧ (∀ limit' budget' : Int, Fits (cap limit budget) →
        Fits (cap limit' budget') →
        (limit' ≤ 0 ∨ 0 < limit ∧ limit ≤ limit') →
        (budget' ≤ 0 ∨ 0 < budget ∧ budget ≤ budget') →
        heldTo word ≤ heldTo (TableEngine.limitInForce limit' budget'))
    ∧ (search.Sound → heldTo word = ⊤ →
        p.object.verdict word ≠ .unknown) := by
  intro p limit word
  obtain ⟨t, hinuse, hlimit⟩ :=
    (TableEngine.made_of_create hp hmade).limited hp calls
  obtain ⟨verbosity, hset⟩ := hinuse.tallies.settings
  rw [hlimit] at hset
  refine ⟨?_, ?_, cap_eq_top_iff, heldTo_eq_cap_iff,
    fun m => heldTo_limitInForce, ?_, ?_⟩
  · obtain ⟨code, q, hsolve, outcome, rfl, hsearched⟩ :=
      (TableEngine.solve_ends hinuse.tallies.keeps.seated hset
        budget).exists_ok
    rw [hsearched.said] at hsolve
    exact ⟨q, hsolve⟩
  · intro config v s host₂ ht hsession
    have hopens := Session.create_ends hp ht search config v
    rw [hsession] at hopens
    obtain ⟨clauses, -, hopened⟩ := hopens
    have hintact : s.destroyed = false := by rw [hopened.object]
    exact Session.invoke_answers hopened.keeps.seated hintact
      hopened.settings budget
  · intro limit' budget' hfits hfits' hlimits hbudgets
    -- both limits can only loosen, and the cap with them
    refine heldTo_mono ?_ ?_ hfits hfits'
    · rcases hlimits with hfree | ⟨hpos, hle⟩
      · rw [allowed_of_not_pos (Int.not_lt.mpr hfree)]
        exact le_top
      · exact allowed_mono hpos hle
    · rcases hbudgets with hfree | ⟨hpos, hle⟩
      · rw [allowed_of_not_pos (Int.not_lt.mpr hfree)]
        exact le_top
      · exact allowed_mono hpos hle
  · intro hsound hheld hunknown
    -- a sound search gives up only if it is held to something
    have hsearch : p.object.search.Sound := by
      rw [hinuse.tallies.search]
      exact hsound
    have hword := hsearch.limited hunknown
    have hword : 0 < word := hword
    rw [heldTo, if_neg (Nat.ne_of_gt hword)] at hheld
    exact WithTop.coe_ne_top hheld

/-- A limit of five and a budget of three: the search is made under three,
on an engine and in a session, and a limit of seven would not hold it
harder. -/
theorem held_to_smaller_limit_three :
    Ends
      (fun e host₁ =>
        let p := afterTurns LiveCall.perform
          [.number (.addLiteral 1), .number .terminateClause,
            .number (.setPropagationLimit 5)] ⟨e, host₁⟩
        (∃ q, TableEngine.solve (.int 3) p
            = .ok (.int (TableEngine.codeOf (p.object.verdict 3).outcome)) q)
        ∧ heldTo 3 = .some 3
        ∧ heldTo 3 ≤ heldTo (TableEngine.limitInForce 7 3)
        ∧ Ends
          (fun s host₂ => ∃ q, Session.invoke (.int 3) ⟨s, host₂⟩
            = .ok (s.engine.verdict 3).outcome q)
          never
          (Session.create (TableEngine.create Learning.search)
            { propLimit := 5 } (.seq .list [.seq .list [.int 1]])
            .boundless))
      never (TableEngine.create Learning.search .boundless) := by
  have hg := Host.generous_boundless
  have hv : Value.IsClauseSet (.seq .list [.seq .list [.int 1]]) [[1]] :=
    ⟨_, rfl, .cons ⟨_, rfl, rfl⟩ .nil⟩
  generalize Value.seq .list [.seq .list [.int 1]] = v at hv ⊢
  have hmakes := TableEngine.create_ends hg.plain Learning.search
  cases hmade : TableEngine.create Learning.search .boundless with
  | error f host₁ =>
      rw [hmade] at hmakes
      exact absurd hg (hmakes hg.takesBack).denied
  | ok e host₁ =>
      obtain ⟨hsolve, hinvoke, -, -, hheld, hharder, -⟩ :=
        held_to_smaller_limit hg.plain hmade
          [.number (.addLiteral 1), .number .terminateClause,
            .number (.setPropagationLimit 5)] 3
      have hfits : (.some 3 : WithTop ℕ) < .some limitBound :=
        WithTop.coe_lt_coe.mpr (by decide)
      refine ⟨hsolve, hheld 3 rfl, ?_, ?_⟩
      · exact hharder 7 3 (Or.inr hfits) (Or.inr hfits)
          (Or.inr (by decide)) (Or.inr (by decide))
      · have hopens := Session.create_ends hg.plain hg.takesBack
          Learning.search { propLimit := 5 } v
        cases hsession : Session.create (TableEngine.create Learning.search)
          { propLimit := 5 } v .boundless with
        | error f host₂ =>
            rw [hsession] at hopens
            exact absurd ⟨_, hv, by unfold InRange; decide⟩
              (hopens.unfit hg)
        | ok s host₂ =>
            exact hinvoke { propLimit := 5 } v s host₂ hg.takesBack hsession

/-- A larger limit can hold a search harder, and a limit can hold it to
nothing. With the limit `2 ^ 32 + 1` a search is held to one unit and gives
up where it decides with the limit `2 ^ 32 - 1`, and `2 ^ 32` is no limit
at all. -/
theorem larger_limit_holds_harder :
    (cap 0x100000001 (-1) = .some 0x100000001
      ∧ heldTo (TableEngine.limitInForce 0x100000001 (-1)) = .some 1)
    ∧ (cap 0x100000000 (-1) = .some 0x100000000
      ∧ heldTo (TableEngine.limitInForce 0x100000000 (-1)) = ⊤)
    ∧ Ends
      (fun e host₁ =>
        let p (limit : Int) := afterTurns LiveCall.perform
          [.number (.addLiteral 1), .number .terminateClause,
            .number (.setPropagationLimit limit)] ⟨e, host₁⟩
        Ends (fun code _ => code.whole? = some 10) (fun _ _ => False)
            (TableEngine.solve (.int (-1)) (p 0xffffffff))
          ∧ Ends (fun code _ => code.whole? = some 0) (fun _ _ => False)
            (TableEngine.solve (.int (-1)) (p 0x100000001)))
      (fun _ _ => False)
      (TableEngine.create Learning.search .boundless) := by
  have hcap : ∀ n : Int, 0 < n → cap n (-1) = .some n.toNat := by
    intro n hn
    rw [cap, allowed_of_pos hn, allowed_of_not_pos (by decide),
      min_top_right]
  refine ⟨⟨hcap _ (by decide), rfl⟩, ⟨hcap _ (by decide), rfl⟩, ?_⟩
  decide +kernel

end SatSession
