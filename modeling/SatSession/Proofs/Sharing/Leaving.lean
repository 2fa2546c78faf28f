/-
What a tenant owes.

A tenant on a host of its own owns all that has been taken on it since a
time `base`, and nothing at all once its object has been destroyed or
closed. Every call keeps this account (`Tenant.perform_accounts`). An
engine and a session keep it on any plain host. A cursor does so as long
as it can rule out what it finds: on a host that grants everything it fails
to do so only with more variables than a clause can name, and then the
buffer that it holds is lost.

Objects come to a tenant one after the other at most until one has been
made. What was tried before has left nothing behind, so the account goes
back to the same time `base` all along (`Host.Holding.trans`).
-/
import SatSession.Proofs.Conversation.Laws
import SatSession.Proofs.Cursors.Advancing
import SatSession.Proofs.Sharing.Tenants
import SatSession.Proofs.Tables.History

namespace SatSession

variable {base host : Host} {α : Type}

namespace TableEngine

-- ================================================================ engines

/-- A live engine that owns what has been taken since `base`. -/
structure Housed (base : Host) (p : Placed TableEngine) : Prop where
  keeps : ∃ d, Keeps d p.object p.host.heap
  holding : Host.Holding p.object.tables base p.host

/-- An engine that has been reset and owns nothing. -/
structure Vacated (base : Host) (p : Placed TableEngine) : Prop where
  dead : p.object.live = false
  holding : Host.Holding [] base p.host

/-- A call of an engine that keeps its account. -/
structure Orderly (base : Host) (op : Op TableEngine α) : Prop where
  housed : Moves (Retains (Housed base)) op
  vacated : Moves (Retains (Vacated base)) op

variable {e : TableEngine} {p : Placed TableEngine}

/-- An engine that goes on with its tables still has all that was taken for
it. -/
theorem Housed.onward (h : Housed base ⟨e, host⟩) (hon : Onward e host p)
    {d : Draft} (hk : Keeps d p.object p.host.heap) : Housed base p := by
  refine ⟨⟨d, hk⟩, ?_⟩
  rw [hon.tables]
  exact h.holding.within hon.within

/-- A call that an engine refuses after its reset. -/
theorem orderly_of_housed {op : Op TableEngine α}
    (hdead : ∀ e host, e.live = false →
      op ⟨e, host⟩ = .error .engineReset ⟨e, host⟩)
    (hhoused : ∀ e host, Housed base ⟨e, host⟩ →
      Ends (fun _ => Housed base) (fun _ => Housed base) (op ⟨e, host⟩)) :
    Orderly base op where
  housed := moves_retains fun _ h => hhoused _ _ h
  vacated := moves_retains fun p h => by
    rw [hdead p.object p.host h.dead]
    exact h

section

variable (hp : base.Plain)

include hp

/-- Closing a clause, whether or not its terminator is given room. -/
theorem terminateClause_orderly :
    Orderly base (Engine.terminateClause : Op TableEngine Unit) := by
  refine orderly_of_housed ?_ fun e host h => ?_
  · exact fun e host hdead => bind_of_error (checkLive_reset hdead)
  obtain ⟨d, hk⟩ := h.keeps
  have hplain := hp.of_sameRules h.holding.rules
  refine (terminateClause_ends hplain hk).imp ?_ ?_
  · exact fun _ p hclosed => h.onward hclosed.onward (hk.closed hclosed)
  · intro f p hdenied
    refine h.onward (d := d) hdenied.onward ?_
    rw [hdenied.rest]
    exact hk

/-- Adding a literal, which may grow one table and be refused the other. -/
theorem addLiteral_orderly (l : Int) :
    Orderly base (Engine.addLiteral (.int l) : Op TableEngine Unit) := by
  refine orderly_of_housed ?_ fun e host h => ?_
  · exact fun e host hdead => bind_of_error (checkLive_reset hdead)
  obtain ⟨d, hk⟩ := h.keeps
  have hplain := hp.of_sameRules h.holding.rules
  show Ends _ _ (addLiteral (.int l) ⟨e, host⟩)
  by_cases hl : l = 0
  · rw [hl, addLiteral_zero hk.seated.live]
    have hclose := (terminateClause_orderly hp).housed ⟨e, host⟩
    exact hclose.imp (fun _ _ hq => hq h) fun _ _ hq => hq h
  · refine (addLiteral_ends hplain hk.seated hl).imp ?_ ?_
    · exact fun _ p hadded => h.onward hadded.onward (hk.added hl hadded)
    · exact fun f p hnot => h.onward hnot.onward (hk.notAdded hnot)

/-- Loading clauses into an engine. -/
theorem loadClauses_orderly (v : Value) :
    Orderly base (loadClauses v : Op TableEngine Nat) where
  housed := loadClauses_moves
    ⟨fun l => (addLiteral_orderly hp l).housed,
      (terminateClause_orderly hp).housed⟩ v
  vacated := loadClauses_moves
    ⟨fun l => (addLiteral_orderly hp l).vacated,
      (terminateClause_orderly hp).vacated⟩ v

omit hp in
/-- A search, whatever the budget is. -/
theorem solve_orderly (budget : Value) :
    Orderly base (Engine.solve budget : Op TableEngine Value) := by
  refine orderly_of_housed ?_ fun e host h => ?_
  · exact fun e host hdead => bind_of_error (checkLive_reset hdead)
  obtain ⟨d, hk⟩ := h.keeps
  have hs := hk.seated
  show Ends _ _ (solve budget ⟨e, host⟩)
  unfold solve
  rw [bind_of_ok (checkLive_eq hs.live), Op.read_bind_apply]
  cases positiveLimit? e.propagationLimit budget with
  | error f => exact h
  | ok limit =>
      rw [settle_ok, pure_bind]
      cases searchLimit limit with
      | error f => exact h
      | ok limit =>
          show Ends _ _ ((check limit >>= _) _)
          rw [ends_bind]
          refine (check_ends hs limit).imp_ok ?_
          intro outcome q hsearched
          have hq := h.onward (hsearched.onward hs) (hk.searched hsearched)
          rw [Op.read_bind_apply]
          cases (Value.int 0).lt q.object.verbosity with
          | error f => exact hq
          | ok loud =>
              show Ends _ _ ((if loud = true then _ else _ :
                Op TableEngine Value) q)
              split
              next => exact ⟨hq.keeps, hq.holding.logged _⟩
              next => exact hq

end

end TableEngine

open TableEngine

-- =============================================================== sessions

namespace Session

/-- A session that owns what has been taken since `base`, or has given it
back. -/
inductive Accounted (base : Host) (p : Placed (Session TableEngine)) : Prop
  | alive (h : p.object.destroyed = false)
      (hengine : Housed base ⟨p.object.engine, p.host⟩)
  | destroyed (h : p.object.destroyed = true)
      (hengine : Vacated base ⟨p.object.engine, p.host⟩)

/-- What an engine does in order, the books of its session follow. -/
theorem onEngine_accounts {op : Op TableEngine α} (h : Orderly base op) :
    Moves (Retains (Accounted base)) (onEngine op) := by
  intro p
  rw [onEngine, Op.ends_within]
  have hkeep : ∀ q : Placed TableEngine,
      (Retains (Housed base) ⟨p.object.engine, p.host⟩ q
        ∧ Retains (Vacated base) ⟨p.object.engine, p.host⟩ q) →
      Retains (Accounted base) p
        ⟨{ p.object with engine := q.object }, q.host⟩ := by
    intro q hq haccounted
    cases haccounted with
    | alive halive hengine => exact .alive halive (hq.1 hengine)
    | destroyed hdead hengine => exact .destroyed hdead (hq.2 hengine)
  exact ((h.housed _).and (h.vacated _)).imp (fun _ q hq => hkeep q hq)
    fun _ q hq => hkeep q hq

/-- What a session notes down leaves its account. -/
theorem records_accounts :
    (∀ e, Moves (Retains (Accounted base))
        (Op.onHost (Host.note e) : Op (Session TableEngine) Unit))
      ∧ ∀ g : Session TableEngine → Session TableEngine,
        (∀ s, (g s).destroyed = s.destroyed ∧ (g s).engine = s.engine) →
          Moves (Retains (Accounted base)) (Op.update g) := by
  refine ⟨fun e p haccounted => ?_, fun g hg => .update fun s host => ?_⟩
  · cases haccounted with
    | alive halive hengine =>
        exact .alive halive ⟨hengine.keeps, hengine.holding.logged _⟩
    | destroyed hdead hengine =>
        exact .destroyed hdead ⟨hengine.dead, hengine.holding.logged _⟩
  · intro haccounted
    obtain ⟨hdestroyed, hengine⟩ := hg s
    cases haccounted with
    | alive halive h => exact .alive (hdestroyed.trans halive) (hengine ▸ h)
    | destroyed hdead h =>
        exact .destroyed (hdestroyed.trans hdead) (hengine ▸ h)

/-- An invocation takes nothing besides the tables. -/
theorem invoke_accounts (budget : Value) :
    Moves (Retains (Accounted base))
      (invoke budget : Op (Session TableEngine) Outcome) :=
  invoke_moves records_accounts (onEngine_accounts (solve_orderly budget))

/-- Reading a solution takes nothing either. -/
theorem decode_accounts :
    Moves (Retains (Accounted base))
      (decode : Op (Session TableEngine) Solution) :=
  decode_moves
    (onEngine_accounts ⟨variableCount_moves, variableCount_moves⟩)
    fun index => onEngine_accounts ⟨valueOf_moves index, valueOf_moves index⟩

/-- A session that is destroyed gives all back. -/
theorem destroy_accounts (hp : base.Plain) (ht : base.TakesBack) :
    Moves (Retains (Accounted base))
      (destroy : Op (Session TableEngine) Unit) := by
  refine moves_retains fun p haccounted => ?_
  obtain ⟨s, host⟩ := p
  cases haccounted with
  | alive halive h =>
      obtain ⟨d, hk⟩ := h.keeps
      have hrules := h.holding.rules
      have hdestroy := destroy_eq (hp.of_sameRules hrules)
        (ht.of_sameRules hrules) hk.seated halive
      rw [hdestroy]
      refine .destroyed rfl ⟨rfl, holding_hostAfter ?_⟩
      rw [List.append_nil]
      exact h.holding
  | destroyed hdead h =>
      unfold destroy
      rw [Op.read_bind_apply, if_pos hdead]
      exact .destroyed hdead h

/-- A session that has been opened owns its tables. -/
theorem Opened.accounted {search : Search} {config : Config}
    {clauses : List (List Int)} {s : Session TableEngine}
    (h : Opened search config clauses base s host) :
    Accounted base ⟨s, host⟩ := by
  refine .alive ?_ ⟨⟨_, h.keeps⟩, h.holding⟩
  rw [h.object]

end Session

-- ================================================================ cursors

namespace Cursor

/-- A cursor that runs and owns what has been taken since `base`, or has
given it back. -/
inductive Accounted (base : Host) (p : Placed (Cursor TableEngine)) : Prop
  | running (search : Search) (limit : Int) (clauses : List (List Int))
      (h : Running search limit p.object.session.engine.varCount clauses
        base p.object p.host)
  | closed (h : p.object.closed = true)
      (holding : Host.Holding [] base p.host)

/-- A cursor that runs, whatever is known of its problem. -/
theorem Running.accounted {search : Search} {limit : Int} {n : Nat}
    {clauses : List (List Int)} {p : Placed (Cursor TableEngine)}
    (h : Running search limit n clauses base p.object p.host) :
    Accounted base p := by
  obtain rfl := h.live.vars
  exact .running search limit clauses h

/-- On a host that grants everything, an advance fails only with more
variables than a clause can name. -/
theorem next_accounts (hg : base.Generous) {p : Placed (Cursor TableEngine)}
    (h : Accounted base p)
    (hvars : (p.object.session.engine.varCount : Int) ≤ Word.literalMax) :
    Ends (fun _ => Accounted base) never (next p) := by
  obtain ⟨c, host⟩ := p
  cases h with
  | running search limit clauses h =>
      refine (next_ends h).imp ?_ ?_
      · intro _ q hpost
        rcases hpost with ⟨literals, -, hproduced⟩ | ⟨-, hfinished⟩
        · obtain ⟨a, -, -, hrunning⟩ := hproduced.found
          exact hrunning.accounted
        · exact .closed hfinished.closed hfinished.holding
      · intro f q hfailed
        exact hfailed.unfit (hg.of_sameRules h.holding.rules) hvars
  | closed hclosed hholding =>
      rw [next_closed hclosed]
      exact .closed hclosed hholding

/-- A running cursor is closed with everything given back, a closed one is
left. -/
theorem close_accounts {p : Placed (Cursor TableEngine)}
    (h : Accounted base p) :
    Ends (fun _ => Accounted base) never (close p) := by
  obtain ⟨c, host⟩ := p
  cases h with
  | running search limit clauses h =>
      refine (close_ends h.closable).imp_ok ?_
      intro _ q hclosed
      exact .closed hclosed.closed hclosed.holding
  | closed hclosed hholding =>
      rw [close_closed hclosed]
      exact .closed hclosed hholding

end Cursor

-- ================================================================ tenants

namespace Tenant

/-- A tenant that owns what has been taken since `base`. -/
def Accounted (base : Host) (p : Placed Tenant) : Prop :=
  match p.object with
  | absent => Host.Holding [] base p.host
  | session s => Session.Accounted base ⟨s, p.host⟩
  | cursor c => Cursor.Accounted base ⟨c, p.host⟩

/-- A tenant that is gone owns nothing. -/
theorem Accounted.holding {p : Placed Tenant} (h : Accounted base p)
    (hgone : p.object.gone = true) : Host.Holding [] base p.host := by
  obtain ⟨tenant, host⟩ := p
  cases tenant with
  | absent => exact h
  | session s =>
      cases h with
      | alive halive _ =>
          have hgone : s.destroyed = true := hgone
          rw [show s.destroyed = false from halive] at hgone
          cases hgone
      | destroyed _ hengine => exact hengine.holding
  | cursor c =>
      cases h with
      | running _ _ _ h =>
          have hgone : c.closed = true := hgone
          rw [h.unclosed] at hgone
          cases hgone
      | closed _ hholding => exact hholding

/-- What is owned since a time at which nothing was owned is owned since
the time before. -/
theorem Accounted.rebase (hbase : Host.Holding [] base host)
    {p : Placed Tenant} (h : Accounted host p) : Accounted base p := by
  obtain ⟨tenant, host'⟩ := p
  cases tenant with
  | absent => exact hbase.trans h
  | session s =>
      cases h with
      | alive halive h => exact .alive halive ⟨h.keeps, hbase.trans h.holding⟩
      | destroyed hdead h =>
          exact .destroyed hdead ⟨h.dead, hbase.trans h.holding⟩
  | cursor c =>
      cases h with
      | running search limit clauses h =>
          exact .running search limit clauses
            { h with holding := hbase.trans h.holding }
      | closed hclosed h => exact .closed hclosed (hbase.trans h)

variable {p : Placed Tenant}

/-- A tenant without an object gets one that owns what has been taken for
it, or nothing has been taken. -/
theorem settleIn_accounts {make : HostOp Tenant} (hg : base.Generous)
    (hmake : ∀ host : Host, host.Generous →
      Ends (fun tenant host' => Accounted host ⟨tenant, host'⟩)
        (fun _ host' => Host.Holding [] host host') (make host))
    (h : Accounted base p) :
    Ends (fun _ => Accounted base) (fun _ => Accounted base)
      (settleIn make p) := by
  obtain ⟨tenant, host⟩ := p
  unfold settleIn
  rw [Op.read_bind_apply]
  cases tenant with
  | absent =>
      have hbase : Host.Holding [] base host := h
      show Ends _ _ ((Op.onHost make >>= _) _)
      rw [ends_bind, Op.ends_onHost]
      refine (hmake host (hg.of_sameRules hbase.rules)).imp ?_ ?_
      · exact fun tenant host' hmade => hmade.rebase hbase
      · exact fun f host' hnot => hbase.trans hnot
  | session s => exact h
  | cursor c => exact h

/-- A new session accounts for what was taken for it; one that fails has
taken nothing. -/
theorem makeSession_accounts (search : Search)
    (clauses vars verbose propLimit : Value) (hg : host.Generous) :
    Ends (fun tenant host' => Accounted host ⟨tenant, host'⟩)
      (fun _ host' => Host.Holding [] host host')
      (makeSession search clauses vars verbose propLimit host) := by
  unfold makeSession checkedConfig
  cases Config.build vars verbose propLimit with
  | error f => exact Host.Holding.refl host
  | ok config =>
      rw [pure_bind, ends_bind]
      refine (Session.create_ends hg.plain hg.takesBack search config
        clauses).imp ?_ ?_
      · intro s host' hpost
        obtain ⟨cs, -, hopened⟩ := hpost
        exact hopened.accounted
      · exact fun f host' hnot => hnot.holding

/-- So does a new cursor, which has no scratch block yet. -/
theorem makeCursor_accounts (search : Search)
    (clauses vars verbose propLimit : Value) (hg : host.Generous) :
    Ends (fun tenant host' => Accounted host ⟨tenant, host'⟩)
      (fun _ host' => Host.Holding [] host host')
      (makeCursor search clauses vars verbose propLimit host) := by
  unfold makeCursor
  rw [ends_bind]
  refine (Cursor.enumerate_ends hg.plain hg.takesBack search clauses vars
    verbose propLimit).imp ?_ ?_
  · intro c host' hpost
    obtain ⟨config, cs, -, -, hstarted⟩ := hpost
    exact hstarted.running.accounted
  · exact fun f host' hnot => hnot.holding

/-- A call on a tenant that is a session; any other tenant is unfit for
it. -/
theorem onSession_accounts {op : Op (Session TableEngine) TenantAnswer}
    (hop : Moves (Retains (Session.Accounted base)) op)
    (h : Accounted base p) :
    Ends (fun _ => Accounted base) (fun _ => Accounted base)
      (onSession op p) := by
  obtain ⟨tenant, host⟩ := p
  unfold onSession
  rw [Op.read_bind_apply]
  cases tenant with
  | absent => exact h
  | session s =>
      show Ends _ _ (Op.within _ _ op _)
      rw [Op.ends_within]
      exact (hop ⟨s, host⟩).imp (fun _ _ hq => hq h) fun _ _ hq => hq h
  | cursor c => exact h

/-- A call on a tenant that is a cursor, open or closed. -/
theorem onCursor_accounts {op : Op (Cursor TableEngine) TenantAnswer}
    (hop : ∀ c, p.object = cursor c → Cursor.Accounted base ⟨c, p.host⟩ →
      Ends (fun _ => Cursor.Accounted base) never (op ⟨c, p.host⟩))
    (h : Accounted base p) :
    Ends (fun _ => Accounted base) (fun _ => Accounted base)
      (onCursor op p) := by
  obtain ⟨tenant, host⟩ := p
  unfold onCursor
  rw [Op.read_bind_apply]
  cases tenant with
  | absent => exact h
  | session s => exact h
  | cursor c =>
      show Ends _ _ (Op.within _ _ op _)
      rw [Op.ends_within]
      exact (hop c rfl h).imp_ok fun _ _ hq => hq

/-- Every call keeps the account of a tenant, as long as its object has no
more variables than a clause can name. -/
theorem perform_accounts (hg : base.Generous) (call : TenantCall)
    (h : Accounted base p)
    (hvars : (p.object.varCount : Int) ≤ Word.literalMax) :
    Ends (fun _ => Accounted base) (fun _ => Accounted base)
      (call.perform p) := by
  have hp := hg.plain
  have ht := hg.takesBack
  cases call with
  | openSession search clauses vars verbose propLimit =>
      exact settleIn_accounts hg (fun host hhost =>
        makeSession_accounts search clauses vars verbose propLimit hhost) h
  | openCursor search clauses vars verbose propLimit =>
      exact settleIn_accounts hg (fun host hhost =>
        makeCursor_accounts search clauses vars verbose propLimit hhost) h
  | invoke budget =>
      exact onSession_accounts
        ((Session.invoke_accounts budget).bind fun _ => .pure _) h
  | decode =>
      exact onSession_accounts
        (Session.decode_accounts.bind fun _ => .pure _) h
  | ingest clauses =>
      exact onSession_accounts
        ((Session.onEngine_accounts (loadClauses_orderly hp clauses)).bind
          fun _ => .pure _) h
  | destroy =>
      exact onSession_accounts
        ((Session.destroy_accounts hp ht).bind fun _ => .pure _) h
  | next =>
      refine onCursor_accounts (fun c hc haccounted => ?_) h
      rw [ends_bind]
      refine (Cursor.next_accounts hg haccounted ?_).imp_ok
        fun _ _ hq => hq
      rw [hc] at hvars
      exact hvars
  | close =>
      refine onCursor_accounts (fun c hc haccounted => ?_) h
      rw [ends_bind]
      exact (Cursor.close_accounts haccounted).imp_ok fun _ _ hq => hq

end Tenant

namespace Resident

/-- What a resident's tenant owns after a call. -/
theorem attended_accounts {p : Placed Resident} (hg : base.Generous)
    (call : TenantCall)
    (h : Tenant.Accounted base ⟨p.object.tenant, p.host⟩)
    (hvars : (p.object.tenant.varCount : Int) ≤ Word.literalMax) :
    Tenant.Accounted base
      ⟨(attended call p).object.tenant, (attended call p).host⟩ := by
  have hends := Tenant.perform_accounts hg call h hvars
  unfold attended Turn.take attend
  cases hrun : call.perform ⟨p.object.tenant, p.host⟩ with
  | ok a q =>
      rw [hrun] at hends
      exact hends
  | error f q =>
      rw [hrun] at hends
      exact hends

end Resident

end SatSession
