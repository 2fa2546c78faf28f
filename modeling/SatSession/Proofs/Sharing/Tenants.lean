/-
Tenants of a memory.

A tenant is a place for one object, a session or a cursor, and is empty
before the object has been made. Making it may fail, and then the tenant
stays empty. A call that does not fit what is there is not made and
answered so, so that every call can be made of every tenant.

What a tenant is told is kept beside it, faults like answers (`Resident`).
Attending to a call therefore never fails, and what an object returns over
a whole run is a part of its state. It is the part that two memories are
to agree on (`attend_tuned`).
-/
import SatSession.Proofs.Sharing.Sessions
import SatSession.Proofs.Turns

namespace SatSession

-- =============================================================== tenants

/-- A place for one object. -/
inductive Tenant where
  | absent
  | session (s : Session TableEngine)
  | cursor (c : Cursor TableEngine)

/-- What is asked of a tenant. -/
inductive TenantCall where
  | openSession (search : Search) (clauses vars verbose propLimit : Value)
  | openCursor (search : Search) (clauses vars verbose propLimit : Value)
  | invoke (budget : Value)
  | decode
  | ingest (clauses : Value)
  | destroy
  | next
  | close

/-- What a tenant is told. -/
inductive TenantAnswer where
  | opened
  | outcome (outcome : Outcome)
  | solution (literals : Solution)
  | ingested (count : Nat)
  | released
  | found (literals : Option Solution)
  /-- The call does not fit what is there. -/
  | unfit

namespace Tenant

/-- Makes an object for a tenant that has none. -/
def settleIn (make : HostOp Tenant) : Op Tenant TenantAnswer := do
  match ← Op.read with
  | absent => do
      let tenant ← Op.onHost make
      Op.update fun _ => tenant
      return .opened
  | _ => return .unfit

/-- A session in its place. -/
def makeSession (search : Search) (clauses vars verbose propLimit : Value) :
    HostOp Tenant := do
  let config ← checkedConfig vars verbose propLimit
  let s ← Session.create (TableEngine.create search) config clauses
  return session s

/-- A cursor in its place. -/
def makeCursor (search : Search) (clauses vars verbose propLimit : Value) :
    HostOp Tenant := do
  let c ← enumerate (TableEngine.create search) clauses vars verbose
    propLimit
  return cursor c

/-- An operation on a session, if there is one. -/
def onSession (op : Op (Session TableEngine) TenantAnswer) :
    Op Tenant TenantAnswer := do
  match ← Op.read with
  | session s => Op.within (fun _ => s) (fun s _ => session s) op
  | _ => return .unfit

/-- An operation on a cursor, if there is one. -/
def onCursor (op : Op (Cursor TableEngine) TenantAnswer) :
    Op Tenant TenantAnswer := do
  match ← Op.read with
  | cursor c => Op.within (fun _ => c) (fun c _ => cursor c) op
  | _ => return .unfit

/-- The number of variables of the object. -/
def varCount : Tenant → Nat
  | absent => 0
  | session s => s.engine.varCount
  | cursor c => c.session.engine.varCount

/-- Whether there is nothing left to be released. -/
def gone : Tenant → Bool
  | absent => true
  | session s => s.destroyed
  | cursor c => c.closed

end Tenant

namespace TenantCall

open Tenant

/-- Makes a call. -/
def perform : TenantCall → Op Tenant TenantAnswer
  | openSession search clauses vars verbose propLimit =>
      settleIn (makeSession search clauses vars verbose propLimit)
  | openCursor search clauses vars verbose propLimit =>
      settleIn (makeCursor search clauses vars verbose propLimit)
  | invoke budget => onSession do
      return .outcome (← Session.invoke budget)
  | decode => onSession do
      return .solution (← Session.decode)
  | ingest clauses => onSession do
      return .ingested (← Session.onEngine (loadClauses clauses))
  | destroy => onSession do
      Session.destroy
      return .released
  | next => onCursor do
      return .found (← Cursor.next)
  | close => onCursor do
      Cursor.close
      return .released

end TenantCall

/-- A tenant, and what its calls have come to so far. -/
structure Resident where
  tenant : Tenant := .absent
  heard : List (Except Fault TenantAnswer) := []

namespace Resident

/-- A resident who has been told something more. -/
def told (r : Resident) (tenant : Tenant)
    (answer : Except Fault TenantAnswer) : Resident :=
  ⟨tenant, r.heard ++ [answer]⟩

/-- Makes a call and keeps what it has come to. -/
def attend (call : TenantCall) : Op Resident Unit := fun p =>
  match call.perform ⟨p.object.tenant, p.host⟩ with
  | .ok a q => .ok () ⟨p.object.told q.object (.ok a), q.host⟩
  | .error f q => .ok () ⟨p.object.told q.object (.error f), q.host⟩

/-- How things stand after a call. -/
def attended (call : TenantCall) (p : Placed Resident) : Placed Resident :=
  (Turn.take attend call p).after

/-- Attending to a call never fails. -/
theorem attend_eq (call : TenantCall) (p : Placed Resident) :
    attend call p = .ok () (attended call p) := by
  unfold attended Turn.take attend
  cases call.perform ⟨p.object.tenant, p.host⟩ <;> rfl

end Resident

-- ========================================================= in two memories

variable {places : Places}

namespace Tenant

/-- Tenants with objects that are alike. -/
inductive Match (places : Places) : Tenant → Tenant → Prop
  | absent : Match places absent absent
  | session {s s' : Session TableEngine} (h : Lodger.Like places s s') :
      Match places (session s) (session s')
  | cursor {c c' : Cursor TableEngine} (h : Lodger.Like places c c') :
      Match places (cursor c) (cursor c')

/-- Tenants that are alike stay so at later places. -/
theorem Match.mono {here : Places} {x y : Tenant} (hle : places <+: here)
    (h : Match places x y) : Match here x y := by
  cases h with
  | absent => exact .absent
  | session h => exact .session (Lodger.mono hle h)
  | cursor h => exact .cursor (Lodger.mono hle h)

instance : Lodger Tenant where
  Like := Match
  mono := Match.mono

/-- Tenants that are alike know the same variables. -/
theorem Match.varCount_eq {x y : Tenant} (h : Match places x y) :
    x.varCount = y.varCount := by
  cases h with
  | absent => rfl
  | session h =>
      obtain ⟨engine, rfl, values, store, hengine, -⟩ := h
      show engine.varCount = _
      rw [hengine]
      rfl
  | cursor h =>
      obtain ⟨session, scratch, rfl, hsession, -⟩ := h
      obtain ⟨engine, rfl, values, store, hengine, -⟩ := hsession
      show engine.varCount = _
      rw [hengine]
      rfl

/-- Tenants that are alike have left or stay together. -/
theorem Match.gone_eq {x y : Tenant} (h : Match places x y) :
    x.gone = y.gone := by
  cases h with
  | absent => rfl
  | session h =>
      obtain ⟨engine, rfl, -⟩ := h
      rfl
  | cursor h =>
      obtain ⟨session, scratch, rfl, -⟩ := h
      rfl

/-- A tenant moves in where there is none; where there is one, nothing
happens. -/
theorem settleIn_tuned {make : HostOp Tenant}
    (hmake : ∀ places, Tuned Lodger.Like places make make) :
    Tuned Agree places (settleIn make) (settleIn make) := by
  unfold settleIn
  refine .read_bind fun here x y _ hxy => ?_
  cases hxy with
  | absent =>
      refine (hmake here).onHost.bind fun _ _ x y hxy => ?_
      refine .then (.update fun _ _ _ hle _ => ?_) fun _ => .answer _
      exact Lodger.mono hle hxy
  | session _ => exact .answer _
  | cursor _ => exact .answer _

/-- Sessions that are made of the same arguments make tenants alike. -/
theorem makeSession_tuned (search : Search)
    (clauses vars verbose propLimit : Value) (places : Places) :
    Tuned Lodger.Like places
      (makeSession search clauses vars verbose propLimit)
      (makeSession search clauses vars verbose propLimit) := by
  unfold makeSession
  refine (checkedConfig_tuned _ _ _).then fun config => ?_
  refine (Session.create_tuned search config clauses).bind
    fun _ _ s s' hs => ?_
  exact .pure fun _ hle => Match.session (Lodger.mono hle hs)

/-- So do cursors. -/
theorem makeCursor_tuned (search : Search)
    (clauses vars verbose propLimit : Value) (places : Places) :
    Tuned Lodger.Like places
      (makeCursor search clauses vars verbose propLimit)
      (makeCursor search clauses vars verbose propLimit) := by
  unfold makeCursor
  refine (Cursor.enumerate_tuned search _ _ _ _).bind fun _ _ c c' hc => ?_
  exact .pure fun _ hle => Match.cursor (Lodger.mono hle hc)

/-- A call on a session finds one on both sides or on neither. -/
theorem onSession_tuned {op : Op (Session TableEngine) TenantAnswer}
    (hop : ∀ places, Tuned Agree places op op) :
    Tuned Agree places (onSession op) (onSession op) := by
  unfold onSession
  refine .read_bind fun here x y _ hxy => ?_
  cases hxy with
  | absent => exact .answer _
  | session hs =>
      exact (hop here).within (fun _ _ _ hle _ => Lodger.mono hle hs)
        fun _ _ _ _ _ _ _ huv => .session huv
  | cursor _ => exact .answer _

/-- A call on a cursor finds one on both sides or on neither. -/
theorem onCursor_tuned {op : Op (Cursor TableEngine) TenantAnswer}
    (hop : ∀ places, Tuned Agree places op op) :
    Tuned Agree places (onCursor op) (onCursor op) := by
  unfold onCursor
  refine .read_bind fun here x y _ hxy => ?_
  cases hxy with
  | absent => exact .answer _
  | session _ => exact .answer _
  | cursor hc =>
      exact (hop here).within (fun _ _ _ hle _ => Lodger.mono hle hc)
        fun _ _ _ _ _ _ _ huv => .cursor huv

end Tenant

/-- A call comes to the same in two memories. -/
theorem TenantCall.perform_tuned (call : TenantCall) :
    Tuned Agree places call.perform call.perform := by
  cases call with
  | openSession search clauses vars verbose propLimit =>
      exact Tenant.settleIn_tuned
        (Tenant.makeSession_tuned search clauses vars verbose propLimit)
  | openCursor search clauses vars verbose propLimit =>
      exact Tenant.settleIn_tuned
        (Tenant.makeCursor_tuned search clauses vars verbose propLimit)
  | invoke budget =>
      exact Tenant.onSession_tuned fun _ =>
        (Session.invoke_tuned budget).then fun _ => .answer _
  | decode =>
      exact Tenant.onSession_tuned fun _ =>
        Session.decode_tuned.then fun _ => .answer _
  | ingest clauses =>
      exact Tenant.onSession_tuned fun _ =>
        (Session.onEngine_tuned (Session.loadClauses_tuned clauses)).then
          fun _ => .answer _
  | destroy =>
      exact Tenant.onSession_tuned fun _ =>
        Session.destroy_tuned.then fun _ => .answer _
  | next =>
      exact Tenant.onCursor_tuned fun _ =>
        Cursor.next_tuned.then fun _ => .answer _
  | close =>
      exact Tenant.onCursor_tuned fun _ =>
        Cursor.close_tuned.then fun _ => .answer _

namespace Resident

/-- Residents who have been told the same. -/
instance : Lodger Resident where
  Like places r r' := r.heard = r'.heard
    ∧ Lodger.Like places r.tenant r'.tenant
  mono hle h := ⟨h.1, Lodger.mono hle h.2⟩

/-- A call leads from residents alike to residents alike. -/
theorem attended_reached {s t : Placed Resident} (hst : Alike places s t)
    (call : TenantCall) :
    ∃ more, Reached places more s t (attended call s) (attended call t) := by
  have htenants : Alike places (⟨s.object.tenant, s.host⟩ : Placed Tenant)
      ⟨t.object.tenant, t.host⟩ :=
    ⟨hst.shared, hst.alone, hst.lodged, hst.like.2⟩
  have hheard : ∀ answer, s.object.heard ++ [answer]
      = t.object.heard ++ [answer] := fun answer => by rw [hst.like.1]
  unfold attended Turn.take attend
  rcases (call.perform_tuned places _ _ (List.prefix_refl _) htenants).ends
    with ⟨a, b, u, v, more, hrun, hrun', rfl, hreached⟩
      | ⟨e, u, v, more, hrun, hrun', hreached⟩
  all_goals
    have halike := hreached.alike
    rw [hrun, hrun']
    exact ⟨more, ⟨halike.shared, halike.alone, halike.lodged, hheard _,
      halike.like⟩, hreached.beside⟩

end Resident

end SatSession
