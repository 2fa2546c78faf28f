/-
Operations on an object that lives on a host.

An operation reads and changes its object and the host at once, and may
end in a fault. A fault undoes nothing: the object and the host stay as
the operation left them, and what is released on the way out is released
by the code that says so. Two forms of such code occur, and they differ
in whose fault wins (`orRelease`, `thenAlways`).
-/
import SatSession.Host

namespace SatSession

/-- An object on a host. -/
structure Placed (σ : Type) where
  object : σ
  host : Host

/-- An operation on an object and its host. -/
abbrev Op (σ : Type) := EStateM Fault (Placed σ)

namespace Op

variable {σ τ α : Type}

/-- The object as it is now. -/
def read : Op σ σ := fun p => .ok p.object p

/-- Changes the object. -/
def update (f : σ → σ) : Op σ Unit :=
  fun ⟨object, host⟩ => .ok () ⟨f object, host⟩

/-- An operation that concerns only the host. -/
def onHost (op : HostOp α) : Op σ α :=
  fun ⟨object, host⟩ =>
    match op host with
    | .ok a host => .ok a ⟨object, host⟩
    | .error f host => .error f ⟨object, host⟩

/-- An operation on an inner object of the object. -/
def within (get : τ → σ) (put : σ → τ → τ) (op : Op σ α) : Op τ α :=
  fun ⟨outer, host⟩ =>
    match op ⟨get outer, host⟩ with
    | .ok a ⟨inner, host⟩ => .ok a ⟨put inner outer, host⟩
    | .error f ⟨inner, host⟩ => .error f ⟨put inner outer, host⟩

/-- Runs an operation on an object of which only the host's side
survives a fault; without one the object comes back with the answer. -/
def on (object : σ) (op : Op σ α) : HostOp (α × σ) := fun host =>
  match op ⟨object, host⟩ with
  | .ok a p => .ok (a, p.object) p.host
  | .error f p => .error f p.host

/-- Runs `op`, and on a fault also `release`, before the fault goes on. A
fault of the release takes the place of the first one. -/
def orRelease (op : Op σ α) (release : Op σ Unit) : Op σ α := fun p =>
  match op p with
  | .ok a p => .ok a p
  | .error f p =>
      match release p with
      | .ok _ p => .error f p
      | .error g p => .error g p

/-- Runs `op` and then `last`, whatever becomes of `op`. The fault of
`last`, if it has one, wins; otherwise that of `op` goes on. -/
def thenAlways (op last : Op σ Unit) : Op σ Unit := fun p =>
  match op p with
  | .ok _ p => last p
  | .error f p =>
      match last p with
      | .ok _ p => .error f p
      | .error g p => .error g p

/-- Goes through `count` numbers from `first` on and collects the
answers. -/
@[specialize] def collect {m : Type → Type} [Monad m] (f : Nat → m α) :
    (count first : Nat) → m (List α)
  | 0, _ => pure []
  | count + 1, first => do
      let a ← f first
      let rest ← collect f count (first + 1)
      return a :: rest

/-- Goes through `count` numbers from `first` on. -/
@[specialize] def each {m : Type → Type} [Monad m] (f : Nat → m Unit) :
    (count first : Nat) → m Unit
  | 0, _ => pure ()
  | count + 1, first => do
      f first
      each f count (first + 1)

end Op

end SatSession
