/-
How far a program can move the state.

A relation between states says how far a program moves them if the states
behind it, with an answer as with a fault, are all so related to the one in
front of it (`Moves`). Programs are put together out of parts, and as long
as the relation is a preorder the whole moves the state no further than its
parts do: there is one rule for each way of putting parts together, so that
a program is gone through once and for any relation that its primitives
keep to.

The plainest such relation has a name of its own. An aspect is anything
that can be read off a state, and a program leaves it if it is the same
behind the program as before it (`Leaves`).
-/
import SatSession.Proofs.Ends
import Mathlib.Order.Defs.Unbundled

namespace SatSession

variable {ε σ α β γ : Type}

/-- A program moves the state no further than `R` allows. -/
def Moves (R : σ → σ → Prop) (x : EStateM ε σ α) : Prop :=
  ∀ s, Ends (fun _ s' => R s s') (fun _ s' => R s s') (x s)

/-- States that look the same in some aspect. -/
abbrev Same (aspect : σ → γ) (s s' : σ) : Prop := aspect s' = aspect s

instance (aspect : σ → γ) : IsPreorder σ (Same aspect) where
  refl _ := rfl
  trans _ _ _ h h' := h'.trans h

/-- States of which the second has a property if the first has it. -/
abbrev Retains (good : σ → Prop) (s s' : σ) : Prop := good s → good s'

instance (good : σ → Prop) : IsPreorder σ (Retains good) where
  refl _ := id
  trans _ _ _ h h' := fun hs => h' (h hs)

/-- A program retains a property if, begun where it holds, it ends where it
holds. -/
theorem moves_retains {good : σ → Prop} {x : EStateM ε σ α}
    (h : ∀ s, good s → Ends (fun _ => good) (fun _ => good) (x s)) :
    Moves (Retains good) x := by
  intro s
  by_cases hs : good s
  · exact (h s hs).imp (fun _ _ hgood _ => hgood) fun _ _ hgood _ => hgood
  · exact (ends_true _).imp (fun _ _ _ hgood => absurd hgood hs)
      fun _ _ _ hgood => absurd hgood hs

/-- A program leaves an aspect of the state as it is. -/
abbrev Leaves (aspect : σ → γ) (x : EStateM ε σ α) : Prop :=
  Moves (Same aspect) x

/-- What moves the state no further than one relation allows does so for
every wider one. -/
theorem Moves.imp {R R' : σ → σ → Prop} {x : EStateM ε σ α}
    (h : Moves R x) (hR : ∀ s s', R s s' → R' s s') : Moves R' x :=
  fun s => (h s).imp (fun _ s' hs => hR s s' hs) fun _ s' hs => hR s s' hs

namespace Moves

variable {R : σ → σ → Prop} [IsPreorder σ R] {x : EStateM ε σ α}
  {f : α → EStateM ε σ β}

-- ============================================================ the parts

theorem pure (a : α) : Moves R (pure a : EStateM ε σ α) :=
  fun s => refl_of R s

theorem throw (e : ε) : Moves R (throw e : EStateM ε σ α) :=
  fun s => refl_of R s

/-- One part after the other. -/
theorem bind (hx : Moves R x) (hf : ∀ a, Moves R (f a)) :
    Moves R (x >>= f) := by
  intro s
  rw [ends_bind]
  refine (hx s).imp ?_ fun _ _ h => h
  intro a s' hs'
  refine (hf a s').imp ?_ ?_
  · exact fun _ _ h => trans_of R hs' h
  · exact fun _ _ h => trans_of R hs' h

theorem get : Moves R (get : EStateM ε σ σ) :=
  fun s => refl_of R s

omit [IsPreorder σ R] in
theorem ite {c : Prop} [Decidable c] {x y : EStateM ε σ α}
    (hx : Moves R x) (hy : Moves R y) :
    Moves R (if c then x else y) := by
  by_cases hc : c
  · rw [if_pos hc]
    exact hx
  · rw [if_neg hc]
    exact hy

/-- A part that is made only on a condition, with the rest behind it. -/
theorem when {c : Prop} [Decidable c] {x : EStateM ε σ PUnit}
    {k : PUnit → EStateM ε σ α} (hx : Moves R x) (hk : Moves R (k ⟨⟩)) :
    Moves R (if c then x >>= k else k ⟨⟩) :=
  ite (hx.bind fun _ => hk) hk

/-- One of two parts, with the rest behind either. -/
theorem branch {c : Prop} [Decidable c] {x y : EStateM ε σ α}
    {k : α → EStateM ε σ β} (hx : Moves R x) (hy : Moves R y)
    (hk : ∀ a, Moves R (k a)) :
    Moves R (if c then x >>= k else y >>= k) :=
  ite (hx.bind hk) (hy.bind hk)

theorem settle (v : Except NumberFault α) :
    Moves R (SatSession.settle v) := by
  cases v with
  | ok a => exact pure a
  | error e => exact throw _

-- ================================================================ loops

/-- A counted loop moves no further than its rounds. -/
theorem each {f : Nat → EStateM ε σ Unit} (hf : ∀ i, Moves R (f i)) :
    ∀ count first : Nat, Moves R (Op.each f count first) := by
  intro count
  induction count with
  | zero => intro first; exact pure ()
  | succ count ih =>
      intro first
      exact (hf first).bind fun _ => ih (first + 1)

/-- So does one that collects answers. -/
theorem collect {f : Nat → EStateM ε σ α} (hf : ∀ i, Moves R (f i)) :
    ∀ count first : Nat, Moves R (Op.collect f count first) := by
  intro count
  induction count with
  | zero => intro first; exact pure []
  | succ count ih =>
      intro first
      exact (hf first).bind fun a => (ih (first + 1)).bind fun rest => pure _

-- ============================================= objects and their hosts

variable {τ : Type} {Rp : Placed σ → Placed σ → Prop}
  [IsPreorder (Placed σ) Rp]

theorem read : Moves Rp (Op.read : Op σ σ) :=
  fun p => refl_of Rp p

omit [IsPreorder (Placed σ) Rp] in
theorem update {f : σ → σ}
    (h : ∀ object host, Rp ⟨object, host⟩ ⟨f object, host⟩) :
    Moves Rp (Op.update f) :=
  fun p => h p.object p.host

omit [IsPreorder (Placed σ) Rp] in
/-- How far an operation on the host moves an object with its host. -/
theorem onHost {Rh : Host → Host → Prop} {op : HostOp α}
    (hop : Moves Rh op)
    (h : ∀ object host host', Rh host host' →
      Rp ⟨object, host⟩ ⟨object, host'⟩) : Moves Rp (Op.onHost op) := by
  intro p
  rw [Op.ends_onHost]
  exact (hop p.host).imp (fun _ _ hh => h _ _ _ hh) fun _ _ hh => h _ _ _ hh

omit [IsPreorder (Placed σ) Rp] in
/-- How far an operation on an inner object moves the outer one. -/
theorem within {get : τ → σ} {put : σ → τ → τ}
    {Rt : Placed τ → Placed τ → Prop} {op : Op σ α} (hop : Moves Rp op)
    (h : ∀ (object : τ) host (q : Placed σ), Rp ⟨get object, host⟩ q →
      Rt ⟨object, host⟩ ⟨put q.object object, q.host⟩) :
    Moves Rt (Op.within get put op) := by
  intro p
  rw [Op.ends_within]
  exact (hop _).imp (fun _ q hq => h _ _ q hq) fun _ q hq => h _ _ q hq

end Moves

-- ============================================================ the memory

namespace Host

/-- An aspect of a host in which neither its memory shows nor how often it
was asked for some, nor what was traced of that. -/
structure Unasked (aspect : Host → γ) : Prop where
  heap (host : Host) (heap : Heap) :
    aspect { host with heap := heap } = aspect host
  requests (host : Host) (requests : Nat) :
    aspect { host with requests := requests } = aspect host
  trace (host : Host) (trace : Array Event) :
    aspect { host with trace := trace } = aspect host

/-- The calls of `free` are counted apart from the requests. -/
theorem unasked_frees : Unasked Host.frees :=
  ⟨fun _ _ => rfl, fun _ _ => rfl, fun _ _ => rfl⟩

variable {aspect : Host → γ}

section

variable (h : Unasked aspect)
include h

/-- What is done in the memory alone. -/
theorem onHeap_leaves {op : HeapOp α} : Leaves aspect (onHeap op) := by
  intro host
  rw [ends_onHeap]
  exact (ends_true _).imp (fun _ heap _ => h.heap host heap)
    fun _ heap _ => h.heap host heap

theorem record_leaves (e : Event) : Leaves aspect (record e) := by
  unfold record
  exact .when (.throw _) fun host => h.trace host _

theorem recordRequest_leaves (e : Event) :
    Leaves aspect (recordRequest e) := by
  unfold recordRequest
  refine Moves.get.bind fun host => ?_
  exact .ite (record_leaves h e) (.pure _)

theorem countRequest_leaves : Leaves aspect countRequest :=
  fun host => h.requests host _

/-- A request is counted, answered and traced. -/
theorem alloc_leaves (size : Value) : Leaves aspect (alloc size) := by
  unfold alloc
  refine (countRequest_leaves h).bind fun refused => ?_
  exact .branch (.pure none) (onHeap_leaves h) fun answer =>
    (recordRequest_leaves h _).bind fun _ => .pure _

/-- So is one for another size. -/
theorem realloc_leaves (b : BlockId) (old new : Value) :
    Leaves aspect (realloc b old new) := by
  unfold realloc
  refine (countRequest_leaves h).bind fun refused => ?_
  exact .branch (.pure false) (onHeap_leaves h) fun granted =>
    (recordRequest_leaves h _).bind fun _ => .pure _

end

theorem note_leaves (e : LogEntry) : Leaves Host.frees (note e) :=
  fun _ => rfl

-- =========================================================== the console

/-- An aspect of a host that neither a request of any kind nor the log
shows in. -/
structure Aloof (aspect : Host → γ) : Prop extends Unasked aspect where
  frees (host : Host) (frees : Nat) :
    aspect { host with frees := frees } = aspect host
  log (host : Host) (log : Array LogEntry) :
    aspect { host with log := log } = aspect host

/-- Nothing is printed but by printing. -/
theorem aloof_console : Aloof Host.console where
  heap _ _ := rfl
  requests _ _ := rfl
  trace _ _ := rfl
  frees _ _ := rfl
  log _ _ := rfl

variable (h : Aloof aspect)
include h

/-- A block that is given back is counted and traced too, and the call may
fail. -/
theorem Aloof.free_leaves (b : BlockId) (size : Value) :
    Leaves aspect (free b size) := by
  have hcount : Leaves aspect
      (modify fun host => { host with frees := host.frees + 1 }
        : HostOp Unit) := fun host => h.frees host _
  unfold free
  refine (recordRequest_leaves h.toUnasked _).bind fun _ => ?_
  refine hcount.bind fun _ => Moves.get.bind fun host => ?_
  exact .when (.throw _) (onHeap_leaves h.toUnasked)

theorem Aloof.note_leaves (e : LogEntry) : Leaves aspect (note e) :=
  fun host => h.log host _

end Host

end SatSession
