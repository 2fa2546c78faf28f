/-
What a host does with a request for a whole number of bytes.

A request comes to one of two ends. It is denied, by the plan, by the limit
or because the host cannot supply the bytes, and then nothing is different
but the number of requests made; or it is granted, and then the memory is
the one that `Memory.Blocks` names. Which of the two it is depends on the
host alone (`denies`), so each request has one equation.

The equations are for plain hosts: requests are not watched, and the limit
and the count of bytes in use are whole numbers. A watched host tells its
requests on a channel, which is for whoever looks on and no part of what is
looked at; the other two conditions hold of every memory that has only been
handed whole numbers.
-/
import SatSession.Host
import SatSession.Proofs.Ends
import SatSession.Proofs.Memory.Blocks
import SatSession.Proofs.Memory.Whole

namespace SatSession.Host

-- =============================================================== hosts

/-- A host that is not watched and counts in whole numbers. -/
structure Plain (host : Host) : Prop where
  unwatched : host.plan.watched = false
  whole_limit : host.heap.oddLimit = .none
  whole_count : host.heap.inUseKind = .whole

/-- A host on which nothing that is given back properly fails to be taken
back. -/
def TakesBack (host : Host) : Prop := ∀ k, host.plan.breaksFree k = false

/-- A host that grants everything. -/
structure Generous (host : Host) : Prop where
  plain : host.Plain
  takesBack : host.TakesBack
  unplanned : ∀ k, host.plan.refuses k = false
  unlimited : host.heap.limit = none
  supplied : host.heap.supply = none

/-- A fresh host without any bound. -/
def boundless : Host :=
  { heap := { supply := none }, plan := .open false }

theorem generous_boundless : boundless.Generous :=
  ⟨⟨rfl, rfl, rfl⟩, fun _ => rfl, fun _ => rfl, rfl, rfl⟩

/-- A host that has been asked for memory once more. -/
def asked (host : Host) : Host := { host with requests := host.requests + 1 }

/-- A host that has handed out a block of zeros. -/
def given (host : Host) (n : Nat) : Host :=
  { host.asked with heap := host.heap.granted n }

/-- A host that has taken a block back. -/
def takenBack (host : Host) (b : BlockId) : Host :=
  { host with frees := host.frees + 1, heap := host.heap.released b }

/-- Whether the next request is denied, if it changes the bytes in use by
`delta` and is for a block of `size` bytes. -/
def denies (host : Host) (delta size : Int) : Bool :=
  host.plan.refuses (host.requests + 1) || !host.heap.fits delta
    || !host.heap.affords delta size

variable {host : Host} {b : BlockId}

/-- A generous host denies nothing. -/
theorem Generous.denies_eq (hg : host.Generous) (delta size : Int) :
    host.denies delta size = false := by
  simp [denies, hg.unplanned, Heap.fits, hg.unlimited, Heap.affords,
    Heap.supplies, hg.supplied]

-- =========================================================== accounting

/-- The memory of a plain host counts in whole numbers. -/
theorem Plain.whole (hp : host.Plain) : host.heap.Whole :=
  ⟨hp.whole_limit, hp.whole_count⟩

/-- An unwatched request leaves no trace. -/
theorem recordRequest_eq (hw : host.plan.watched = false) (e : Event) :
    recordRequest e host = .ok () host := by
  simp [recordRequest, hw]

/-- What both counted requests do on a host that is not watched: a planned
refusal is answered without the memory, everything else by it. -/
theorem counted_eq {α : Type} (hw : host.plan.watched = false) (no : α)
    (op : HeapOp α) (e : α → Event) :
    (do
      let refused ← countRequest
      let answer ← if refused then pure no else onHeap op
      recordRequest (e answer)
      return answer : HostOp α) host
      = if host.plan.refuses (host.requests + 1) then .ok no host.asked
        else onHeap op host.asked := by
  have hcount : countRequest host
      = .ok (host.plan.refuses (host.requests + 1)) host.asked := rfl
  have hrecord : ∀ (a : α) (heap : Heap),
      (do recordRequest (e a); return a : HostOp α)
        { host.asked with heap := heap }
        = .ok a { host.asked with heap := heap } := fun a heap => by
    rw [bind_of_ok (@recordRequest_eq { host.asked with heap := heap } hw
      (e a))]
    rfl
  rw [bind_of_ok hcount]
  cases host.plan.refuses (host.requests + 1) with
  | true => exact hrecord no host.heap
  | false =>
      cases hop : op host.heap with
      | ok a heap =>
          have h : onHeap op host.asked
              = .ok a { host.asked with heap := heap } := onHeap_ok hop
          show (onHeap op >>= _) host.asked = onHeap op host.asked
          rw [bind_of_ok h, h]
          exact hrecord a heap
      | error f heap =>
          have h : onHeap op host.asked
              = .error f { host.asked with heap := heap } := by
            simp only [onHeap, asked, hop]
          show (onHeap op >>= _) host.asked = onHeap op host.asked
          rw [bind_of_error h, h]

-- ============================================================= requests

/-- Asking a memory for a whole number of bytes. -/
theorem allocValue_int (hp : host.Plain) (n : Nat) :
    Heap.allocValue (.int n) host.heap
      = if host.heap.fits n = false ∨ host.heap.affords n n = false then
          .ok none host.heap
        else .ok (some host.heap.blocks.size) (host.heap.granted n) := by
  have hsign : ¬ ((n : Int) < 0) := by omega
  rw [hp.whole.allocValue_int]
  simp [Heap.alloc, Heap.granted, hsign]

/-- Asking for a block. -/
theorem alloc_eq (hp : host.Plain) (n : Nat) :
    alloc (.int n) host
      = if host.denies n n then .ok none host.asked
        else .ok (some host.heap.blocks.size) (host.given n) := by
  have hshape := counted_eq hp.unwatched none (Heap.allocValue (.int n))
    fun answer => Event.alloc (.int n) answer.isSome
  refine Eq.trans hshape ?_
  unfold denies
  simp only [onHeap, asked, allocValue_int hp]
  cases host.plan.refuses (host.requests + 1) <;>
    cases host.heap.fits n <;> cases host.heap.affords n n <;> rfl

/-- Asking a memory for another size of a block. -/
theorem reallocValue_int (hp : host.Plain) (b : BlockId) (n : Nat) :
    Heap.reallocValue b (.int (host.heap.size b)) (.int n) host.heap
      = if host.heap.fits (n - host.heap.size b) = false
            ∨ host.heap.affords (n - host.heap.size b) n = false then
          .ok false host.heap
        else .ok true (host.heap.resized b n) := by
  have hsign : ¬ ((n : Int) < 0) := by omega
  rw [hp.whole.reallocValue_int]
  simp [Heap.realloc, Heap.resized, hsign]

/-- Asking for another size of a block, with its present size stated. -/
theorem realloc_eq (hp : host.Plain) {old : Nat}
    (hold : host.heap.size b = old) (n : Nat) :
    realloc b (.int old) (.int n) host
      = if host.denies (n - old) n then .ok false host.asked
        else .ok true { host.asked with heap := host.heap.resized b n } := by
  subst hold
  have hshape := counted_eq hp.unwatched false
    (Heap.reallocValue b (.int (host.heap.size b)) (.int n))
    fun granted => Event.realloc (.int (host.heap.size b)) (.int n) granted
  refine Eq.trans hshape ?_
  unfold denies
  simp only [onHeap, asked, reallocValue_int hp]
  cases host.plan.refuses (host.requests + 1) <;>
    cases host.heap.fits (n - host.heap.size b) <;>
    cases host.heap.affords (n - host.heap.size b) n <;> rfl

/-- Giving a memory a block back. -/
theorem freeValue_int (hp : host.Plain) (b : BlockId) :
    Heap.freeValue b (.int (host.heap.size b)) host.heap
      = .ok () (host.heap.released b) := by
  rw [hp.whole.freeValue_int]
  simp [Heap.free, Heap.released]

/-- Giving a block back, with its size stated. -/
theorem free_eq (hp : host.Plain) (ht : host.TakesBack) {size : Nat}
    (hsize : host.heap.size b = size) :
    free b (.int size) host = .ok () (host.takenBack b) := by
  subst hsize
  unfold free
  rw [bind_of_ok (recordRequest_eq hp.unwatched _)]
  simp [ht (host.frees + 1), onHeap, freeValue_int hp, takenBack]

end SatSession.Host
