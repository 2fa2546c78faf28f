/-
Requests to a memory with sizes of any kind.

Callers hand sizes in unchecked. A size that is a whole number or a truth
value makes the request that `Heap` defines for it. Any other number goes
as far as comparisons carry it, so it can still be refused for being
negative or beyond the limit, and fails where bytes would have to be
counted by it. The size that a block is said to have may be stated in any
kind of number; it only has to be equal to the real one. What is no
number fails at the first comparison. The limit may be of any kind too.
-/
import SatSession.Heap

namespace SatSession.Heap

-- ======================================================== accounting

/-- The limit, whatever its kind. -/
def limitValue (h : Heap) : Value := (h.limit.map Value.int).getD h.oddLimit

/-- Whether the limit allows a change of the bytes in use by any number.
Without a limit nothing is added up. -/
def fitsValue (h : Heap) (delta : Value) : Except NumberFault Bool :=
  match h.limitValue with
  | .none => .ok true
  | limit => do
      let total ← (Value.number h.inUseNumber).add delta
      total.le limit

/-- The kind of a counter that has become a value. -/
def kindOf : Value → CounterKind
  | .number (.float _) => .double
  | _ => .whole

/-- Keeps the count of the bytes in use as a value is kept. -/
def keepAs (total : Value) : HeapOp Unit := modify fun h =>
  { h with inUseKind := kindOf total }

-- ========================================================== requests

/-- Asks for a block of zeros. -/
def allocValue (size : Value) : HeapOp (Option BlockId) := do
  if ← settle (size.lt (.int 0)) then return none
  if !(← settle ((← get).fitsValue size)) then return none
  match size.whole? with
  | some n => alloc n
  | none => throw .wrongKind

/-- Cuts a block and books the change as the number that it is stated as.
If the counter cannot take that number up, the block is cut all the
same. -/
def cut (b : BlockId) (size : Int) (delta : Value) : HeapOp Unit := do
  let old := (← get).size b
  modify fun h =>
    { h with blocks := h.blocks.modify b fun block =>
        resize block size.toNat }
  let total ← settle ((Value.number (← get).inUseNumber).add delta)
  keepAs total
  modify fun h => h.commit (size - old)

/-- Asks for another size of a block, stating the present one. Bytes can
be cut off whatever kind of number that statement is, but only a whole
number counts bytes to add. -/
def reallocValue (b : BlockId) (old new : Value) : HeapOp Bool := do
  if ← settle (new.lt (.int 0)) then return false
  let size := (← get).size b
  if !(← settle (old.eqInt size)) then throw (.blockSize .realloc size old)
  let delta ← settle (new.sub old)
  if !(← settle ((← get).fitsValue delta)) then return false
  let shrinking ← settle (new.lt old)
  match new.whole?, delta.whole? with
  | some n, some _ => realloc b size n
  | some n, none =>
      if !shrinking then throw .wrongKind
      cut b n delta
      return true
  | none, _ => throw .wrongKind

/-- Gives a block back. -/
def freeValue (b : BlockId) (claimed : Value) : HeapOp Unit := do
  let size := (← get).size b
  if !(← settle (claimed.eqInt size)) then
    throw (.blockSize .free size claimed)
  keepAs (← settle ((Value.number (← get).inUseNumber).sub claimed))
  free b size

-- ============================================================ writing

/-- Fills a block with counted bytes: byte `i` becomes the remainder of
`first + i` by 256. -/
def fill (b : BlockId) (first : Int) : HeapOp Unit := modify fun h =>
  { h with blocks := h.blocks.modify b fun block =>
      Array.ofFn fun i : Fin block.size =>
        UInt8.ofNat ((first + i) % 256).toNat }

/-- Assigns the limit, or none. One that is no number is found out when
the next request is compared with it. -/
def setLimit (limit : Value) : HeapOp Unit := modify fun h =>
  match limit.whole? with
  | some n => { h with limit := some n, oddLimit := .none }
  | none => { h with limit := none, oddLimit := limit }

end SatSession.Heap
