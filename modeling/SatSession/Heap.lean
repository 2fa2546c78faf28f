/-
Accounted memory: blocks of bytes with a cap on the bytes in use.

A block is known by its number, and blocks are numbered in the order in
which they were handed out. Three requests change them: `alloc`, `realloc`
and `free`. A request that would pass the limit, that asks for a negative
size, or that asks for more than the host can supply is refused; a
`realloc` or `free` that states a wrong present size fails. A freed block
keeps its number and is empty.

The counters are kept apart from the blocks, so that what they promise is
a statement and not a definition: `inUse` is meant to be the bytes of all
blocks, `peak` the most that `inUse` has been, `live` the blocks handed
out and not freed. A count of bytes is a whole number, but it may be kept
as a double: once a size has been stated as one, so is the count that it
was added to or taken from.
-/
import SatSession.Fault

namespace SatSession

/-- The bytes of a block. -/
abbrev Block := Array UInt8

/-- The number of a block. -/
abbrev BlockId := Nat

/-- The kind of number in which a counter is kept. -/
inductive CounterKind where
  | whole
  | double
  deriving DecidableEq, Repr

/-- A count in the kind in which it is kept. -/
def CounterKind.number (kind : CounterKind) (count : Int) : Number :=
  match kind with
  | .whole => .int count
  | .double => .float (.ofInt count)

/-- A memory. -/
structure Heap where
  blocks : Array Block := #[]
  /-- The most bytes that may be in use; without it there is no cap. -/
  limit : Option Int := none
  /-- A limit that is no whole number. Only requests with sizes of any kind
  are compared with it. -/
  oddLimit : Value := .none
  /-- The size from which on the host cannot give a block. A real host has
  one, here `2 ^ 62`; without it any block can be had. -/
  supply : Option Int := some 0x4000000000000000
  inUse : Int := 0
  inUseKind : CounterKind := .whole
  peak : Int := 0
  peakKind : CounterKind := .whole
  live : Int := 0

/-- A request to a memory. A fault leaves the memory as the request left
it. -/
abbrev HeapOp := EStateM Fault Heap

namespace Heap

/-- A fresh memory with the given limit. -/
def empty (limit : Option Int) : Heap := { limit := limit }

-- ========================================================== reading

/-- The bytes of a block; a number that was never handed out has none. -/
def contents (h : Heap) (b : BlockId) : Block := h.blocks[b]?.getD #[]

/-- The present size of a block. -/
def size (h : Heap) (b : BlockId) : Nat := (h.contents b).size

/-- One byte of a block. -/
def byte? (h : Heap) (b : BlockId) (i : Nat) : Option UInt8 :=
  (h.contents b)[i]?

-- ======================================================= accounting

/-- Whether the limit allows a change of the bytes in use. -/
def fits (h : Heap) (delta : Int) : Bool :=
  match h.limit with
  | none => true
  | some limit => decide (h.inUse + delta ≤ limit)

/-- Whether the host can give a block of some size. -/
def supplies (h : Heap) (size : Int) : Bool :=
  match h.supply with
  | none => true
  | some supply => decide (size < supply)

/-- Whether the host can give what it takes to change a block by `delta`
bytes to `size`. A block that does not grow takes nothing. -/
def affords (h : Heap) (delta size : Int) : Bool :=
  decide (delta ≤ 0) || h.supplies size

/-- Books a change of the bytes in use. A new peak is kept as the count
that reached it is. -/
def commit (h : Heap) (delta : Int) : Heap :=
  { h with
    inUse := h.inUse + delta
    peak := max h.peak (h.inUse + delta)
    peakKind :=
      if h.peak < h.inUse + delta then h.inUseKind else h.peakKind }

/-- The bytes in use as the number that they are kept as. -/
def inUseNumber (h : Heap) : Number := h.inUseKind.number h.inUse

/-- The peak as the number that it is kept as. -/
def peakNumber (h : Heap) : Number := h.peakKind.number h.peak

/-- A block with its end cut off or zeros added. -/
def resize (block : Block) (size : Nat) : Block :=
  if size < block.size then block.take size
  else block ++ Array.replicate (size - block.size) 0

-- ========================================================= requests

/-- Asks for a block of zeros; answers its number unless refused. -/
def alloc (size : Int) : HeapOp (Option BlockId) := fun h =>
  if size < 0 ∨ h.fits size = false ∨ h.affords size size = false then
    .ok none h
  else .ok (some h.blocks.size)
    { h.commit size with
      blocks := h.blocks.push (Array.replicate size.toNat 0)
      live := h.live + 1 }

/-- Asks for another size of a block, stating the present one; answers
whether the request was granted. The bytes up to the smaller size stay. -/
def realloc (b : BlockId) (old new : Int) : HeapOp Bool := fun h =>
  if new < 0 then .ok false h
  else if (h.size b : Int) ≠ old then
    .error (.blockSize .realloc (h.size b) (.int old)) h
  else if h.fits (new - old) = false ∨ h.affords (new - old) new = false then
    .ok false h
  else .ok true
    { h.commit (new - old) with
      blocks := h.blocks.modify b fun block => resize block new.toNat }

/-- Gives a block back, stating its present size. -/
def free (b : BlockId) (size : Int) : HeapOp Unit := fun h =>
  if (h.size b : Int) ≠ size then
    .error (.blockSize .free (h.size b) (.int size)) h
  else .ok ()
    { h with
      inUse := h.inUse - size
      live := h.live - 1
      blocks := h.blocks.modify b fun _ => #[] }

/-- Writes one byte of a block. -/
def poke (b : BlockId) (i : Nat) (byte : UInt8) : HeapOp Unit := fun h =>
  if i < h.size b then
    .ok () { h with
      blocks := h.blocks.modify b fun block => block.setIfInBounds i byte }
  else .error .indexRange h

/-- The counters as text. -/
def text (h : Heap) : String :=
  "HostAllocator(in_use=" ++ h.inUseNumber.text ++ ", peak="
    ++ h.peakNumber.text ++ ", blocks=" ++ toString h.live ++ ")"

end Heap

end SatSession
