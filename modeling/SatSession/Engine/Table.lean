/-
The engine that keeps its tables in the memory of the host.

Two blocks belong to it. The value table has a byte per variable, index
zero unused, and shows the assignment found last. The clause store holds
every literal added so far as a word, with a zero word behind each
clause. Both grow by doubling. Beside them the engine keeps the formulas
it asserted, one per closed clause, which are what the search sees.

A literal first makes its variable exist and then enters the store, so a
refused growth of the store leaves the variable behind. The flag for an
assignment goes down when a clause is closed and not before; a variable
made since the assignment was found reads as false.
-/
import SatSession.Engine
import SatSession.Search
import SatSession.Word
import SatSession.Dimacs

namespace SatSession

/-- The state of the engine. -/
structure TableEngine where
  search : Search
  values : BlockId
  store : BlockId
  /-- The number of variables that the value table has room for. -/
  capacity : Nat
  /-- The number of words that the store has room for. -/
  wordCapacity : Nat
  /-- The number of words in the store. -/
  stored : Nat := 0
  /-- The place in the store where the open clause begins. -/
  clauseStart : Nat := 0
  clauseCount : Nat := 0
  varCount : Nat := 0
  asserted : Array Formula := #[]
  /-- The number of searches made. -/
  searches : Nat := 0
  verbosity : Value := .int 0
  propagationLimit : Value := .int 0
  hasModel : Bool := false
  live : Bool := true

namespace TableEngine

/-- The room of both tables at the start. -/
def initialCapacity : Nat := 16

/-- The size of a value table. -/
def valueBytes (capacity : Nat) : Nat := capacity + 1

/-- The size of a clause store. -/
def storeBytes (wordCapacity : Nat) : Nat := wordCapacity * Word.width

/-- A size as an argument of a request. -/
def size (bytes : Nat) : Value := .int bytes

-- ====================================================== construction

/-- Makes an engine, with both tables. If the second is refused the first
is given back. -/
def create (search : Search) : HostOp TableEngine := do
  let some values ← Host.alloc (size (valueBytes initialCapacity))
    | throw (.outOfMemory .valueTable)
  let some store ← Host.alloc (size (storeBytes initialCapacity))
    | do
      Host.free values (size (valueBytes initialCapacity))
      throw (.outOfMemory .clauseStore)
  return {
    search := search
    values := values
    store := store
    capacity := initialCapacity
    wordCapacity := initialCapacity }

-- ============================================================= memory

/-- Refuses to go on after a reset. -/
def checkLive : Op TableEngine Unit := do
  if !(← Op.read).live then throw .engineReset

/-- The capacity after doubling until there is room. -/
def grown (capacity needed : Nat) : Nat :=
  if 0 < capacity ∧ capacity < needed then grown (2 * capacity) needed
  else capacity
termination_by needed - capacity

/-- Gives the value table room for a number of variables. -/
def ensureCapacity (needed : Nat) : Op TableEngine Unit := do
  let e ← Op.read
  let capacity := grown e.capacity needed
  let granted ← Op.onHost (Host.realloc e.values
    (size (valueBytes e.capacity)) (size (valueBytes capacity)))
  if !granted then throw (.outOfMemory .valueTable)
  Op.update fun e => { e with capacity := capacity }

/-- Makes sure that a variable and all before it exist. Its number may
come as any number on the line: the table is grown for all of it, and the
variables up to it exist afterwards. -/
def ensureVariable (index : Value) : Op TableEngine Unit := do
  let e ← Op.read
  if ← settle ((Value.int e.capacity).lt index) then
    match index.ceil? with
    | some n => ensureCapacity n.toNat
    | none => throw (.outOfMemory .valueTable)
  if ← settle ((Value.int (e.varCount + 1)).le index) then
    match index.floor? with
    | some n =>
        Op.update fun e => { e with varCount := max e.varCount n.toNat }
    | none => pure ()

/-- Puts a word into a block, byte by byte. -/
def writeWord (b : BlockId) (place : Nat) (n : Int) : HeapOp Unit := fun h =>
  if (place + 1) * Word.width ≤ h.size b then
    writeBytes (place * Word.width) (Word.toBytes n) h
  else .error .unstorable h
where
  /-- Writes bytes from a place on. -/
  writeBytes : Nat → List UInt8 → HeapOp Unit
    | _, [] => pure ()
    | i, byte :: rest => do
        Heap.poke b i byte
        writeBytes (i + 1) rest

/-- The word at a place of a block, zero where the block has ended. -/
def wordAt (block : Block) (place : Nat) : Int :=
  let byte (k : Nat) : UInt8 := block[place * Word.width + k]?.getD 0
  Word.ofBytes (byte 0) (byte 1) (byte 2) (byte 3)

/-- The words of a block from one place up to another. -/
def readWords (b : BlockId) (start stop : Nat) : HeapOp (List Int) :=
  fun h =>
    if stop * Word.width ≤ h.size b then
      let block := h.contents b
      .ok ((List.range' start (stop - start)).map (wordAt block)) h
    else .error .unstorable h

/-- The stored words from one place up to another. -/
def storedWords (start stop : Nat) : Op TableEngine (List Int) := do
  let e ← Op.read
  Op.onHost (Host.onHeap (readWords e.store start stop))

/-- Stores a word, growing the store when it is full. Only a whole number
can be stored; what is none is found out after the growth. -/
def push (word : Value) : Op TableEngine Unit := do
  let e ← Op.read
  if e.stored = e.wordCapacity then
    let capacity := 2 * e.wordCapacity
    let granted ← Op.onHost (Host.realloc e.store
      (size (storeBytes e.wordCapacity)) (size (storeBytes capacity)))
    if !granted then throw (.outOfMemory .clauseStore)
    Op.update fun e => { e with wordCapacity := capacity }
  match word.whole? with
  | some n =>
      Op.onHost (Host.onHeap (writeWord e.store e.stored n))
      Op.update fun e => { e with stored := e.stored + 1 }
  | none => throw .unstorable

-- ============================================================ clauses

/-- Makes sure that the variables from one to `count` exist. -/
def reserveVariables (count : Value) : Op TableEngine Unit := do
  checkLive
  ensureVariable count

/-- Closes the open clause: the zero word is stored, and the clause read
back from the store is asserted. -/
def terminateClause : Op TableEngine Unit := do
  checkLive
  let e ← Op.read
  let literals ← storedWords e.clauseStart e.stored
  push (.int 0)
  Op.update fun e => { e with
    clauseStart := e.stored
    clauseCount := e.clauseCount + 1
    asserted := e.asserted.push (.ofClause literals)
    hasModel := false }

/-- Adds a literal to the open clause; zero closes it. -/
def addLiteral (literal : Value) : Op TableEngine Unit := do
  checkLive
  if ← settle (literal.eqInt 0) then terminateClause
  else
    let magnitude ← settle literal.abs
    if ← settle ((Value.int Word.literalMax).lt magnitude) then
      throw (.literalRange literal)
    ensureVariable magnitude
    push literal

-- ============================================================= search

/-- The limit in force: the smallest of the positive ones, none if there
is no positive one. -/
def positiveLimit? (limit budget : Value) :
    Except NumberFault (Option Value) := do
  let limited ← (Value.int 0).lt limit
  let budgeted ← (Value.int 0).lt budget
  match limited, budgeted with
  | false, false => return none
  | true, false => return some limit
  | false, true => return some budget
  | true, true => return some (← limit.smaller budget)

/-- The limit as the search takes it, an unsigned word of 32 bits in
which zero stands for no limit. Only a whole number can be handed on to
the search, and not even a truth value in place of one. -/
def searchLimit : Option Value → Except Fault Nat
  | none => .ok 0
  | some (.number (.int n)) => .ok (n % Word.modulus).toNat
  | some _ => .error .searchRefusal

/-- Shows an assignment in the value table. -/
def loadModel (a : Assignment) : Op TableEngine Unit := do
  let e ← Op.read
  Op.onHost (Host.onHeap (Op.each
    (fun i => Heap.poke e.values i (if a i then 1 else 0)) e.varCount 1))
  Op.update fun e => { e with hasModel := true }

/-- Searches and keeps what was found. -/
def check (limit : Nat) : Op TableEngine Outcome := do
  let e ← Op.read
  let verdict := e.search e.searches ⟨e.asserted.toList, e.varCount, limit⟩
  Op.update fun e => { e with searches := e.searches + 1 }
  match verdict with
  | .sat a =>
      loadModel a
      return .satisfiable
  | .unsat =>
      Op.update fun e => { e with hasModel := false }
      return .unsatisfiable
  | .unknown =>
      Op.update fun e => { e with hasModel := false }
      return .unknown

/-- The code that stands for an outcome. -/
def codeOf : Outcome → Int
  | .satisfiable => 10
  | .unsatisfiable => 20
  | .unknown => 0

/-- Searches under the limit of the engine and that of this call, and
answers the code. The log entry comes last, so a level of reporting that
is no number fails a search that has already been kept. -/
def solve (budget : Value) : Op TableEngine Value := do
  checkLive
  let e ← Op.read
  let limit ← settle (positiveLimit? e.propagationLimit budget)
  let limit ← match searchLimit limit with
    | .ok limit => pure limit
    | .error f => throw f
  let outcome ← check limit
  let e ← Op.read
  if ← settle ((Value.int 0).lt e.verbosity) then
    Op.onHost (Host.note (.searched outcome e.varCount e.clauseCount))
  return .int (codeOf outcome)

/-- The value of a variable in the assignment found last. -/
def valueOf (index : Value) : Op TableEngine Value := do
  let e ← Op.read
  if !e.hasModel then throw .noModel
  let inRange ←
    if ← settle ((Value.int 1).le index) then
      settle (index.le (.int e.varCount))
    else pure false
  if !inRange then throw (.variableRange index e.varCount)
  match index.whole? with
  | none => throw .wrongKind
  | some i =>
      match (← get).host.heap.byte? e.values i.toNat with
      | none => throw .indexRange
      | some byte => return .int (if byte ≠ 0 then 1 else -1)

-- ============================================================== views

/-- Words cut at the zeros; words behind the last zero are left out. -/
def cutClauses : List Int → List (List Int)
  | [] => []
  | word :: rest =>
      if word = 0 then [] :: cutClauses rest
      else match cutClauses rest with
        | [] => []
        | clause :: clauses => (word :: clause) :: clauses

/-- The closed clauses, read back from the store. -/
def clauses : Op TableEngine (List (List Int)) := do
  let e ← Op.read
  if !e.live then throw .wrongKind
  let words ← storedWords 0 e.clauseStart
  return cutClauses words

/-- The comment of a written problem. -/
def problemComment : String := "zuspec.be.sat z3 engine"

/-- The closed clauses in the exchange format. -/
def writeProblem : Op TableEngine String := do
  let closed ← clauses
  let e ← Op.read
  return Dimacs.write problemComment e.varCount closed

/-- Gives both tables back; a second reset does nothing. If a table
cannot be given back the engine stays as it is, except for the table
that was. -/
def reset : Op TableEngine Unit := do
  let e ← Op.read
  if e.live then
    Op.onHost (Host.free e.values (size (valueBytes e.capacity)))
    Op.onHost (Host.free e.store (size (storeBytes e.wordCapacity)))
    Op.update fun e => { e with
      live := false
      varCount := 0
      stored := 0
      clauseStart := 0
      clauseCount := 0
      asserted := #[]
      hasModel := false }
    Op.onHost (Host.note .engineReset)

instance : Engine TableEngine where
  setVerbosity level := Op.update fun e => { e with verbosity := level }
  reserveVariables := reserveVariables
  setPropagationLimit limit :=
    Op.update fun e => { e with propagationLimit := limit }
  addLiteral := addLiteral
  terminateClause := terminateClause
  solve := solve
  variableCount := do return .int (← Op.read).varCount
  valueOf := valueOf
  writeProblem := writeProblem
  reset := reset

end TableEngine

end SatSession
