/-
The host that a session runs on: its memory, what the memory is told to
refuse, and the three channels on which a run is watched.

Requests to the memory go through a plan that may refuse any of them by
its number and may let any `free` fail; a refused request never reaches
the memory. The channels are the trace, which holds requests and engine
calls in order, the log, and the console. A request enters the trace with
its answer, so one that fails leaves no entry; a `free` enters it before
anything can go wrong. An entry that would have to show too long a number
is a fault where the entry would have come. An entry of the log that has no
text is a fault only if the reader of the log makes it one.
-/
import SatSession.Heap.Request

namespace SatSession

-- ======================================================= the channels

/-- A call of an engine with its arguments. -/
inductive Call where
  | create
  | setVerbosity (level : Value)
  | reserveVariables (count : Value)
  | setPropagationLimit (limit : Value)
  | addLiteral (literal : Value)
  | terminateClause
  | solve (budget : Value)
  | variableCount
  | valueOf (index : Value)
  | writeProblem
  | reset

namespace Call

/-- The name of the method called. -/
def method : Call → String
  | create => "init"
  | setVerbosity _ => "set_verbosity"
  | reserveVariables _ => "reserve_variables"
  | setPropagationLimit _ => "set_propagation_limit"
  | addLiteral _ => "add_literal"
  | terminateClause => "terminate_clause"
  | solve _ => "solve"
  | variableCount => "variable_count"
  | valueOf _ => "value_of"
  | writeProblem => "write_problem"
  | reset => "reset"

/-- The argument of a call, if it has one. -/
def argument? : Call → Option Value
  | setVerbosity v | reserveVariables v | setPropagationLimit v
  | addLiteral v | solve v | valueOf v => some v
  | create | terminateClause | variableCount | writeProblem | reset => none

/-- A call as the trace shows it: a text stands bare, any other argument
in full. -/
def text (c : Call) : String :=
  match c.argument? with
  | none => c.method
  | some (.text s) => c.method ++ " " ++ s
  | some v => c.method ++ " " ++ v.fullText

end Call

/-- An entry of the trace. -/
inductive Event where
  | alloc (size : Value) (granted : Bool)
  | realloc (old new : Value) (granted : Bool)
  | free (size : Value)
  | call (c : Call)

/-- An entry as the trace shows it. -/
def Event.text : Event → String
  | .alloc size granted =>
      "alloc " ++ size.plainText ++ (if granted then "" else " none")
  | .realloc old new granted =>
      "realloc " ++ old.plainText ++ " " ++ new.plainText
        ++ (if granted then "" else " none")
  | .free size => "free " ++ size.plainText
  | .call c => c.text

/-- Whether an entry can be written out. -/
def Event.isWritable : Event → Bool
  | .alloc size _ => size.isWritable
  | .realloc old new _ => old.isWritable && new.isWritable
  | .free size => size.isWritable
  | .call c => (c.argument?.map Value.isWritable).getD true

/-- An entry of the log. -/
inductive LogEntry where
  | sessionCreated (clauses : Nat) (varCount : Value)
  | invocation (number : Nat) (outcome : Outcome)
  | sessionDestroyed (invocations : Nat)
  | enumerationFinished (solutions : Nat) (outcome : Outcome)
  | engineReset
  | searched (outcome : Outcome) (varCount clauses : Nat)

namespace LogEntry

/-- The word for the result of one search. -/
def searchWord : Outcome → String
  | .satisfiable => "sat"
  | .unsatisfiable => "unsat"
  | .unknown => "unknown"

/-- Why a value has no whole part. -/
def partless : Value → Fault
  | .number (.complex ..) => .wrongKind
  | .number (.float .nan) => .wholePart "float NaN"
  | .number (.decimal (.nan ..)) => .wholePart "NaN"
  | .number _ => .tooLarge
  | _ => .wrongKind

/-- A value as an entry shows it where a whole number belongs: its whole
part, if it has one and this can be written out. -/
def wholeText (v : Value) : Except Fault String :=
  match v.truncated? with
  | none => .error (partless v)
  | some n =>
      if (Number.int n).isWritable then .ok (toString n)
      else .error .numeralLength

/-- An entry written out; elapsed times are left blank. What an engine has
answered for the number of its variables may have no place in an entry,
which is not written then. -/
def text? : LogEntry → Option String
  | sessionCreated clauses varCount =>
      (wholeText varCount).toOption.map fun varCount =>
        "DEBUG session: session created: " ++ toString clauses
          ++ " clauses, " ++ varCount ++ " variables"
  | invocation number outcome =>
      some ("DEBUG session: invocation " ++ toString number ++ ": "
        ++ outcome.name)
  | sessionDestroyed invocations =>
      some ("DEBUG session: session destroyed after " ++ toString invocations
        ++ " invocation(s), #ms in engine")
  | enumerationFinished solutions outcome =>
      some ("DEBUG cursor: enumeration finished after " ++ toString solutions
        ++ " solution(s): " ++ outcome.name)
  | engineReset => some "DEBUG z3_engine: z3 engine reset"
  | searched outcome varCount clauses =>
      some ("INFO z3_engine: z3 check: " ++ searchWord outcome ++ " (#ms, "
        ++ toString varCount ++ " variables, " ++ toString clauses
        ++ " clauses" ++ (if outcome = .unknown then ", canceled" else "")
        ++ ")")

/-- An entry as the log shows it: one that is not written shows nothing. -/
def text (e : LogEntry) : String := e.text?.getD ""

end LogEntry

/-- Who reads the log, with what is objected to a value that stands in an
entry where a whole number belongs. A whole number is not objected to. -/
structure LogReader where
  objection? : Value → Option Fault
  objection_int (n : Int) : objection? (.int n) = none

namespace LogReader

/-- A reader who passes over what cannot be written out. -/
def patient : LogReader where
  objection? _ := none
  objection_int _ := rfl

/-- A reader who has every entry written out as it comes, and objects where
this fails. -/
def prompt : LogReader where
  objection? v :=
    match v with
    | .number (.int _) => none
    | v =>
        match LogEntry.wholeText v with
        | .ok _ => none
        | .error f => some f
  objection_int _ := rfl

end LogReader

-- =========================================================== the host

/-- Which requests are refused and which calls of `free` fail, both by
their numbers counted from one. -/
structure Plan where
  refuses : Nat → Bool
  breaksFree : Nat → Bool
  /-- Whether requests enter the trace. -/
  watched : Bool

/-- A plan that lets every request through. -/
def Plan.open (watched : Bool) : Plan :=
  ⟨fun _ => false, fun _ => false, watched⟩

/-- A host. -/
structure Host where
  heap : Heap
  plan : Plan
  /-- The number of allocations and reallocations asked for so far. -/
  requests : Nat := 0
  /-- The number of calls of `free` so far. -/
  frees : Nat := 0
  trace : Array Event := #[]
  log : Array LogEntry := #[]
  console : String := ""
  reader : LogReader := .patient

/-- An operation on a host. A fault leaves the host as it was then. -/
abbrev HostOp := EStateM Fault Host

namespace Host

/-- A fresh host whose log is read as it is written. -/
def new (plan : Plan) (limit : Option Int) : Host :=
  { heap := .empty limit, plan := plan, reader := .prompt }

/-- A request to the memory of the host. The host is taken apart first,
so that the memory is changed in place. -/
def onHeap {α : Type} (op : HeapOp α) : HostOp α :=
  fun ⟨heap, plan, requests, frees, trace, log, console, reader⟩ =>
    match op heap with
    | .ok a heap =>
        .ok a ⟨heap, plan, requests, frees, trace, log, console, reader⟩
    | .error f heap =>
        .error f ⟨heap, plan, requests, frees, trace, log, console, reader⟩

/-- Enters an event into the trace. An event that cannot be written out
does not enter it. -/
def record (e : Event) : HostOp Unit := do
  if !e.isWritable then throw .numeralLength
  modify fun host => { host with trace := host.trace.push e }

/-- Enters a request into the trace, if requests are watched. -/
def recordRequest (e : Event) : HostOp Unit := do
  if (← get).plan.watched then record e

/-- Writes to the log. -/
def note (e : LogEntry) : HostOp Unit := modify fun host =>
  { host with log := host.log.push e }

/-- Notes that a session was created, unless the reader of the log objects
to what the engine has answered for the number of its variables. -/
def noteCreated (clauses : Nat) (varCount : Value) : HostOp Unit := do
  match (← get).reader.objection? varCount with
  | some f => throw f
  | none => note (.sessionCreated clauses varCount)

/-- Writes to the console. -/
def print (s : String) : HostOp Unit := modify fun host =>
  { host with console := host.console ++ s }

/-- Counts a request and answers whether the plan refuses it. -/
def countRequest : HostOp Bool := fun host =>
  .ok (host.plan.refuses (host.requests + 1))
    { host with requests := host.requests + 1 }

-- ===================================================== the requests

/-- Asks for a block of zeros. -/
def alloc (size : Value) : HostOp (Option BlockId) := do
  let refused ← countRequest
  let answer ← if refused then pure none else onHeap (Heap.allocValue size)
  recordRequest (.alloc size answer.isSome)
  return answer

/-- Asks for another size of a block. -/
def realloc (b : BlockId) (old new : Value) : HostOp Bool := do
  let refused ← countRequest
  let granted ←
    if refused then pure false else onHeap (Heap.reallocValue b old new)
  recordRequest (.realloc old new granted)
  return granted

/-- Gives a block back. -/
def free (b : BlockId) (size : Value) : HostOp Unit := do
  recordRequest (.free size)
  modify fun host => { host with frees := host.frees + 1 }
  let host ← get
  if host.plan.breaksFree host.frees then throw .freeFailure
  onHeap (Heap.freeValue b size)

end Host

end SatSession
