/-
Faults: why an operation has no result.

A fault is a cause with the data that its message speaks about. Each
belongs to one class of errors. The general faults, which arise when a
value of a wrong kind reaches an operation that does not look at kinds,
carry no message of their own. A message that would have to write out too
long a numeral cannot be written, and this is reported in its place.
-/
import SatSession.ErrorClass
import SatSession.Value.Text
import SatSession.Value.Compare

namespace SatSession

/-- What an invocation of an engine said about the problem. -/
inductive Outcome where
  | satisfiable
  | unsatisfiable
  | unknown
  deriving DecidableEq, Repr

/-- The name under which an outcome is reported. -/
def Outcome.name : Outcome → String
  | .satisfiable => "SATISFIABLE"
  | .unsatisfiable => "UNSATISFIABLE"
  | .unknown => "UNKNOWN"

/-- The tables whose memory can be refused. -/
inductive MemoryUse where
  | valueTable
  | clauseStore
  | blockingBuffer
  deriving DecidableEq, Repr

def MemoryUse.name : MemoryUse → String
  | .valueTable => "value table"
  | .clauseStore => "clause store"
  | .blockingBuffer => "blocking buffer"

/-- The settings of a session. -/
inductive Setting where
  | vars
  | verbose
  | propLimit
  deriving DecidableEq, Repr

def Setting.name : Setting → String
  | .vars => "vars"
  | .verbose => "verbose"
  | .propLimit => "prop_limit"

/-- The two requests that state the present size of a block. -/
inductive SizedRequest where
  | realloc
  | free
  deriving DecidableEq, Repr

def SizedRequest.name : SizedRequest → String
  | .realloc => "realloc"
  | .free => "free"

/-- Why the path of an engine leads nowhere. -/
inductive PathFault where
  /-- The module has no attribute of that name. -/
  | noAttribute (module name : String)
  /-- There is no such module; when a part of the path in front of it is
  a module without inner modules, that part is named too. -/
  | noModule (missing : String) (leaf : Option String)
  deriving DecidableEq, Repr

/-- A cause of failure. -/
inductive Fault where
  -- clause data
  | clauseSetShape (kind : String)
  | clauseShape (index : Value) (kind : String)
  | literalKind (index : Value) (position : Nat) (kind : String)
  | zeroLiteral (index : Value) (position : Nat)
  -- settings and engine names
  | settingKind (setting : Setting) (kind : String)
  | settingRange (setting : Setting) (given : Int)
  | frozenField (name : String)
  | unknownEngine (name : String) (reason : Option PathFault)
  -- memory
  | outOfMemory (use : MemoryUse)
  | blockSize (request : SizedRequest) (size : Nat) (claimed : Value)
  | freeFailure
  -- engines
  | engineReset
  | noModel
  | literalRange (literal : Value)
  | variableRange (index : Value) (count : Nat)
  | callFailure (method : String)
  | codeKind (kind : String)
  | codeRange (code codes : String)
  | searchRefusal
  -- sessions
  | sessionDestroyed
  | noAssignment (last : Option Outcome)
  | engineCode (code : Value)
  | engineValue (index : Nat) (value : Value)
  -- values of wrong kinds
  | wrongKind
  | missingOperation
  | indexRange
  | unstorable
  | tooLarge
  | beyondRange
  | undefinedResult
  | numeralLength
  | wholePart (what : String)
  | endlessNesting
  | unmetCondition

/-- A number without a result becomes the general fault for it. -/
def Fault.ofNumber : NumberFault → Fault
  | .mismatch => .wrongKind
  | .undefined => .undefinedResult
  | .tooLarge => .tooLarge
  | .beyondRange => .beyondRange

namespace Fault

-- ========================================================= classes

/-- The class that a fault belongs to. -/
def ownClass : Fault → ErrorClass
  | clauseSetShape .. | clauseShape .. => .shapeMismatch
  | literalKind .. => .typeMismatch
  | zeroLiteral .. => .zeroLiteral
  | settingKind .. | settingRange .. | unknownEngine .. => .config
  | frozenField .. => .frozenField
  | outOfMemory .. => .outOfMemory
  | blockSize .. | literalRange .. | variableRange .. | codeKind ..
  | codeRange .. | numeralLength | wholePart .. => .value
  | freeFailure | callFailure .. => .runtime
  | engineReset | noModel | sessionDestroyed | noAssignment .. =>
      .preconditionViolation
  | engineCode .. | engineValue .. => .internalConsistency
  | wrongKind => .type
  | missingOperation => .missingOperation
  | indexRange => .index
  | unstorable => .packing
  | tooLarge => .overflow
  | beyondRange => .decimalOverflow
  | undefinedResult => .undefinedResult
  | searchRefusal => .search
  | endlessNesting => .nesting
  | unmetCondition => .assertion

-- ======================================================== messages

/-- The bound that a setting must keep. -/
def boundText : Setting → String
  | .vars => "vars must be -1 or a non-negative count"
  | .verbose => "verbose must be >= 0"
  | .propLimit => "prop_limit must be >= 0"

/-- The words for a path that leads nowhere. -/
def pathText : PathFault → String
  | .noAttribute module name =>
      "module '" ++ module ++ "' has no attribute '" ++ name ++ "'"
  | .noModule missing leaf =>
      "No module named " ++ Text.quoted missing
        ++ match leaf with
          | some parent => "; " ++ Text.quoted parent ++ " is not a package"
          | none => ""

/-- The words for a numeral that is too long. -/
def numeralText : String :=
  "Exceeds the limit (" ++ toString Number.numeralLimit
    ++ " digits) for integer string conversion; use "
    ++ "sys.set_int_max_str_digits() to increase the limit"

/-- The message that belongs to a fault; the general ones have none. -/
def ownMessage? : Fault → Option String
  | clauseSetShape kind =>
      some ("clause set: sequence expected, got " ++ kind)
  | clauseShape index kind =>
      some ("clause " ++ index.plainText ++ ": sequence expected, got "
        ++ kind)
  | literalKind index position kind =>
      some ("clause " ++ index.plainText ++ ", literal "
        ++ toString position ++ ": integer expected, got " ++ kind)
  | zeroLiteral index position =>
      some ("clause " ++ index.plainText ++ ", literal "
        ++ toString position ++ ": non-zero integer expected")
  | settingKind setting kind =>
      some (setting.name ++ ": integer expected, got " ++ kind)
  | settingRange setting given =>
      some (boundText setting ++ ", got " ++ toString given)
  | frozenField name =>
      some ("cannot assign to field " ++ Text.quoted name)
  | unknownEngine name reason =>
      some ("Unknown SAT engine: " ++ Text.quoted name
        ++ match reason with
          | some r => " (" ++ pathText r ++ ")"
          | none => "")
  | outOfMemory use =>
      some ("allocator returned no memory for the " ++ use.name)
  | blockSize request size claimed =>
      some (request.name ++ ": block has " ++ toString size
        ++ " bytes, caller claims " ++ claimed.plainText)
  | freeFailure => some "allocator free failure"
  | engineReset => some "engine already reset"
  | noModel => some "no model: last solve was not satisfiable"
  | literalRange literal =>
      some ("literal " ++ literal.plainText ++ " outside the 32-bit range")
  | variableRange index count =>
      some ("variable " ++ index.plainText ++ " out of range 1.."
        ++ toString count)
  | callFailure method => some ("fake " ++ method ++ " failure")
  | codeKind kind =>
      some ("engine result code must be an int, got " ++ kind)
  | codeRange code codes => some (code ++ " is not a valid " ++ codes)
  | sessionDestroyed => some "session already destroyed"
  | noAssignment last =>
      some ("no satisfying assignment available (last result: "
        ++ (last.map Outcome.name).getD "None" ++ ")")
  | engineCode code => some ("engine return value: " ++ code.fullText)
  | engineValue index value =>
      some ("engine value for variable " ++ toString index ++ ": "
        ++ value.fullText)
  | numeralLength => some numeralText
  | wholePart what => some ("cannot convert " ++ what ++ " to integer")
  | wrongKind | missingOperation | indexRange | unstorable | tooLarge
  | beyondRange | undefinedResult | searchRefusal | endlessNesting
  | unmetCondition => none

-- ========================================================= reporting

/-- The values that the message of a fault writes out. -/
def mentioned : Fault → List Value
  | clauseShape v _ | literalKind v _ _ | zeroLiteral v _ | blockSize _ _ v
  | literalRange v | variableRange v _ | engineCode v | engineValue _ v =>
      [v]
  | settingRange _ given => [.int given]
  | _ => []

/-- The fault that is reported for a fault. -/
def reported (f : Fault) : Fault :=
  if f.mentioned.all Value.isWritable then f else numeralLength

/-- The class that a fault is reported under. -/
def errorClass (f : Fault) : ErrorClass := f.reported.ownClass

/-- The message that a fault is reported with. -/
def message? (f : Fault) : Option String := f.reported.ownMessage?

end Fault

/-- An answer about numbers as a step of any computation that may fail
with a fault and leaves its state alone. -/
def settle {σ α : Type} : Except NumberFault α → EStateM Fault σ α
  | .ok a => pure a
  | .error e => throw (Fault.ofNumber e)

@[simp] theorem settle_ok {σ α : Type} (a : α) :
    (settle (.ok a) : EStateM Fault σ α) = pure a := rfl

end SatSession
