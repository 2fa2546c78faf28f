/-
The classes of errors and how they are related.

Every error of a session belongs to one class, and a class is a special
case of others: who handles the errors of a wider class also handles
those of a narrower one. Errors about clause data are at the same time
errors of the general classes for wrong kinds and wrong values, so a
caller need not know the narrower ones.
-/

namespace SatSession

/-- A class of errors. -/
inductive ErrorClass where
  -- the classes of this library
  | sat
  | validation
  | shapeMismatch
  | typeMismatch
  | zeroLiteral
  | config
  | outOfMemory
  | internalConsistency
  | preconditionViolation
  | frozenField
  -- the general classes
  | type
  | value
  | runtime
  | missingOperation
  | lookup
  | index
  | overflow
  | decimalOverflow
  | arithmetic
  | memory
  | system
  | packing
  | undefinedResult
  | nesting
  | search
  | assertion
  | recoverable
  | any
  deriving DecidableEq, Repr

namespace ErrorClass

/-- The name under which a class is reported. -/
def name : ErrorClass → String
  | sat => "SatError"
  | validation => "ValidationError"
  | shapeMismatch => "ShapeMismatch"
  | typeMismatch => "TypeMismatch"
  | zeroLiteral => "ZeroLiteral"
  | config => "ConfigError"
  | outOfMemory => "OutOfMemory"
  | internalConsistency => "InternalConsistencyError"
  | preconditionViolation => "PreconditionViolation"
  | frozenField => "FrozenInstanceError"
  | type => "TypeError"
  | value => "ValueError"
  | runtime => "RuntimeError"
  | missingOperation => "AttributeError"
  | lookup => "LookupError"
  | index => "IndexError"
  | overflow => "OverflowError"
  | decimalOverflow => "Overflow"
  | arithmetic => "ArithmeticError"
  | memory => "MemoryError"
  | system => "SystemError"
  | packing => "error"
  | undefinedResult => "InvalidOperation"
  | nesting => "RecursionError"
  | search => "Z3Exception"
  | assertion => "AssertionError"
  | recoverable => "Exception"
  | any => "BaseException"

/-- The nearest general class of a class of this library, if it has one
besides `recoverable`. -/
def general? : ErrorClass → Option ErrorClass
  | shapeMismatch | typeMismatch => some type
  | zeroLiteral | config => some value
  | outOfMemory => some memory
  | internalConsistency => some system
  | preconditionViolation => some runtime
  | frozenField => some missingOperation
  | index => some lookup
  | overflow | decimalOverflow | undefinedResult => some arithmetic
  | nesting => some runtime
  | _ => none

/-- The class of this library right above a class of it. -/
def family? : ErrorClass → Option ErrorClass
  | shapeMismatch | typeMismatch | zeroLiteral => some validation
  | validation | config | outOfMemory | internalConsistency
  | preconditionViolation => some sat
  | _ => none

/-- The families above a class, nearest first. No family is more than
two steps below the top one. -/
def families (c : ErrorClass) : List ErrorClass :=
  match c.family? with
  | none => []
  | some f => f :: f.family?.toList

/-- A class and all wider ones: first its families, then its general
class, then the two widest. -/
def lineage (c : ErrorClass) : List ErrorClass :=
  match c with
  | any => [any]
  | recoverable => [recoverable, any]
  | c => c :: c.families ++ c.general?.toList ++ [recoverable, any]

/-- The classes that this library defines, by name. -/
def defined : List ErrorClass :=
  [sat, validation, shapeMismatch, typeMismatch, zeroLiteral, config,
    outOfMemory, internalConsistency, preconditionViolation]

/-- Looks up a class of this library by its name. -/
def ofName? (s : String) : Option ErrorClass :=
  defined.find? fun c => c.name == s

end ErrorClass

end SatSession
