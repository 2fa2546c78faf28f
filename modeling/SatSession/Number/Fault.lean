/-
Why an operation on numbers has no answer.
-/

namespace SatSession

/-- The causes, which the general faults report one by one. -/
inductive NumberFault where
  /-- The operation is not defined for these kinds of number. -/
  | mismatch
  /-- The kinds are right, but these numbers have no result. -/
  | undefined
  /-- A number would have to become a double and is too large for one. -/
  | tooLarge
  /-- A decimal result would need too large an exponent. -/
  | beyondRange
  deriving DecidableEq, Repr

end SatSession
