/-
The settings of a session.

All three are whole numbers with a least value. The kinds of all three
are looked at before the range of any, and both in the order in which the
settings are declared.
-/
import SatSession.Fault

namespace SatSession

/-- Settings that have passed the check. -/
structure Config where
  /-- The number of variables to make, or minus one to take it from the
  clauses. -/
  vars : Int := -1
  /-- How much is reported. From two on the problem is printed. -/
  verbose : Int := 0
  /-- The cap on the effort of each search, zero for none. -/
  propLimit : Int := 0
  deriving DecidableEq, Repr

namespace Config

/-- A whole number given for a setting. Truth values are refused. -/
def whole (setting : Setting) (v : Value) : Except Fault Int :=
  match v with
  | .number (.int n) => .ok n
  | v => .error (.settingKind setting v.kind)

/-- Refuses a number below the least one. -/
def atLeast (setting : Setting) (least n : Int) : Except Fault Unit :=
  if n < least then .error (.settingRange setting n) else .ok ()

/-- Checks settings. -/
def build (vars verbose propLimit : Value) : Except Fault Config := do
  let vars ← whole .vars vars
  let verbose ← whole .verbose verbose
  let propLimit ← whole .propLimit propLimit
  atLeast .vars (-1) vars
  atLeast .verbose 0 verbose
  atLeast .propLimit 0 propLimit
  return { vars := vars, verbose := verbose, propLimit := propLimit }

/-- Settings are fixed once they are built: no assignment to a field is
ever accepted. -/
def assign (_ : Config) (field : String) (_ : Value) : Except Fault Config :=
  .error (.frozenField field)

/-- The settings as text. -/
def text (c : Config) : String :=
  "SolverConfig(vars=" ++ toString c.vars ++ ", verbose="
    ++ toString c.verbose ++ ", prop_limit=" ++ toString c.propLimit ++ ")"

end Config

end SatSession
