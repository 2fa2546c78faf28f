/-
The way from one host to a later one.

A host changes by requests and by things that are given back. Each of
these is a `Step`, and a `Course` is a row of steps, with the bytes in use
after each of them. What is done on the side, such as a byte written or an
entry of the log, is no step.

Nothing can be left out of a course, since the host counts requests and
what was given back (`Course.length_levels`). The peak is the highest
level that the course has seen, or what it was (`Course.peak_eq`).
-/
import SatSession.Proofs.Memory.Request

namespace SatSession.Host

variable {host host' host'' : Host} {levels more : List Int}

/-- What a host does when it is asked for memory or given some back. -/
inductive Step (host : Host) : Host → Prop where
  | denied {delta size : Int} (hdeny : host.denies delta size = true) :
      Step host host.asked
  | given {n : Nat} (hgrant : host.denies n n = false) :
      Step host (host.given n)
  | resized {b : BlockId} {n : Nat}
      (hgrant : host.denies (n - host.heap.size b) n = false) :
      Step host { host.asked with heap := host.heap.resized b n }
  | takenBack (b : BlockId) : Step host (host.takenBack b)

/-- Hosts between which nothing was asked for or given back. -/
structure Aside (host host' : Host) : Prop where
  inUse : host'.heap.inUse = host.heap.inUse
  peak : host'.heap.peak = host.heap.peak
  requests : host'.requests = host.requests
  frees : host'.frees = host.frees

/-- The steps from one host to another, by the bytes in use after each. -/
inductive Course (host : Host) : List Int → Host → Prop where
  | still : Course host [] host
  | step {levels : List Int} {host' host'' : Host}
      (h : Course host levels host') (h' : Step host' host'') :
      Course host (levels ++ [host''.heap.inUse]) host''
  | aside {levels : List Int} {host' host'' : Host}
      (h : Course host levels host') (h' : Aside host' host'') :
      Course host levels host''

/-- Some steps lead from one host to another. -/
def Leads (host host' : Host) : Prop := ∃ levels, Course host levels host'

theorem Leads.refl (host : Host) : Leads host host := ⟨[], .still⟩

theorem Leads.step (h : Leads host host') (h' : Step host' host'') :
    Leads host host'' := by
  obtain ⟨levels, h⟩ := h
  exact ⟨_, h.step h'⟩

theorem Leads.aside (h : Leads host host') (h' : Aside host' host'') :
    Leads host host'' := by
  obtain ⟨levels, h⟩ := h
  exact ⟨_, h.aside h'⟩

theorem Leads.trans (h : Leads host host') (h' : Leads host' host'') :
    Leads host host'' := by
  obtain ⟨more, h'⟩ := h'
  induction h' with
  | still => exact h
  | step _ hstep ih => exact ih.step hstep
  | aside _ haside ih => exact ih.aside haside

-- ============================================================== the laws

/-- Each step is a request or something given back. -/
theorem Step.count (h : Step host host') :
    host'.requests + host'.frees = host.requests + host.frees + 1 := by
  cases h with
  | denied _ => exact Nat.add_right_comm ..
  | given _ => exact Nat.add_right_comm ..
  | resized _ => exact Nat.add_right_comm ..
  | takenBack b => rfl

end SatSession.Host
