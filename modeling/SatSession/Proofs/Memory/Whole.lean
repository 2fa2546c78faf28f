/-
Memories that count in whole numbers.

Sizes of any kind may be handed to a memory, and then its counters may
take on other kinds too. As long as the limit and the count of bytes in
use are whole numbers, a request with a whole size is the request that
`Heap` defines: nothing is left of the comparisons between kinds.
-/
import SatSession.Heap.Request
import SatSession.Proofs.Ends

namespace SatSession.Heap

/-- A memory whose limit and whose count of bytes in use are whole
numbers. -/
structure Whole (h : Heap) : Prop where
  limit : h.oddLimit = .none
  count : h.inUseKind = .whole

variable {h : Heap}

/-- The limit is compared with a whole number. -/
theorem Whole.fitsValue_int (hw : h.Whole) (delta : Int) :
    h.fitsValue (.int delta) = .ok (h.fits delta) := by
  unfold Heap.fitsValue limitValue fits
  rw [hw.limit]
  cases h.limit with
  | none => rfl
  | some limit =>
      simp only [inUseNumber, hw.count, CounterKind.number]
      rfl

/-- Asking for a whole number of bytes. -/
theorem Whole.allocValue_int (hw : h.Whole) (size : Int) :
    allocValue (.int size) h = alloc size h := by
  unfold alloc
  by_cases hsign : size < 0
  · simp [allocValue, hsign]
  · cases hfits : h.fits size <;>
      simp [allocValue, alloc, hw.fitsValue_int, hsign, hfits,
        Value.whole?, Number.whole?]

/-- Asking for another size, with both sizes whole numbers. -/
theorem Whole.reallocValue_int (hw : h.Whole) (b : BlockId)
    (old new : Int) :
    reallocValue b (.int old) (.int new) h = realloc b old new h := by
  have hdelta : (Value.int new).sub (.int old) = .ok (.int (new - old)) :=
    rfl
  unfold realloc
  by_cases hsign : new < 0
  · simp [reallocValue, hsign]
  by_cases hold : (h.size b : Int) = old
  · subst hold
    cases hfits : h.fits (new - h.size b) <;>
      simp [reallocValue, realloc, hw.fitsValue_int, hsign, hdelta, hfits,
        Value.whole?, Number.whole?]
  · have hne : ¬ old = (h.size b : Int) := fun heq => hold heq.symm
    simp [reallocValue, hsign, hold, hne]
    exact bind_of_error throw_apply

/-- Giving a block back, with its size stated as a whole number. -/
theorem Whole.freeValue_int (hw : h.Whole) (b : BlockId) (size : Int) :
    freeValue b (.int size) h = free b size h := by
  unfold free
  by_cases hsize : (h.size b : Int) = size
  · subst hsize
    have htotal : (Value.number h.inUseNumber).sub (.int (h.size b))
        = .ok (.int (h.inUse - h.size b)) := by
      rw [inUseNumber, hw.count]
      rfl
    have hkeep : keepAs (.int (h.inUse - h.size b)) h = .ok () h := by
      have hkind := hw.count
      show EStateM.Result.ok () { h with inUseKind := .whole } = _
      rw [← hkind]
    simp [freeValue, free, htotal, bind_of_ok hkeep]
  · have hne : ¬ size = (h.size b : Int) := fun heq => hsize heq.symm
    simp [freeValue, hsize, hne]
    exact bind_of_error throw_apply

end SatSession.Heap
