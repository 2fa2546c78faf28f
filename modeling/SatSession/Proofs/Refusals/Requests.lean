/-
Requests for memory, held to rules.

Whether a request is refused under some rules can be read off the run that
is granted everything: by the number of the request, or by the peak that it
leads to (`Host.asks_of_eq`). A request that states a wrong size fails
whatever the rules are, unless its number is refused first. What gives
memory back or writes to it asks for nothing and is the same under all
rules.
-/
import SatSession.Proofs.Refusals.Lockstep

namespace SatSession

open Ruled

variable {r : Rules} {may : Prop}

namespace Host

variable {host : Host} {b : BlockId}

-- ============================================================= requests

theorem Generous.plain_under (h : host.Generous) (r : Rules) :
    (under r host).Plain :=
  ⟨h.plain.unwatched, h.plain.whole_limit, h.plain.whole_count⟩

theorem Generous.takesBack_under (h : host.Generous) (r : Rules) :
    (under r host).TakesBack := h.takesBack

/-- Counting a request makes no host less generous. -/
theorem Generous.asked (h : host.Generous) : host.asked.Generous :=
  ⟨⟨h.plain.1, h.plain.2, h.plain.3⟩, h.takesBack, h.unplanned, h.unlimited,
    h.supplied⟩

/-- What rules deny on a host that would grant everything. -/
theorem Generous.denies_under (h : host.Generous) (delta size : Int) :
    (under r host).denies delta size = true
      ↔ r.refuses (host.requests + 1) = true
        ∨ ∃ L, r.limit = some L ∧ L < host.heap.inUse + delta := by
  have hsupply : (under r host).heap.affords delta size = true := by
    unfold Heap.affords Heap.supplies
    rw [show (under r host).heap.supply = none from h.supplied, Bool.or_true]
  have hfits : (!(under r host).heap.fits delta) = true
      ↔ ∃ L, r.limit = some L ∧ L < host.heap.inUse + delta := by
    unfold Heap.fits
    rw [show (under r host).heap.limit = r.limit from rfl,
      show (under r host).heap.inUse = host.heap.inUse from rfl]
    cases r.limit <;> simp
  rw [denies, hsupply, Bool.not_true, Bool.or_false, Bool.or_eq_true, hfits]
  rfl

/-- The next request, if the rules do not refuse its number. -/
theorem quiet_asked {heap : Heap}
    (hplan : ¬ r.refuses (host.requests + 1) = true)
    (hcap : ∀ L, r.limit = some L → host.heap.peak ≤ L → heap.peak ≤ L) :
    Quiet r host { host.asked with heap := heap } where
  unplanned k hlt hle := by
    have hlt : host.requests < k := hlt
    have hle : k ≤ host.requests + 1 := hle
    rw [show k = host.requests + 1 by omega]
    exact Bool.eq_false_iff.mpr hplan
  capped := hcap

/-- The next request, if the rules refuse its number. -/
theorem hit_asked {q host' : Host}
    (hplan : r.refuses (host.requests + 1) = true)
    (hq : q.requests = host.requests + 1) : Hit r host q host' :=
  Or.inl ⟨host.requests + 1, Nat.lt_succ_self _, Nat.le_of_eq hq.symm,
    hplan⟩

/-- A request that is granted if the rules do not deny it. -/
theorem asks_of_eq {α : Type} {op : HostOp α} {no yes : α}
    (delta size : Int) (heap : Heap)
    (hfree : op host = .ok yes { host.asked with heap := heap })
    (hruled : op (under r host)
      = if (under r host).denies delta size then
          .ok no (under r host).asked
        else .ok yes (under r { host.asked with heap := heap }))
    (hne : yes ≠ no) (hlavish : heap.Lavish)
    (hpeak : heap.peak = max host.heap.peak (host.heap.inUse + delta)) :
    Asks no r op host := by
  intro hs
  have hs : host.Generous := hs
  have hstep : Further host { host.asked with heap := heap } := by
    refine ⟨?_, Nat.le_succ _, ?_⟩
    · exact hs.asked.withHeap hlavish
    · show host.heap.peak ≤ heap.peak
      omega
  rw [hfree, hruled]
  refine ⟨hne, hstep, ?_⟩
  by_cases hdenied : (under r host).denies delta size = true
  · rw [if_pos hdenied]
    rcases (hs.denies_under delta size).mp hdenied with hplan | ⟨L, hL, hlt⟩
    · exact Or.inr ⟨rfl, hit_asked hplan rfl⟩
    · refine Or.inr ⟨rfl, Or.inr ⟨L, hL, ?_⟩⟩
      show L < heap.peak
      omega
  · rw [if_neg hdenied]
    rw [hs.denies_under] at hdenied
    refine Or.inl ⟨rfl, quiet_asked (fun h => hdenied (Or.inl h)) ?_⟩
    intro L hL hbelow
    have hfits : ¬ L < host.heap.inUse + delta := fun hlt =>
      hdenied (Or.inr ⟨L, hL, hlt⟩)
    omega

/-- Asking for a block. -/
theorem alloc_asks (n : Nat) : Asks none r (alloc (.int n)) host :=
  fun hs => asks_of_eq n n (host.heap.granted n)
    (by rw [alloc_eq hs.plain, hs.denies_eq]; rfl)
    (alloc_eq (hs.plain_under r) n) (by simp)
    ⟨hs.unlimited, hs.plain.whole_limit, hs.supplied, hs.plain.whole_count⟩
    rfl hs

/-- A block that is granted is the one handed out last. -/
theorem Generous.of_alloc (hs : host.Generous) {n : Nat}
    {o : Option BlockId} {host' : Host}
    (h : alloc (.int n) host = .ok o host') :
    o = some host.heap.blocks.size ∧ host' = host.given n := by
  have heq := alloc_eq hs.plain n
  rw [hs.denies_eq] at heq
  obtain ⟨rfl, rfl⟩ := EStateM.Result.ok.inj (h.symm.trans heq)
  exact ⟨rfl, rfl⟩

/-- A block that is refused is asked for and no more. -/
theorem Plain.of_alloc_none (hp : host.Plain) {n : Nat} {q : Host}
    (h : alloc (.int n) host = .ok none q) : q = host.asked := by
  have heq := h.symm.trans (alloc_eq hp n)
  split at heq
  next => exact (EStateM.Result.ok.inj heq).2
  next => cases (EStateM.Result.ok.inj heq).1

/-- Stating a wrong size. -/
theorem realloc_mismatch (hp : host.Plain) {old : Nat}
    (hold : host.heap.size b ≠ old) (n : Nat) :
    realloc b (.int old) (.int n) host
      = if host.plan.refuses (host.requests + 1) then .ok false host.asked
        else .error (.blockSize .realloc (host.heap.size b) (.int old))
          host.asked := by
  have hshape := counted_eq hp.unwatched false
    (Heap.reallocValue b (.int old) (.int n))
    fun granted => Event.realloc (.int old) (.int n) granted
  refine Eq.trans hshape ?_
  have hmemory : Heap.reallocValue b (.int old) (.int n) host.heap
      = .error (.blockSize .realloc (host.heap.size b) (.int old))
        host.heap := by
    have hsign : ¬ ((n : Int) < 0) := by omega
    have hne : (host.heap.size b : Int) ≠ old := by omega
    rw [hp.whole.reallocValue_int, Heap.realloc, if_neg hsign, if_pos hne]
  simp only [onHeap, asked, hmemory]

/-- Asking for another size of a block. -/
theorem realloc_asks (b : BlockId) (old n : Nat) :
    Asks false r (realloc b (.int old) (.int n)) host := by
  intro hs
  have hs : host.Generous := hs
  by_cases hold : host.heap.size b = old
  · have hold' : (under r host).heap.size b = old := hold
    refine asks_of_eq (n - old) n (host.heap.resized b n) ?_
      (realloc_eq (hs.plain_under r) hold' n)
      (by simp) ⟨hs.unlimited, hs.plain.whole_limit, hs.supplied,
        hs.plain.whole_count⟩ ?_ hs
    · rw [realloc_eq hs.plain hold, hs.denies_eq]
      rfl
    · subst hold
      rfl
  · have hold' : (under r host).heap.size b ≠ old := hold
    rw [realloc_mismatch hs.plain hold, hs.unplanned,
      realloc_mismatch (hs.plain_under r) hold']
    have hstep : Further host host.asked :=
      ⟨hs.asked, Nat.le_succ _, Int.le_refl _⟩
    refine ⟨trivial, ⟨hstep, by simp⟩, ?_⟩
    show Follows _ r host _
      (if r.refuses (host.requests + 1) then _ else _)
    by_cases hplan : r.refuses (host.requests + 1) = true
    · rw [if_pos hplan]
      exact Or.inr ⟨rfl, hit_asked hplan rfl⟩
    · rw [if_neg hplan]
      exact Or.inl ⟨rfl, quiet_asked hplan fun _ _ h => h⟩

/-- A block that must be grown, or the operation runs out of memory. -/
theorem growth_inStep {σ α : Type} {p : Placed σ} (b : BlockId)
    (old n : Nat) (use : MemoryUse) {k : Op σ α}
    (hk : ∀ p, InStep True r k p) :
    InStep True r (do
      let granted ← Op.onHost (realloc b (.int old) (.int n))
      if !granted then throw (.outOfMemory use)
      k) p := by
  refine (realloc_asks b old n).onHost.demand ?_ ?_
  · intro q _
    exact ⟨⟨use, rfl⟩, Nat.le_refl _⟩
  · intro granted p' _ hgranted
    rw [Bool.ne_false_iff.mp hgranted]
    exact .ite (by simp) fun _ => hk p'

-- ============================================================ giving back

/-- A block that is given back with another size than it has stays with its
owner; only the call is counted. -/
theorem free_mismatch (hp : host.Plain) (ht : host.TakesBack) {size : Nat}
    (hsize : host.heap.size b ≠ size) :
    free b (.int size) host
      = .error (.blockSize .free (host.heap.size b) (.int size))
        { host with frees := host.frees + 1 } := by
  have hne : (host.heap.size b : Int) ≠ size := by omega
  have hmemory : Heap.freeValue b (.int size) host.heap
      = .error (.blockSize .free (host.heap.size b) (.int size))
        host.heap := by
    rw [hp.whole.freeValue_int, Heap.free, if_pos hne]
  unfold free
  rw [bind_of_ok (recordRequest_eq hp.unwatched _)]
  simp [ht (host.frees + 1), onHeap, hmemory]

/-- Giving a block back asks for nothing. -/
theorem free_inStep (b : BlockId) (size : Nat) :
    InStep may r (free b (.int size)) host := by
  intro hs
  have hs : host.Generous := hs
  have hp := hs.plain
  by_cases hsize : host.heap.size b = size
  · have hsize' : (under r host).heap.size b = size := hsize
    have hruled := free_eq (hs.plain_under r) (hs.takesBack_under r) hsize'
    refine InStep.of_ok (free_eq hp hs.takesBack hsize) hruled ?_ rfl rfl hs
    exact fun _ => ⟨⟨hp.1, hp.2, hp.3⟩, hs.takesBack, hs.unplanned,
      hs.unlimited, hs.supplied⟩
  · have hsize' : (under r host).heap.size b ≠ size := hsize
    have hruled := free_mismatch (hs.plain_under r) (hs.takesBack_under r)
      hsize'
    refine InStep.of_error (free_mismatch hp hs.takesBack hsize) hruled
      (by simp) ?_ rfl rfl hs
    exact fun _ => ⟨⟨hp.1, hp.2, hp.3⟩, hs.takesBack, hs.unplanned,
      hs.unlimited, hs.supplied⟩

-- ============================================================ on the side

theorem note_inStep (e : LogEntry) : InStep may r (note e) host :=
  .modify rfl (fun h => ⟨⟨h.plain.1, h.plain.2, h.plain.3⟩, h.takesBack,
    h.unplanned, h.unlimited, h.supplied⟩) rfl rfl

theorem print_inStep (s : String) : InStep may r (print s) host :=
  .modify rfl (fun h => ⟨⟨h.plain.1, h.plain.2, h.plain.3⟩, h.takesBack,
    h.unplanned, h.unlimited, h.supplied⟩) rfl rfl

end Host

namespace Heap

variable {heap : Heap}

/-- Writing a byte asks for nothing. -/
theorem poke_inStep (b : BlockId) (i : Nat) (byte : UInt8) :
    InStep may r (poke b i byte) heap := by
  by_cases hi : i < heap.size b
  · have hi' : i < (under r heap).size b := hi
    exact .of_ok (if_pos hi) (if_pos hi')
      (fun h => ⟨h.1, h.2, h.3, h.4⟩) rfl rfl
  · have hi' : ¬ i < (under r heap).size b := hi
    exact .of_error (if_neg hi) (if_neg hi') (by simp) id rfl rfl

end Heap

end SatSession
