/-
Objects that share a memory do not disturb each other.

Any number of tenants live on one host without bounds, and their calls
come in any order. What each of them is told is what it would be told on a
host of its own; the bytes in use and the number of blocks are at any time
the sums of what the tenants would show alone; and when all are gone
nothing is left (`tenants_undisturbed`).

The invariant is `Apart`: every tenant stands in the shared memory at
places of its own, and no place is that of two. One call keeps it
(`Apart.serve`): for the tenant that is called because a call comes to the
same in two memories, and for the others because it works at the places of
that tenant alone. That nothing is left is a matter of each tenant by
itself, and is read off the memory that it would have alone
(`accounted`).
-/
import Mathlib.Algebra.BigOperators.Group.Finset.Piecewise
import Mathlib.Data.Fintype.Basic
import Mathlib.Data.List.Induction
import SatSession.Proofs.Sharing.Leaving

namespace SatSession

variable {ι : Type} [DecidableEq ι]

-- =========================================================== the schedule

/-- A tenant attends to a call, and the others wait. -/
def serve (step : ι × TenantCall) : Op (ι → Resident) Unit :=
  Op.within (fun all => all step.1)
    (fun r all => Function.update all step.1 r) (Resident.attend step.2)

/-- How things stand after some calls of tenants that share a fresh
host. -/
def together (schedule : List (ι × TenantCall)) : Placed (ι → Resident) :=
  afterTurns serve schedule ⟨fun _ => {}, Host.boundless⟩

/-- The calls of one tenant. -/
def callsOf (i : ι) (schedule : List (ι × TenantCall)) : List TenantCall :=
  (schedule.filter fun step => step.1 = i).map Prod.snd

/-- How things stand after some calls of a tenant on a fresh host of its
own. -/
def alone (calls : List TenantCall) : Placed Resident :=
  afterTurns Resident.attend calls ⟨{}, Host.boundless⟩

/-- How all tenants of a schedule would stand alone. -/
def eachAlone (schedule : List (ι × TenantCall)) : ι → Placed Resident :=
  fun i => alone (callsOf i schedule)

variable {schedule : List (ι × TenantCall)} {p : Placed (ι → Resident)}
  {solos : ι → Placed Resident}

/-- A shared host after a call of one tenant. -/
def served (i : ι) (call : TenantCall) (p : Placed (ι → Resident)) :
    Placed (ι → Resident) :=
  let q := Resident.attended call ⟨p.object i, p.host⟩
  ⟨Function.update p.object i q.object, q.host⟩

/-- One call more is served to its tenant. -/
theorem together_concat (i : ι) (call : TenantCall) :
    together (schedule ++ [(i, call)])
      = served i call (together schedule) := by
  unfold together
  rw [afterTurns_concat]
  unfold Turn.take serve Op.within
  dsimp only
  rw [Resident.attend_eq]
  rfl

/-- The tenants alone, after a call of one of them. -/
theorem eachAlone_concat (i : ι) (call : TenantCall) :
    eachAlone (schedule ++ [(i, call)])
      = Function.update (eachAlone schedule) i
          (Resident.attended call (eachAlone schedule i)) := by
  funext j
  unfold eachAlone callsOf
  rw [List.filter_append, List.map_append]
  by_cases hj : j = i
  · subst hj
    have hlast : ([(j, call)].filter fun step : ι × TenantCall =>
        step.1 = j).map Prod.snd = [call] := by simp
    rw [Function.update_self, hlast]
    exact afterTurns_concat ..
  · have hlast : ([(i, call)].filter fun step : ι × TenantCall =>
        step.1 = j).map Prod.snd = [] := by simp [Ne.symm hj]
    rw [Function.update_of_ne hj, hlast, List.append_nil]

-- ============================================================== apart

section

variable [Fintype ι]

/-- Tenants that share a memory, each at places of its own, and how they
would stand alone. -/
structure Apart (p : Placed (ι → Resident)) (solos : ι → Placed Resident) :
    Prop where
  places : ∃ places : ι → Places,
    (∀ i, Alike (places i) (⟨p.object i, p.host⟩ : Placed Resident)
        (solos i))
      ∧ ∀ i j, i ≠ j → ∀ b ∈ places i, b ∉ places j
  inUse : p.host.heap.inUse = ∑ i, (solos i).host.heap.inUse
  live : p.host.heap.live = ∑ i, (solos i).host.heap.live

/-- A sum over the tenants, after something has become of one of them. -/
theorem sum_update (f : Placed Resident → Int) (i : ι)
    (q : Placed Resident) :
    ∑ j, f (Function.update solos i q j)
      = ∑ j, f (solos j) + (f q - f (solos i)) := by
  have hupdate : (fun j => f (Function.update solos i q j))
      = Function.update (fun j => f (solos j)) i (f q) :=
    Function.comp_update f solos i q
  rw [hupdate, Finset.sum_update_of_mem (Finset.mem_univ i),
    ← Finset.add_sum_erase _ (fun j => f (solos j)) (Finset.mem_univ i),
    Finset.sdiff_singleton_eq_erase]
  omega

/-- Before the first call there are no places at all. -/
theorem apart_nil :
    Apart (together ([] : List (ι × TenantCall))) (eachAlone []) := by
  refine ⟨⟨fun _ => [], fun i => ?_, by simp⟩, ?_, ?_⟩
  · refine ⟨Host.generous_boundless, Host.generous_boundless, ?_, rfl,
      .absent⟩
    exact ⟨List.nodup_nil, by simp, rfl, by simp [Stands]⟩
  · exact (Finset.sum_const_zero).symm
  · exact (Finset.sum_const_zero).symm

/-- A call of one tenant keeps all of them apart. -/
theorem Apart.served (h : Apart p solos) (i : ι) (call : TenantCall) :
    Apart (served i call p)
      (Function.update solos i (Resident.attended call (solos i))) := by
  obtain ⟨places, halike, hapart⟩ := h.places
  obtain ⟨more, hreached⟩ := Resident.attended_reached (halike i) call
  have hcalled := hreached.alike
  have hbeside : p.host.heap.Beside (places i) more
      (Resident.attended call ⟨p.object i, p.host⟩).host.heap
      (solos i).host.heap (Resident.attended call (solos i)).host.heap :=
    hreached.beside
  have hother : ∀ j, j ≠ i → ∀ b ∈ places j, b ∉ places i ++ more :=
    fun j hj => (halike j).placed.notMem hbeside (hapart j i hj)
  -- the tenant that was served has more places now; those of all others
  -- are what they were, and apart from the new ones
  refine ⟨⟨Function.update places i (places i ++ more), fun j => ?_,
    fun j k hjk b hb => ?_⟩, ?_, ?_⟩
  · unfold SatSession.served
    by_cases hj : j = i
    · subst hj
      simp only [Function.update_self]
      exact hcalled
    · simp only [Function.update_of_ne hj]
      have hwaiting := halike j
      exact ⟨hcalled.shared, hwaiting.alone,
        hwaiting.placed.beside hbeside (hapart j i hj), hwaiting.like⟩
  · by_cases hj : j = i
    · subst hj
      rw [Function.update_of_ne (Ne.symm hjk)]
      rw [Function.update_self] at hb
      exact fun hk => hother k (Ne.symm hjk) b hk hb
    · rw [Function.update_of_ne hj] at hb
      by_cases hk : k = i
      · subst hk
        rw [Function.update_self]
        exact hother j hj b hb
      · rw [Function.update_of_ne hk]
        exact hapart j k hjk b hb
  · rw [sum_update (fun q => q.host.heap.inUse), ← h.inUse]
    have hbooks := hbeside.inUse
    show (Resident.attended call ⟨p.object i, p.host⟩).host.heap.inUse = _
    omega
  · rw [sum_update (fun q => q.host.heap.live), ← h.live]
    have hbooks := hbeside.live
    show (Resident.attended call ⟨p.object i, p.host⟩).host.heap.live = _
    omega

/-- Tenants are apart whatever they are called for, and in whatever
order. -/
theorem apart_together (schedule : List (ι × TenantCall)) :
    Apart (together schedule) (eachAlone schedule) := by
  induction schedule using List.reverseRecOn with
  | nil => exact apart_nil
  | append_singleton schedule step ih =>
      obtain ⟨i, call⟩ := step
      rw [together_concat, eachAlone_concat]
      exact ih.served i call

omit [DecidableEq ι] in
/-- A tenant is the same in company as it would be alone. -/
theorem Apart.like (h : Apart p solos) (i : ι) :
    ∃ places, Lodger.Like places (p.object i) (solos i).object := by
  obtain ⟨places, halike, -⟩ := h.places
  exact ⟨places i, (halike i).like⟩

-- ============================================================= accounts

/-- Every tenant keeps its account, as long as no object has more variables
than a clause can name. -/
theorem accounted (schedule : List (ι × TenantCall))
    (hvars : ∀ early, early <+: schedule → ∀ i,
      (((together early).object i).tenant.varCount : Int)
        ≤ Word.literalMax) (i : ι) :
    Tenant.Accounted Host.boundless
      ⟨(eachAlone schedule i).object.tenant,
        (eachAlone schedule i).host⟩ := by
  induction schedule using List.reverseRecOn with
  | nil => exact Host.Holding.refl Host.boundless
  | append_singleton schedule step ih =>
      obtain ⟨j, call⟩ := step
      have hearlier := ih fun early hle =>
        hvars early (hle.trans (List.prefix_append ..))
      rw [eachAlone_concat]
      by_cases hi : i = j
      · subst hi
        rw [Function.update_self]
        refine Resident.attended_accounts Host.generous_boundless call
          hearlier ?_
        obtain ⟨places, -, hmatch⟩ := (apart_together schedule).like i
        have hcount := Tenant.Match.varCount_eq hmatch
        rw [← hcount]
        exact hvars schedule (List.prefix_append ..) i
      · rw [Function.update_of_ne hi]
        exact hearlier

-- ========================================================== the theorem

/-- On a host without bounds, whatever tenants are called for and in
whatever order: each is told what it would be told on a host of its own,
and the books are at any time the sums of those that the tenants would have
alone. When all are gone, and none of them has had more variables than a
clause can name, the books are what they were in the beginning. -/
theorem tenants_undisturbed (schedule : List (ι × TenantCall)) :
    let p := together schedule
    (∀ i, (p.object i).heard = (alone (callsOf i schedule)).object.heard)
      ∧ p.host.heap.inUse
          = ∑ i, (alone (callsOf i schedule)).host.heap.inUse
      ∧ p.host.heap.live
          = ∑ i, (alone (callsOf i schedule)).host.heap.live
      ∧ ((∀ early, early <+: schedule → ∀ i,
            (((together early).object i).tenant.varCount : Int)
              ≤ Word.literalMax) →
          (∀ i, (p.object i).tenant.gone = true) →
          p.host.heap.inUse = Host.boundless.heap.inUse
            ∧ p.host.heap.live = Host.boundless.heap.live) := by
  intro p
  have hapart := apart_together schedule
  refine ⟨fun i => ?_, hapart.inUse, hapart.live, fun hvars hgone => ?_⟩
  · obtain ⟨places, hheard, -⟩ := hapart.like i
    exact hheard
  · -- every tenant has left the memory that it would have alone empty
    have hempty : ∀ i, Host.Holding [] Host.boundless
        (eachAlone schedule i).host := fun i => by
      obtain ⟨places, -, hmatch⟩ := hapart.like i
      refine (accounted schedule hvars i).holding ?_
      rw [← Tenant.Match.gone_eq hmatch]
      exact hgone i
    constructor
    · show (together schedule).host.heap.inUse = 0
      rw [hapart.inUse]
      refine Finset.sum_eq_zero fun i _ => ?_
      rw [(hempty i).books, Heap.held_nil]
      rfl
    · show (together schedule).host.heap.live = 0
      rw [hapart.live]
      refine Finset.sum_eq_zero fun i _ => ?_
      rw [(hempty i).live]
      rfl

end

/-- A search that finds an assignment once. -/
def onceTrue : Search := fun k _ =>
  if k = 0 then .sat fun _ => true else .unsat

/-- A session and a cursor that take turns. -/
def visits : List (Bool × TenantCall) := [
  (true, .openSession onceTrue (.seq .list [.seq .list [.int 1, .int 2]])
    (.int (-1)) (.int 0) (.int 0)),
  (false, .openCursor onceTrue (.seq .list [.seq .list [.int (-3)]])
    (.int (-1)) (.int 0) (.int 0)),
  (true, .invoke (.int (-1))),
  (false, .next),
  (true, .decode),
  (true, .ingest (.seq .list [.seq .list [.int 4, .int 0]])),
  (false, .next),
  (true, .destroy)]

/-- Four tables and a buffer are in use after the first four calls. The
literal zero is refused; in the end both are gone and have left nothing. -/
theorem tenants_undisturbed_by_turns :
    (together (visits.take 4)).host.heap.live = 5
      ∧ (∀ i, ((together visits).object i).heard
          = (alone (callsOf i visits)).object.heard)
      ∧ (together visits).host.heap.inUse = 0
      ∧ (together visits).host.heap.live = 0 := by
  obtain ⟨hheard, -, -, hempty⟩ := tenants_undisturbed visits
  have hvars : ∀ k, k ≤ visits.length → ∀ i,
      (((together (visits.take k)).object i).tenant.varCount : Int)
        ≤ Word.literalMax := by decide +kernel
  have hgone : ∀ i, ((together visits).object i).tenant.gone = true := by
    decide +kernel
  refine ⟨by decide +kernel, hheard, hempty (fun early hle i => ?_) hgone⟩
  rw [List.prefix_iff_eq_take.mp hle]
  exact hvars _ hle.length_le i

end SatSession
