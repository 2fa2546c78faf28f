/-
The limit of a memory is a true bound, and what it lets through is given.

Whether a request is refused can be told from the state alone: it asks for
a negative size, or there is a limit and the bytes in use would pass it. A
limit that holds from the start therefore bounds the bytes in use and the
peak all the way (`Capped`), and refuses nothing that stays within it. A
block that is made smaller always stays within it, and takes nothing from
the host, which may have less to give by then.
-/
import SatSession.Proofs.Memory.Accounting

namespace SatSession.Heap

variable {h h' : Heap} {request : Request} {reply : Except Fault Reply}
  {b : BlockId} {L : Int}

-- ======================================================= refusals by state

/-- There is a limit, and the bytes in use would pass it. -/
def Exceeds (h : Heap) (delta : Int) : Prop :=
  ∃ L, h.limit = some L ∧ L < h.inUse + delta

/-- What does not fit exceeds the limit. -/
theorem fits_eq_false_iff (delta : Int) :
    h.fits delta = false ↔ h.Exceeds delta := by
  unfold fits Exceeds
  cases h.limit with
  | none => simp
  | some limit => simp

/-- What fits stays within it. -/
theorem fits_iff (hlimit : h.limit = some L) (delta : Int) :
    h.fits delta = true ↔ h.inUse + delta ≤ L := by
  simp [fits, hlimit]

/-- A block that does not grow takes nothing from the host. -/
theorem affords_of_nonpos {delta : Int} (hle : delta ≤ 0) (size : Int) :
    h.affords delta size = true := by
  simp [affords, hle]

/-- A block is refused just if its size is negative or exceeds the
limit. -/
theorem alloc_refused_iff (hw : h.Whole) {size : Int}
    (haffords : h.affords size size = true) :
    (deal (.alloc size) h).reply = .ok .refused
      ↔ size < 0 ∨ h.Exceeds size := by
  obtain ⟨reply, h', heq, hd⟩ := dealt_deal hw (.alloc size)
  rw [heq, ← fits_eq_false_iff]
  cases hd with
  | unknown hb _ => cases hb
  | notGranted hwhy =>
      simp only [haffords, Bool.true_eq_false, or_false] at hwhy
      exact iff_of_true rfl hwhy
  | @granted n hfits _ =>
      refine iff_of_false (fun hrefused => by cases hrefused) ?_
      simp [hfits]

/-- A new size is refused just if it is negative or the growth exceeds the
limit. -/
theorem realloc_refused_iff (hw : h.Whole) (hb : b < h.blocks.size)
    {new : Int} (haffords : h.affords (new - h.size b) new = true) :
    (deal (.realloc b (h.size b) new) h).reply = .ok .refused
      ↔ new < 0 ∨ h.Exceeds (new - h.size b) := by
  obtain ⟨reply, h', heq, hd⟩ := dealt_deal hw (.realloc b (h.size b) new)
  rw [heq, ← fits_eq_false_iff]
  generalize hold : (h.size b : Int) = old at hd
  cases hd with
  | unknown hnamed hout =>
      cases hnamed
      exact absurd hb (Nat.not_lt_of_le hout)
  | notResized hwhy =>
      refine iff_of_true rfl ?_
      rw [hold] at hwhy haffords
      simpa [haffords] using hwhy
  | misstated hne => exact absurd hold hne
  | resized _ hfits _ =>
      refine iff_of_false (fun hrefused => by cases hrefused) ?_
      simp [hfits]

-- ======================================================== what is granted

/-- A block that fits is granted. -/
theorem alloc_granted (hw : h.Whole) {size : Int} (hsign : 0 ≤ size)
    (hfits : h.fits size = true)
    (haffords : h.affords size size = true) :
    (deal (.alloc size) h).reply = .ok (.block h.blocks.size) := by
  obtain ⟨reply, h', heq, hd⟩ := dealt_deal hw (.alloc size)
  rw [heq]
  cases hd with
  | unknown hb _ => cases hb
  | notGranted hwhy =>
      simp only [hfits, haffords, Bool.true_eq_false, or_false] at hwhy
      omega
  | granted _ _ => rfl

/-- A size that fits is granted. -/
theorem realloc_granted (hw : h.Whole) (hb : b < h.blocks.size)
    {new : Int} (hsign : 0 ≤ new)
    (hfits : h.fits (new - h.size b) = true)
    (haffords : h.affords (new - h.size b) new = true) :
    (deal (.realloc b (h.size b) new) h).reply = .ok .resized := by
  obtain ⟨reply, h', heq, hd⟩ := dealt_deal hw (.realloc b (h.size b) new)
  rw [heq]
  generalize hold : (h.size b : Int) = old at hd
  cases hd with
  | unknown hnamed hout =>
      cases hnamed
      exact absurd hb (Nat.not_lt_of_le hout)
  | notResized hwhy =>
      simp only [hfits, haffords, Bool.true_eq_false, or_false, and_false]
        at hwhy
      omega
  | misstated hne => exact absurd hold hne
  | resized _ _ _ => rfl

-- ========================================================= under one limit

/-- What a limit that stays keeps of a memory. -/
structure Capped (L : Int) (run : List Dealing) (h : Heap) : Prop where
  whole : h.Whole
  limit : h.limit = some L
  inUse : h.inUse ≤ L
  peak : h.inUse ≤ h.peak ∧ h.peak ≤ L
  passed : ∀ d ∈ run, d.after.inUse ≤ L ∧ d.after.peak ≤ L

/-- The bytes in use stay below the limit in every dealing. -/
theorem Dealt.inUse_le (hd : Dealt h request reply h')
    (hlimit : h.limit = some L) (hle : h.inUse ≤ L) : h'.inUse ≤ L := by
  cases hd with
  | granted hfits _ => exact (fits_iff hlimit _).mp hfits
  | resized _ hfits _ => exact (fits_iff hlimit _).mp hfits
  | @released b _ =>
      show h.inUse - h.size b ≤ L
      omega
  | _ => exact hle

/-- The limit stays unless another one is assigned. -/
theorem Dealt.limit_eq (hd : Dealt h request reply h')
    (hlimit : h.limit = some L)
    (hsame : ∀ limit, request = .setLimit limit → limit = some L) :
    h'.limit = some L := by
  cases hd with
  | limited limit => exact hsame limit rfl
  | _ => exact hlimit

/-- A request keeps a memory within its limit, as long as the limit
stays. -/
theorem Capped.deal {run : List Dealing} (hc : Capped L run h)
    (request : Request)
    (hsame : ∀ limit, request = .setLimit limit → limit = some L) :
    Capped L (run ++ [deal request h]) (deal request h).after := by
  obtain ⟨reply, h', heq, hd⟩ := dealt_deal hc.whole request
  rw [heq]
  show Capped L (run ++ [⟨request, h, reply, h'⟩]) h'
  have hinUse := hd.inUse_le hc.limit hc.inUse
  have hpeak := hd.peak hc.peak.1
  have hcapped : h'.inUse ≤ h'.peak ∧ h'.peak ≤ L := by
    have hbefore := hc.peak.2
    omega
  refine ⟨hd.whole hc.whole, hd.limit_eq hc.limit hsame, hinUse, hcapped,
    fun d hmem => ?_⟩
  rcases List.mem_append.mp hmem with hmem | hmem
  · exact hc.passed d hmem
  · obtain rfl := List.mem_singleton.mp hmem
    exact ⟨hinUse, hcapped.2⟩

/-- A fresh memory is within any limit that is not negative. -/
theorem capped_fresh (hL : 0 ≤ L) (supply : Option Int) :
    Capped L [] (fresh (some L) supply) where
  whole := whole_fresh _ _
  limit := rfl
  inUse := hL
  peak := ⟨Int.le_refl _, hL⟩
  passed d hd := by simp at hd

-- ============================================================ the promise

/-- Requests that the host can meet are refused for their sign and for the
limit alone. -/
structure RefusesExactly (h : Heap) : Prop where
  alloc : ∀ size, h.affords size size = true →
    ((deal (.alloc size) h).reply = .ok .refused
      ↔ size < 0 ∨ h.Exceeds size)
  realloc : ∀ b new, b < h.blocks.size →
    h.affords (new - h.size b) new = true →
    ((deal (.realloc b (h.size b) new) h).reply = .ok .refused
      ↔ new < 0 ∨ h.Exceeds (new - h.size b))

/-- Whatever stays within the limit is given. -/
structure GivesUpTo (L : Int) (h : Heap) : Prop where
  alloc : ∀ size, 0 ≤ size → h.affords size size = true →
    h.inUse + size ≤ L →
    (deal (.alloc size) h).reply = .ok (.block h.blocks.size)
  realloc : ∀ b new, b < h.blocks.size → 0 ≤ new →
    h.affords (new - h.size b) new = true →
    h.inUse + (new - h.size b) ≤ L →
    (deal (.realloc b (h.size b) new) h).reply = .ok .resized
  shrink : ∀ b (n : Nat), b < h.blocks.size → n ≤ h.size b →
    (deal (.realloc b (h.size b) n) h).reply = .ok .resized

/-- A memory within its limit gives up to it. -/
theorem Capped.gives {run : List Dealing} (hc : Capped L run h) :
    GivesUpTo L h := by
  refine ⟨?_, ?_, ?_⟩
  · intro size hsign haffords hle
    exact alloc_granted hc.whole hsign ((fits_iff hc.limit size).mpr hle)
      haffords
  · intro b new hb hsign haffords hle
    exact realloc_granted hc.whole hb hsign
      ((fits_iff hc.limit _).mpr hle) haffords
  · intro b n hb hle
    have hinUse := hc.inUse
    have hfits : h.fits (n - h.size b) = true :=
      (fits_iff hc.limit _).mpr (by omega)
    exact realloc_granted hc.whole hb (Int.natCast_nonneg n) hfits
      (affords_of_nonpos (by omega) n)

/-- A request is refused exactly for a negative size or for passing the
limit, and a limit that holds from the start is never passed, by the bytes
in use or by the peak, while everything that stays within it is given. -/
theorem limit_exact :
    (∀ h : Heap, h.Whole → h.RefusesExactly)
      ∧ ∀ (L : Int) (supply : Option Int) (requests : List Request),
          0 ≤ L → (∀ limit, .setLimit limit ∈ requests → limit = some L) →
          let run := dealings requests (fresh (some L) supply)
          let h := afterDealings requests (fresh (some L) supply)
          (∀ d ∈ run, d.after.inUse ≤ L ∧ d.after.peak ≤ L)
            ∧ GivesUpTo L h := by
  refine ⟨fun h hw => ⟨fun size => alloc_refused_iff hw,
    fun b new hb => realloc_refused_iff hw hb⟩, ?_⟩
  intro L supply requests hL hsame
  have hkept := dealings_keep (Capped L) requests
    (fun done h request hmem hc => hc.deal request
      fun limit heq => hsame limit (heq ▸ hmem))
    [] _ (capped_fresh hL supply)
  rw [List.nil_append] at hkept
  exact ⟨hkept.passed, hkept.gives⟩

/-- At the limit: three bytes of eight are free after a refusal. The host
then has less to give than the block has bytes, and cuts it all the same. -/
theorem limit_exact_eight_bytes :
    let requests := [.alloc 5, .alloc 4, .setLimit (some 8),
      .setSupply (some 4)]
    let h := afterDealings requests (fresh (some 8) none)
    (∀ d ∈ dealings requests (fresh (some 8) none),
        d.after.inUse ≤ 8 ∧ d.after.peak ≤ 8)
      ∧ (deal (.alloc 3) h).reply = .ok (.block 1)
      ∧ (deal (.realloc 0 5 4) h).reply = .ok .resized
      ∧ (deal (.alloc 4) (fresh (some 3) none)).reply = .ok .refused := by
  intro requests h
  obtain ⟨hstate, hrun⟩ := limit_exact
  have hsame : ∀ limit, .setLimit limit ∈ requests → limit = some 8 := by
    simp [requests]
  obtain ⟨hpassed, hgives⟩ := hrun 8 none requests (by decide) hsame
  have hrefused := (hstate (fresh (some 3) none) ⟨rfl, rfl⟩).alloc 4 rfl
  have hfree : h.inUse + 3 ≤ 8 := by decide +kernel
  have hsize : h.size 0 = 5 := by decide +kernel
  have haffords : h.affords 3 3 = true := by decide +kernel
  refine ⟨hpassed, hgives.alloc 3 (by decide) haffords hfree, ?_, ?_⟩
  · have hshrunk := hgives.shrink 0 4 (by decide +kernel)
      (by rw [hsize]; decide)
    rwa [hsize] at hshrunk
  · exact hrefused.mpr (Or.inr ⟨3, rfl, by decide⟩)

end SatSession.Heap
