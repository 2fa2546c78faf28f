/-
The books of a memory are right, whatever it is asked.

The bytes in use are those of all blocks that were ever handed out, the
peak is the highest that this count has been, and the live blocks are as
many as were handed out less as many as were given back. A freed block
keeps its number and can be given back again or be given bytes anew, so
the live blocks are the ones not yet given back only where nobody does
that (`Tidy`).

Each entry of the books follows from what a single dealing does to it; the
laws for that stand first, one for each entry. `Booked` carries them
through a run, and `books_kept` is read off at its end. Every moment of a
run is the end of one, so this is what holds after each call.
-/
import Mathlib.Algebra.BigOperators.Group.Finset.Basic
import Mathlib.Algebra.Order.BigOperators.Group.Finset
import Mathlib.Data.Finset.Card
import Mathlib.Data.List.Nodup
import Mathlib.Tactic.Ring
import SatSession.Proofs.Memory.Dealings

namespace SatSession.Heap

open Finset

-- ============================================================= the books

/-- The bytes of all blocks that were ever handed out. -/
def bytes (h : Heap) : Int := ∑ b ∈ range h.blocks.size, (h.size b : Int)

namespace Dealing

/-- The block that was handed out. -/
def handedOut? (d : Dealing) : Option BlockId :=
  match d.reply with
  | .ok (.block b) => some b
  | _ => none

/-- The block that was given back. -/
def givenBack? (d : Dealing) : Option BlockId :=
  match d.reply, d.request with
  | .ok _, .free b _ => some b
  | _, _ => none

/-- The block that was given another size. -/
def resized? (d : Dealing) : Option BlockId :=
  match d.reply, d.request with
  | .ok .resized, .realloc b _ _ => some b
  | _, _ => none

end Dealing

/-- Blocks in the order in which they were handed out. -/
def handedOut (run : List Dealing) : List BlockId :=
  run.filterMap Dealing.handedOut?

/-- Blocks in the order in which they were given back. -/
def givenBack (run : List Dealing) : List BlockId :=
  run.filterMap Dealing.givenBack?

/-- The blocks that were handed out and never given back. -/
def outstanding (run : List Dealing) (h : Heap) : Finset BlockId :=
  {b ∈ range h.blocks.size | b ∉ givenBack run}

/-- No block is given back twice, or given another size after that. -/
def Tidy (run : List Dealing) : Prop :=
  run.Pairwise fun d later =>
    ∀ b ∈ d.givenBack?, b ∉ later.givenBack? ∧ b ∉ later.resized?

instance (run : List Dealing) : Decidable (Tidy run) :=
  inferInstanceAs (Decidable (run.Pairwise _))

/-- The counters show what the run has done. -/
structure Balanced (run : List Dealing) (h : Heap) : Prop where
  inUse : h.inUse = h.bytes
  peak : h.peak = (run.map fun d => d.after.inUse).foldl max 0
  live : h.live = (handedOut run).length - (givenBack run).length

-- ============================================== what one dealing books

variable {h h' : Heap} {request : Request} {reply : Except Fault Reply}
  {b : BlockId}

/-- Where one block changes its size, the sum of all changes by as much. -/
theorem bytes_of_others (hhanded : h'.blocks.size = h.blocks.size)
    (hb : b < h.blocks.size) (hothers : ∀ c, c ≠ b → h'.size c = h.size c) :
    h'.bytes = h.bytes + (h'.size b - h.size b) := by
  have hsplit : ∀ f : BlockId → Int, ∑ c ∈ range h.blocks.size, f c
      = f b + ∑ c ∈ (range h.blocks.size).erase b, f c :=
    fun f => (add_sum_erase _ f (mem_range.mpr hb)).symm
  have hrest : ∑ c ∈ (range h.blocks.size).erase b, (h'.size c : Int)
      = ∑ c ∈ (range h.blocks.size).erase b, (h.size c : Int) :=
    sum_congr rfl fun c hc => by rw [hothers c (ne_of_mem_erase hc)]
  unfold bytes
  rw [hhanded, hsplit, hsplit, hrest]
  ring

/-- A new block adds its bytes. -/
theorem bytes_granted (n : Nat) : (h.granted n).bytes = h.bytes + n := by
  unfold bytes
  rw [handed_granted, sum_range_succ, size_granted, if_pos rfl]
  congr 1
  refine sum_congr rfl fun c hc => ?_
  rw [size_granted, if_neg (Nat.ne_of_lt (mem_range.mp hc))]

/-- A new size adds the difference. -/
theorem bytes_resized (hb : b < h.blocks.size) (n : Nat) :
    (h.resized b n).bytes = h.bytes + (n - h.size b) := by
  have hothers : ∀ c, c ≠ b → (h.resized b n).size c = h.size c :=
    fun c hc => by rw [size_resized, if_neg fun hcb => hc hcb.1]
  rw [bytes_of_others (handed_resized h b n) hb hothers, size_resized,
    if_pos ⟨rfl, hb⟩]

/-- A release takes the bytes of the block away. -/
theorem bytes_released (hb : b < h.blocks.size) :
    (h.released b).bytes = h.bytes - h.size b := by
  have hothers : ∀ c, c ≠ b → (h.released b).size c = h.size c :=
    fun c hc => by rw [size_released, if_neg hc]
  rw [bytes_of_others (handed_released h b) hb hothers, size_released,
    if_pos rfl]
  omega

/-- A byte that is written adds none. -/
theorem bytes_poked (i : Nat) (byte : UInt8) :
    (h.poked b i byte).bytes = h.bytes := by
  unfold bytes
  rw [handed_poked]
  exact sum_congr rfl fun c _ => by rw [size_poked]

/-- The bytes in use change with the bytes of the blocks. -/
theorem Dealt.inUse (hd : Dealt h request reply h') :
    h'.inUse - h'.bytes = h.inUse - h.bytes := by
  cases hd with
  | granted _ _ =>
      have hcount : ∀ n, (h.granted n).inUse = h.inUse + n := fun _ => rfl
      rw [hcount, bytes_granted]
      omega
  | @resized b n hb _ _ =>
      have hcount : (h.resized b n).inUse = h.inUse + (n - h.size b) := rfl
      rw [hcount, bytes_resized hb]
      omega
  | @released b hb =>
      have hcount : (h.released b).inUse = h.inUse - h.size b := rfl
      rw [hcount, bytes_released hb]
      omega
  | @written b i byte _ =>
      rw [bytes_poked]
      rfl
  | _ => rfl

/-- The peak goes along with the bytes in use. -/
theorem Dealt.peak (hd : Dealt h request reply h')
    (hpeak : h.inUse ≤ h.peak) : h'.peak = max h.peak h'.inUse := by
  cases hd with
  | granted _ _ => rfl
  | resized _ _ _ => rfl
  | @released b _ =>
      have hdown : h.inUse - h.size b ≤ h.peak := by omega
      exact (Int.max_eq_left hdown).symm
  | _ => exact (Int.max_eq_left hpeak).symm

/-- What one dealing hands out and takes back, it counts. -/
theorem Dealt.live (hd : Dealt h request reply h') :
    h'.live = h.live
      + (handedOut [⟨request, h, reply, h'⟩]).length
      - (givenBack [⟨request, h, reply, h'⟩]).length := by
  cases hd with
  | released _ =>
      show h.live - 1 = h.live + 0 - 1
      rw [Int.add_zero]
  | granted _ _ =>
      show h.live + 1 = h.live + 1 - 0
      rw [Int.sub_zero]
  | _ =>
      show h.live = h.live + 0 - 0
      rw [Int.add_zero, Int.sub_zero]

/-- A block that is handed out is one more. -/
theorem Dealt.handed (hd : Dealt h request reply h') :
    h'.blocks.size
      = h.blocks.size + (handedOut [⟨request, h, reply, h'⟩]).length := by
  cases hd with
  | granted _ _ => exact handed_granted h _
  | resized _ _ _ => exact handed_resized h _ _
  | released _ => exact handed_released h _
  | written _ => exact handed_poked h _ _ _
  | _ => rfl

/-- Only what was handed out is given back, and it is empty then. -/
theorem Dealt.back (hd : Dealt h request reply h')
    (hback : (⟨request, h, reply, h'⟩ : Dealing).givenBack? = some b) :
    b < h.blocks.size ∧ h'.size b = 0 := by
  cases hd with
  | released hb =>
      cases hback
      exact ⟨hb, by rw [size_released, if_pos rfl]⟩
  | _ => cases hback

/-- A block keeps its size unless that is changed or it is given back. -/
theorem Dealt.size_eq (hd : Dealt h request reply h')
    (hb : b < h.blocks.size)
    (hback : (⟨request, h, reply, h'⟩ : Dealing).givenBack? ≠ some b)
    (hsize : (⟨request, h, reply, h'⟩ : Dealing).resized? ≠ some b) :
    h'.size b = h.size b := by
  cases hd with
  | granted _ _ => rw [size_granted, if_neg (Nat.ne_of_lt hb)]
  | @resized c _ _ _ _ =>
      have hne : b ≠ c := fun hbc => hsize (congrArg some hbc.symm)
      rw [size_resized, if_neg fun hbc => hne hbc.1]
  | @released c _ =>
      have hne : b ≠ c := fun hbc => hback (congrArg some hbc.symm)
      rw [size_released, if_neg hne]
  | written _ => exact size_poked h ..
  | _ => rfl

-- ============================================================== the run

/-- What a run keeps of the books. -/
structure Booked (run : List Dealing) (h : Heap) : Prop where
  whole : h.Whole
  balanced : Balanced run h
  inUse_le : h.inUse ≤ h.peak
  handed : (handedOut run).length = h.blocks.size
  back : ∀ b ∈ givenBack run, b < h.blocks.size
  emptied : Tidy run → ∀ b ∈ givenBack run, h.size b = 0
  idle : ∀ d ∈ run, d.Idle → d.after = d.before

variable {run : List Dealing} {d : Dealing}

theorem handedOut_concat :
    handedOut (run ++ [d]) = handedOut run ++ handedOut [d] :=
  List.filterMap_append

theorem givenBack_concat :
    givenBack (run ++ [d]) = givenBack run ++ givenBack [d] :=
  List.filterMap_append

theorem mem_givenBack_singleton :
    b ∈ givenBack [d] ↔ d.givenBack? = some b := by
  simp [givenBack]

/-- A tidy run and one more dealing. -/
theorem Tidy.of_concat (ht : Tidy (run ++ [d])) :
    Tidy run ∧ ∀ b ∈ givenBack run,
      d.givenBack? ≠ some b ∧ d.resized? ≠ some b := by
  obtain ⟨hrun, -, hlast⟩ := List.pairwise_append.mp ht
  refine ⟨hrun, fun b hb => ?_⟩
  obtain ⟨e, he, hback⟩ := List.mem_filterMap.mp hb
  exact hlast e he d (List.mem_singleton.mpr rfl) b hback

/-- The books after one more dealing. -/
theorem Booked.deal (hk : Booked run h) (request : Request) :
    Booked (run ++ [deal request h]) (deal request h).after := by
  obtain ⟨reply, h', heq, hd⟩ := dealt_deal hk.whole request
  rw [heq]
  show Booked (run ++ [⟨request, h, reply, h'⟩]) h'
  have hbal := hk.balanced
  have hpeak := hd.peak hk.inUse_le
  have hhanded := hd.handed
  refine ⟨hd.whole hk.whole, ⟨?_, ?_, ?_⟩, ?_, ?_, ?_, ?_, ?_⟩
  · have hstep := hd.inUse
    have hrun := hbal.inUse
    omega
  · rw [List.map_append, List.foldl_append, ← hbal.peak]
    exact hpeak
  · have hstep := hd.live
    have hrun := hbal.live
    rw [handedOut_concat, givenBack_concat, List.length_append,
      List.length_append]
    omega
  · rw [hpeak]
    exact Int.le_max_right ..
  · rw [handedOut_concat, List.length_append, hk.handed, hhanded]
  · intro b hb
    rw [hhanded]
    rw [givenBack_concat, List.mem_append] at hb
    rcases hb with hb | hb
    · exact Nat.lt_add_right _ (hk.back b hb)
    · exact Nat.lt_add_right _ (hd.back (mem_givenBack_singleton.mp hb)).1
  · intro ht b hb
    obtain ⟨hrun, hlast⟩ := ht.of_concat
    rw [givenBack_concat, List.mem_append] at hb
    rcases hb with hb | hb
    · obtain ⟨hback, hsize⟩ := hlast b hb
      rw [hd.size_eq (hk.back b hb) hback hsize]
      exact hk.emptied hrun b hb
    · exact (hd.back (mem_givenBack_singleton.mp hb)).2
  · intro e he hidle
    rcases List.mem_append.mp he with he | he
    · exact hk.idle e he hidle
    · obtain rfl := List.mem_singleton.mp he
      exact hd.eq_of_idle hidle

/-- The books of a fresh memory are in order. -/
theorem booked_fresh (limit supply : Option Int) :
    Booked [] (fresh limit supply) where
  whole := whole_fresh limit supply
  balanced := ⟨rfl, rfl, rfl⟩
  inUse_le := Int.le_refl _
  handed := rfl
  back b hb := by simp [givenBack] at hb
  emptied _ b hb := by simp [givenBack] at hb
  idle d hd := by simp at hd

-- ==================================================== the blocks not back

/-- In a tidy run no block is given back twice. -/
theorem Tidy.nodup (ht : Tidy run) : (givenBack run).Nodup := by
  refine List.pairwise_filterMap.mpr (ht.imp fun {d later} hback => ?_)
  intro b hb c hc hbc
  subst hbc
  exact (hback b hb).1 hc

/-- In a tidy run the live blocks are those that are not back. -/
theorem Booked.live_eq (hk : Booked run h) (ht : Tidy run) :
    h.live = (outstanding run h).card := by
  have hsplit : outstanding run h
      = range h.blocks.size \ (givenBack run).toFinset := by
    ext b
    simp [outstanding]
  have hsub : (givenBack run).toFinset ⊆ range h.blocks.size := by
    intro b hb
    exact mem_range.mpr (hk.back b (List.mem_toFinset.mp hb))
  have hcard := List.toFinset_card_of_nodup ht.nodup
  have hle := card_le_card hsub
  have hlive := hk.balanced.live
  rw [hsplit, card_sdiff_of_subset hsub, hcard, card_range]
  rw [hcard, card_range] at hle
  rw [hk.handed] at hlive
  omega

/-- Where no block is out, no byte is in use. -/
theorem Booked.inUse_eq_zero (hk : Booked run h) (ht : Tidy run)
    (hnone : h.live = 0) : h.inUse = 0 := by
  have hempty : outstanding run h = ∅ := by
    rw [hk.live_eq ht] at hnone
    exact card_eq_zero.mp (by omega)
  rw [hk.balanced.inUse]
  refine sum_eq_zero fun b hb => ?_
  have hback : b ∈ givenBack run := by
    by_contra hout
    have hmem : b ∈ outstanding run h := mem_filter.mpr ⟨hb, hout⟩
    simp [hempty] at hmem
  rw [hk.emptied ht b hback]
  rfl

/-- No memory has fewer than no bytes in use. -/
theorem bytes_nonneg (h : Heap) : 0 ≤ h.bytes :=
  sum_nonneg fun b _ => Int.natCast_nonneg (h.size b)

/-- Whatever a memory is asked, its counters show the bytes of all blocks,
the most there have been, and the blocks handed out less those given back;
and what it refuses, or fails to do, it does not do in part. If moreover
nobody goes on with a block after giving it back, the live blocks are those
that are not back, and without them no byte is in use. -/
theorem books_kept (limit supply : Option Int) (requests : List Request) :
    let run := dealings requests (fresh limit supply)
    let h := afterDealings requests (fresh limit supply)
    Balanced run h ∧ 0 ≤ h.inUse
      ∧ (∀ d ∈ run, d.Idle → d.after = d.before)
      ∧ (Tidy run → h.live = (outstanding run h).card
          ∧ (h.live = 0 → h.inUse = 0)) := by
  have hkept := dealings_keep Booked requests
    (fun done h request _ hk => hk.deal request) [] _
    (booked_fresh limit supply)
  rw [List.nil_append] at hkept
  refine ⟨hkept.balanced, ?_, hkept.idle, fun ht => ?_⟩
  · rw [hkept.balanced.inUse]
    exact bytes_nonneg _
  · exact ⟨hkept.live_eq ht, hkept.inUse_eq_zero ht⟩

/-- Two blocks that come and go, with a refusal and a false statement in
between. -/
theorem books_kept_two_blocks :
    let requests := [.alloc 3, .alloc 9, .realloc 0 3 5, .alloc 2,
      .free 0 3, .free 0 5, .realloc 1 2 1, .free 1 1]
    let run := dealings requests (fresh (some 8) none)
    let h := afterDealings requests (fresh (some 8) none)
    Tidy run ∧ h.live = 0 ∧ h.inUse = 0 ∧ h.peak = 7 := by
  intro requests run h
  have ht : Tidy run := by decide +kernel
  have hnone : h.live = 0 := by decide +kernel
  obtain ⟨hbal, -, -, htidy⟩ := books_kept (some 8) none requests
  have hpeak : h.peak = 7 := hbal.peak.trans (by decide +kernel)
  exact ⟨ht, hnone, (htidy ht).2 hnone, hpeak⟩

end SatSession.Heap
