/-
What the bytes of a memory tell of the past.

A position of a block comes into being when the block is handed out or
grows past it, and ends when the block is cut off before it or given back.
As long as it lasts it holds the byte that was last written there, or zero
if none was; before and after there is nothing to read. So a byte can be
told from the run alone (`Tells`), whatever else the run did to this block
or to others, and nothing that was cut off ever shows again.

`byte_told` says of one dealing what becomes of one byte; `tells_concat`
says the same of the history, and the two agree.
-/
import SatSession.Proofs.Memory.Dealings

namespace SatSession.Heap

namespace Dealing

/-- The position came into being: the block was handed out, or it grew
past it. -/
def Makes (d : Dealing) (b : BlockId) (i : Nat) : Prop :=
  match d.reply, d.request with
  | .ok (.block c), .alloc size => c = b ∧ (i : Int) < size
  | .ok .resized, .realloc c old new => c = b ∧ old ≤ i ∧ (i : Int) < new
  | _, _ => False

/-- The position is no more: the block was cut off before it, or given
back. -/
def CutsOff (d : Dealing) (b : BlockId) (i : Nat) : Prop :=
  match d.reply, d.request with
  | .ok .resized, .realloc c _ new => c = b ∧ new ≤ i
  | .ok .done, .free c _ => c = b
  | _, _ => False

/-- The byte that was written to the position. -/
def written? (d : Dealing) (b : BlockId) (i : Nat) : Option UInt8 :=
  match d.reply, d.request with
  | .ok .done, .write c j byte => if c = b ∧ j = i then some byte else none
  | _, _ => none

/-- The block was named by the request or handed out for it. -/
def Concerns (d : Dealing) (b : BlockId) : Prop :=
  d.request.block? = some b ∨ d.reply = .ok (.block b)

end Dealing

/-- The byte that was last written to a position, zero if none was. -/
def lastWritten (run : List Dealing) (b : BlockId) (i : Nat) : UInt8 :=
  (run.filterMap fun d => d.written? b i).getLast?.getD 0

/-- The position came into being, lasts since then, and `v` is what was
last written there. -/
def Tells (run : List Dealing) (b : BlockId) (i : Nat) (v : UInt8) : Prop :=
  ∃ past birth since, run = past ++ birth :: since ∧ birth.Makes b i
    ∧ (∀ d ∈ since, ¬ d.Makes b i ∧ ¬ d.CutsOff b i)
    ∧ v = lastWritten since b i

-- ============================================================ the history

variable {run : List Dealing} {d : Dealing} {b c : BlockId} {i : Nat}
  {v : UInt8}

theorem not_tells_nil : ¬ Tells [] b i v := by
  intro hex
  obtain ⟨past, birth, since, hnil, -⟩ := hex
  simp at hnil

theorem lastWritten_concat :
    lastWritten (run ++ [d]) b i
      = (d.written? b i).getD (lastWritten run b i) := by
  unfold lastWritten
  rw [List.filterMap_append]
  cases hd : d.written? b i with
  | none => simp [hd]
  | some byte => simp [hd]

/-- One dealing more makes the position anew, or lets it last. -/
theorem tells_concat :
    Tells (run ++ [d]) b i v
      ↔ d.Makes b i ∧ v = 0
        ∨ ¬ d.Makes b i ∧ ¬ d.CutsOff b i
          ∧ ∃ w, Tells run b i w ∧ v = (d.written? b i).getD w := by
  constructor
  · intro hex
    obtain ⟨past, birth, since, hrun, hbirth, hsince, rfl⟩ := hex
    rcases List.eq_nil_or_concat since with rfl | ⟨since', e, rfl⟩
    · obtain ⟨-, hd⟩ := List.append_inj' hrun rfl
      obtain rfl := List.singleton_inj.mp hd
      exact Or.inl ⟨hbirth, rfl⟩
    · rw [List.concat_eq_append, ← List.cons_append, ← List.append_assoc]
        at hrun
      obtain ⟨rfl, he⟩ := List.append_inj' hrun rfl
      obtain rfl := List.singleton_inj.mp he
      rw [List.concat_eq_append] at hsince ⊢
      obtain ⟨hmake, hcut⟩ := hsince d (by simp)
      refine Or.inr ⟨hmake, hcut, lastWritten since' b i, ?_,
        lastWritten_concat⟩
      exact ⟨past, birth, since', rfl, hbirth,
        fun e he => hsince e (List.mem_append_left _ he), rfl⟩
  · intro hcase
    rcases hcase with ⟨hmake, rfl⟩ | ⟨hmake, hcut, w, hex, rfl⟩
    · exact ⟨run, d, [], rfl, hmake, by simp, rfl⟩
    · obtain ⟨past, birth, since, rfl, hbirth, hsince, rfl⟩ := hex
      refine ⟨past, birth, since ++ [d], by simp, hbirth, ?_,
        lastWritten_concat.symm⟩
      intro e he
      rcases List.mem_append.mp he with he | he
      · exact hsince e he
      · rw [List.mem_singleton.mp he]
        exact ⟨hmake, hcut⟩

-- ======================================================== one byte at once

variable {h h' : Heap} {request : Request} {reply : Except Fault Reply}

/-- A dealing leaves all blocks alone that it does not concern. -/
theorem Dealt.contents_eq (hd : Dealt h request reply h')
    (hother : ¬ (⟨request, h, reply, h'⟩ : Dealing).Concerns c) :
    h'.contents c = h.contents c := by
  obtain ⟨hnamed, hnew⟩ := not_or.mp hother
  have hne : ∀ b, request.block? = some b → c ≠ b := fun b hb hcb =>
    hnamed (hcb ▸ hb)
  cases hd with
  | granted _ _ =>
      have hne : c ≠ h.blocks.size := fun hcb => hnew (hcb ▸ rfl)
      rw [contents_granted, if_neg hne]
  | resized _ _ _ =>
      rw [contents_resized, if_neg fun hcb => hne _ rfl hcb.1]
  | released _ =>
      rw [contents_released, if_neg fun hcb => hne _ rfl hcb.1]
  | written _ =>
      rw [contents_poked, if_neg fun hcb => hne _ rfl hcb.1]
  | _ => rfl

/-- A block of another size keeps the bytes below both sizes, and what is
new is zero. -/
theorem byte_resized (hb : b < h.blocks.size) (n i : Nat) :
    (h.resized b n).byte? b i
      = if i < min (h.size b) n then h.byte? b i
        else if i < n then some 0 else none := by
  have hsize : (h.contents b).size = h.size b := rfl
  unfold byte?
  rw [contents_resized, if_pos ⟨rfl, hb⟩]
  by_cases hnew : i < n
  · by_cases hold : i < h.size b
    · rw [if_pos (by omega), getElem?_resize n _ (by omega) hnew]
    · rw [if_neg (by omega), if_pos hnew,
        getElem?_resize_new n _ (by omega) hnew]
  · rw [if_neg (by omega), if_neg hnew]
    exact Array.getElem?_eq_none (by rw [size_resize]; omega)

/-- What a dealing makes of one byte: a zero where it makes the position,
nothing where it ends it, and elsewhere what it writes or what there was. -/
structure Told (d : Dealing) (b : BlockId) (i : Nat) : Prop where
  made : d.Makes b i → d.after.byte? b i = some 0
  cut : d.CutsOff b i → d.after.byte? b i = none
  kept : ¬ d.Makes b i → ¬ d.CutsOff b i →
    d.after.byte? b i
      = (d.before.byte? b i).map fun w => (d.written? b i).getD w

/-- A byte that is neither made nor cut off nor written stays. -/
theorem told_of_eq (hmake : ¬ d.Makes b i) (hcut : ¬ d.CutsOff b i)
    (hwrite : d.written? b i = none)
    (heq : d.after.byte? b i = d.before.byte? b i) : Told d b i := by
  refine ⟨fun h => absurd h hmake, fun h => absurd h hcut, fun _ _ => ?_⟩
  rw [heq, hwrite]
  exact Option.map_id'.symm

/-- A new block is told to be zero. -/
theorem told_granted {n : Nat} :
    Told ⟨.alloc n, h, .ok (.block h.blocks.size), h.granted n⟩ b i := by
  have hcontents : (h.granted n).contents b
      = if b = h.blocks.size then Array.replicate n 0 else h.contents b :=
    contents_granted h b n
  have hmakes : Dealing.Makes
      ⟨.alloc n, h, .ok (.block h.blocks.size), h.granted n⟩ b i
      ↔ h.blocks.size = b ∧ (i : Int) < n := Iff.rfl
  refine ⟨fun hmake => ?_, fun hcut => hcut.elim, fun hmake _ => ?_⟩
  · obtain ⟨rfl, hi⟩ := hmakes.mp hmake
    show ((h.granted n).contents h.blocks.size)[i]? = some 0
    rw [hcontents, if_pos rfl, Array.getElem?_replicate, if_pos (by omega)]
  · rw [hmakes] at hmake
    show ((h.granted n).contents b)[i]?
      = ((h.contents b)[i]?).map fun w => w
    rw [hcontents, Option.map_id']
    by_cases hb : b = h.blocks.size
    · have hi : ¬ i < n := fun hi => hmake ⟨hb.symm, by omega⟩
      rw [if_pos hb, Array.getElem?_replicate, if_neg hi, hb]
      simp [contents]
    · rw [if_neg hb]

/-- A new size keeps the bytes that are left, and new ones are zero. -/
theorem told_resized {c : BlockId} {n : Nat} (hc : c < h.blocks.size) :
    Told ⟨.realloc c (h.size c) n, h, .ok .resized, h.resized c n⟩ b i := by
  by_cases hbc : c = b
  · subst hbc
    have hbyte := byte_resized hc n i
    have hmakes : Dealing.Makes
        ⟨.realloc c (h.size c) n, h, .ok .resized, h.resized c n⟩ c i
        ↔ (h.size c : Int) ≤ i ∧ (i : Int) < n := ⟨And.right, .intro rfl⟩
    have hcuts : Dealing.CutsOff
        ⟨.realloc c (h.size c) n, h, .ok .resized, h.resized c n⟩ c i
        ↔ (n : Int) ≤ i := ⟨And.right, .intro rfl⟩
    refine ⟨fun hmake => ?_, fun hcut => ?_, fun hmake hcut => ?_⟩
    · obtain ⟨hold, hnew⟩ := hmakes.mp hmake
      rw [hbyte, if_neg (by omega), if_pos (by omega)]
    · have hnew := hcuts.mp hcut
      rw [hbyte, if_neg (by omega), if_neg (by omega)]
    · have hold : i < min (h.size c) n := by
        rw [hmakes] at hmake
        rw [hcuts] at hcut
        omega
      rw [hbyte, if_pos hold]
      exact Option.map_id'.symm
  · refine told_of_eq (fun hmake => hbc hmake.1) (fun hcut => hbc hcut.1)
      rfl ?_
    unfold byte?
    rw [contents_resized, if_neg fun h => hbc h.1.symm]

/-- A block that is given back tells of no byte any more. -/
theorem told_released {c : BlockId} (hc : c < h.blocks.size) :
    Told ⟨.free c (h.size c), h, .ok .done, h.released c⟩ b i := by
  by_cases hbc : c = b
  · subst hbc
    refine ⟨fun hmake => hmake.elim, fun _ => ?_,
      fun _ hcut => absurd rfl hcut⟩
    unfold byte?
    rw [contents_released, if_pos ⟨rfl, hc⟩]
    rfl
  · refine told_of_eq id hbc rfl ?_
    unfold byte?
    rw [contents_released, if_neg fun h => hbc h.1.symm]

/-- A byte that is written is told from then on. -/
theorem told_written {c : BlockId} {j : Nat} {byte : UInt8}
    (hj : j < h.size c) :
    Told ⟨.write c j byte, h, .ok .done, h.poked c j byte⟩ b i := by
  refine ⟨fun hmake => hmake.elim, fun hcut => hcut.elim, fun _ _ => ?_⟩
  show (h.poked c j byte).byte? b i = (h.byte? b i).map fun w =>
    (if c = b ∧ j = i then some byte else none).getD w
  by_cases hbc : c = b
  · subst hbc
    rw [byte?_poked hj]
    by_cases hji : j = i
    · subst hji
      have hsome : h.byte? c j = some (h.contents c)[j] :=
        Array.getElem?_eq_getElem hj
      simp [hsome]
    · simp [hji, Ne.symm hji]
  · have hother : (h.poked c j byte).byte? b i = h.byte? b i := by
      unfold byte?
      rw [contents_poked, if_neg fun h => hbc h.1.symm]
    simp [hother, hbc]

/-- Whatever a request comes to, bytes are what they were told to be. -/
theorem Dealt.told (hd : Dealt h request reply h') (b : BlockId)
    (i : Nat) : Told ⟨request, h, reply, h'⟩ b i := by
  cases hd with
  | granted _ _ => exact told_granted
  | resized hb _ _ => exact told_resized hb
  | released hb => exact told_released hb
  | written hi => exact told_written hi
  | _ => exact told_of_eq id id rfl rfl

-- ================================================================ the run

/-- What a single dealing does to blocks: nothing if it was refused or
failed, nothing to those that it does not concern, and a block of another
size begins as it was. -/
structure Framed (d : Dealing) : Prop where
  idle : d.Idle → d.after = d.before
  others : ∀ c, ¬ d.Concerns c → d.after.contents c = d.before.contents c
  resized : ∀ b old new, d.request = .realloc b old new →
    d.reply = .ok .resized → ∀ i : Nat,
      d.after.byte? b i
        = if (i : Int) < min old new then d.before.byte? b i
          else if (i : Int) < new then some 0 else none

/-- Whatever a request comes to, blocks that it does not name are left. -/
theorem Dealt.framed (hd : Dealt h request reply h') :
    Framed ⟨request, h, reply, h'⟩ := by
  refine ⟨hd.eq_of_idle, fun c hother => hd.contents_eq hother, ?_⟩
  intro b old new hrequest hreply i
  cases hd with
  | @resized b n hb _ _ =>
      cases hrequest
      refine (byte_resized hb n i).trans ?_
      by_cases hlow : i < min (h.size b) n
      · rw [if_pos hlow, if_pos (by omega)]
      · rw [if_neg hlow, if_neg (show ¬ (i : Int) < min _ _ by omega)]
        by_cases hnew : i < n
        · rw [if_pos hnew, if_pos (by omega)]
        · rw [if_neg hnew, if_neg (by omega)]
  | _ => cases hreply

/-- A memory whose bytes are those that the run tells of. -/
structure Recalls (run : List Dealing) (h : Heap) : Prop where
  whole : h.Whole
  bytes : ∀ b i v, h.byte? b i = some v ↔ Tells run b i v
  framed : ∀ d ∈ run, Framed d

/-- The memory recalls one request more. -/
theorem Recalls.deal (hr : Recalls run h) (request : Request) :
    Recalls (run ++ [deal request h]) (deal request h).after := by
  obtain ⟨reply, h', heq, hd⟩ := dealt_deal hr.whole request
  rw [heq]
  refine ⟨hd.whole hr.whole, fun b i v => ?_, fun d hmem => ?_⟩
  · have ht := hd.told b i
    rw [tells_concat]
    by_cases hmake : Dealing.Makes ⟨request, h, reply, h'⟩ b i
    · simp [ht.made hmake, hmake, eq_comm]
    · by_cases hcut : Dealing.CutsOff ⟨request, h, reply, h'⟩ b i
      · simp [ht.cut hcut, hmake, hcut]
      · rw [ht.kept hmake hcut, Option.map_eq_some_iff]
        simp only [hmake, hcut, hr.bytes, false_and, false_or,
          not_false_eq_true, true_and, eq_comm]
  · rcases List.mem_append.mp hmem with hmem | hmem
    · exact hr.framed d hmem
    · rw [List.mem_singleton.mp hmem]
      exact hd.framed

/-- A fresh memory has nothing to recall. -/
theorem recalls_fresh (limit supply : Option Int) :
    Recalls [] (fresh limit supply) where
  whole := whole_fresh limit supply
  bytes b i v := by
    refine iff_of_false ?_ not_tells_nil
    simp [byte?, contents, fresh]
  framed d hd := by simp at hd

/-- Whatever a memory is asked, each byte of a block is the one last
written there since its position came into being, or zero; and no dealing
touches a block that it does not concern, or any at all where it is refused
or fails. -/
theorem contents_told (limit supply : Option Int)
    (requests : List Request) :
    let run := dealings requests (fresh limit supply)
    let h := afterDealings requests (fresh limit supply)
    (∀ b i v, h.byte? b i = some v ↔ Tells run b i v)
      ∧ ∀ d ∈ run, Framed d := by
  have hkept := dealings_keep Recalls requests
    (fun done h request _ hr => hr.deal request) [] _
    (recalls_fresh limit supply)
  rw [List.nil_append] at hkept
  exact ⟨hkept.bytes, hkept.framed⟩

/-- A byte that was cut off does not come back when the block grows. -/
example :
    (afterDealings [.alloc 2, .write 0 1 7, .realloc 0 2 1, .realloc 0 1 2]
      (fresh none none)).byte? 0 1 = some 0 := by
  decide +kernel

end SatSession.Heap
