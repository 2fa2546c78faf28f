/-
One program in two memories.

A program that shares its memory with others works on blocks with other
numbers than it would have alone, and beside blocks that it knows nothing
of. `Places` says where each block of the memory that the program would
have alone stands in the shared one; block for block the contents are the
same (`Lodged`). `Tuned` then says of two programs, one for either memory,
that from states which differ in no more than that

- they end alike: with related answers, or with the same fault;
- the states behind them differ in no more than that either, where blocks
  that were handed out on the way have got places of their own;
- no block of others is touched, and the books change by the same amounts.

It is meant for one program on both sides. The two sides differ in the
numbers of blocks that the program has read, and relations between answers
tell which number stands for which. Places are only ever added, so what is
known of some holds at all later ones, and `Tuned` asks for all of them:
there is one rule for each way in which programs are put together, and
none needs to be told what has been handed out in between.
-/
import SatSession.Proofs.Refusals.Lockstep

namespace SatSession

-- =============================================================== places

/-- Where the blocks of one memory stand in another: block `i` of the one
is block `places[i]` of the other. -/
abbrev Places := List BlockId

variable {places here : Places}

/-- A block of the shared memory stands for one of the memory alone. -/
def Stands (places : Places) (b own : BlockId) : Prop :=
  places[own]? = some b

/-- A block keeps its place when places are added. -/
theorem Stands.mono {b own : BlockId} (h : Stands places b own)
    (hle : places <+: here) : Stands here b own := by
  obtain ⟨more, rfl⟩ := hle
  have hlt : own < places.length := (List.getElem?_eq_some_iff.mp h).1
  unfold Stands
  rw [List.getElem?_append_left hlt]
  exact h

theorem Stands.mem {b own : BlockId} (h : Stands places b own) :
    b ∈ places :=
  List.mem_of_getElem? h

/-- A block that was added stands at the place that was added. -/
theorem stands_concat (places : Places) (b : BlockId) :
    Stands (places ++ [b]) b places.length := by
  simp [Stands]

namespace Heap

/-- A memory stands in another one, block for block. -/
structure Lodged (places : Places) (shared alone : Heap) : Prop where
  apart : places.Nodup
  exist : ∀ b ∈ places, b < shared.blocks.size
  handed : alone.blocks.size = places.length
  same : ∀ b own, Stands places b own →
    shared.contents b = alone.contents own

variable {shared shared' shared'' alone alone' alone'' : Heap}
  {b own : BlockId} {more : Places}

/-- Blocks that stand for each other are of one size. -/
theorem Lodged.size_eq (h : Lodged places shared alone)
    (hb : Stands places b own) : shared.size b = alone.size own :=
  congrArg Array.size (h.same b own hb)

/-- Bytes read from a block are the same in both memories. -/
theorem Lodged.byte?_eq (h : Lodged places shared alone)
    (hb : Stands places b own) (i : Nat) :
    shared.byte? b i = alone.byte? own i :=
  congrArg (fun block : Block => block[i]?) (h.same b own hb)

/-- A block that stands somewhere was handed out in both memories. -/
theorem Lodged.handed_out (h : Lodged places shared alone)
    (hb : Stands places b own) :
    b < shared.blocks.size ∧ own < alone.blocks.size := by
  refine ⟨h.exist b hb.mem, ?_⟩
  rw [h.handed]
  exact (List.getElem?_eq_some_iff.mp hb).1

/-- No block stands for two. -/
theorem Lodged.unique (h : Lodged places shared alone) {own' : BlockId}
    (hb : Stands places b own) (hb' : Stands places b own') :
    own = own' :=
  (List.getElem?_inj (List.getElem?_eq_some_iff.mp hb).1 h.apart).mp
    (hb.trans hb'.symm)

/-- What happens to a shared memory beside a lodged one: the blocks of
others stay, new places are new blocks, and the books change by as much as
those of the memory alone. -/
structure Beside (places more : Places) (shared shared' alone alone' : Heap) :
    Prop where
  handed : shared.blocks.size ≤ shared'.blocks.size
  new : ∀ b ∈ more, shared.blocks.size ≤ b
  others : ∀ b, b ∉ places → b < shared.blocks.size →
    shared'.contents b = shared.contents b
  inUse : shared'.inUse - shared.inUse = alone'.inUse - alone.inUse
  live : shared'.live - shared.live = alone'.live - alone.live

theorem Beside.refl (places : Places) (shared alone : Heap) :
    Beside places [] shared shared alone alone where
  handed := Nat.le_refl _
  new b hb := by simp at hb
  others _ _ _ := rfl
  inUse := by omega
  live := by omega

/-- What is handed out later is no block of others either, and the amounts
add up. -/
theorem Beside.trans {later : Places}
    (h : Beside places more shared shared' alone alone')
    (h' : Beside (places ++ more) later shared' shared'' alone' alone'') :
    Beside places (more ++ later) shared shared'' alone alone'' where
  handed := Nat.le_trans h.handed h'.handed
  new b hb := by
    rcases List.mem_append.mp hb with hb | hb
    · exact h.new b hb
    · exact Nat.le_trans h.handed (h'.new b hb)
  others b hb hlt := by
    have hout : b ∉ places ++ more := fun hmem => by
      rcases List.mem_append.mp hmem with hmem | hmem
      · exact hb hmem
      · exact Nat.not_le_of_lt hlt (h.new b hmem)
    rw [h'.others b hout (Nat.lt_of_lt_of_le hlt h.handed)]
    exact h.others b hb hlt
  inUse := by
    have hfirst := h.inUse
    have hrest := h'.inUse
    omega
  live := by
    have hfirst := h.live
    have hrest := h'.live
    omega

variable {mine : Places} {owner owner' : Heap}

/-- What is done to a shared memory on behalf of one leaves what stands in
it for another as it is. -/
theorem Lodged.beside (h : Lodged places shared alone)
    (hbeside : Beside mine more shared shared' owner owner')
    (hapart : ∀ b ∈ places, b ∉ mine) : Lodged places shared' alone where
  apart := h.apart
  exist b hb := Nat.lt_of_lt_of_le (h.exist b hb) hbeside.handed
  handed := h.handed
  same b own hb := by
    rw [hbeside.others b (hapart b hb.mem) (h.exist b hb.mem)]
    exact h.same b own hb

/-- New places are not among those of another. -/
theorem Lodged.notMem (h : Lodged places shared alone)
    (hbeside : Beside mine more shared shared' owner owner')
    (hapart : ∀ b ∈ places, b ∉ mine) :
    ∀ b ∈ places, b ∉ mine ++ more := by
  intro b hb hmem
  rcases List.mem_append.mp hmem with hmem | hmem
  · exact hapart b hb hmem
  · exact Nat.not_le_of_lt (h.exist b hb) (hbeside.new b hmem)

-- ========================================================= what is done

/-- A block is handed out in both memories. -/
theorem Lodged.granted (h : Lodged places shared alone) (n : Nat) :
    Lodged (places ++ [shared.blocks.size]) (shared.granted n)
      (alone.granted n) where
  apart := by
    refine List.nodup_append.mpr ⟨h.apart, by simp, fun b hb c hc hbc => ?_⟩
    rw [List.mem_singleton.mp hc] at hbc
    exact Nat.ne_of_lt (h.exist b hb) hbc
  exist b hb := by
    rw [handed_granted]
    rcases List.mem_append.mp hb with hb | hb
    · exact Nat.lt_succ_of_lt (h.exist b hb)
    · rw [List.mem_singleton.mp hb]
      exact Nat.lt_succ_self _
  handed := by
    rw [handed_granted, h.handed, List.length_append,
      List.length_singleton]
  same b own hb := by
    rw [contents_granted, contents_granted, h.handed]
    by_cases hown : own < places.length
    · have hb : Stands places b own := by
        unfold Stands at hb ⊢
        rwa [List.getElem?_append_left hown] at hb
      have hlt := h.exist b hb.mem
      rw [if_neg (Nat.ne_of_lt hlt), if_neg (Nat.ne_of_lt hown)]
      exact h.same b own hb
    · have hlast : own = places.length := by
        have hlt := (List.getElem?_eq_some_iff.mp hb).1
        rw [List.length_append, List.length_singleton] at hlt
        exact Nat.le_antisymm (Nat.le_of_lt_succ hlt) (Nat.le_of_not_lt hown)
      subst hlast
      have hnew : shared.blocks.size = b :=
        Option.some.inj ((stands_concat places _).symm.trans hb)
      rw [if_pos hnew.symm, if_pos rfl]

/-- The block that is handed out last is a place of its own. -/
theorem beside_granted (places : Places) (shared alone : Heap) (n : Nat) :
    Beside places [shared.blocks.size] shared (shared.granted n) alone
      (alone.granted n) where
  handed := by
    rw [handed_granted]
    exact Nat.le_succ _
  new b hb := Nat.le_of_eq (List.mem_singleton.mp hb).symm
  others b _ hlt := by
    rw [contents_granted, if_neg (Nat.ne_of_lt hlt)]
  inUse := by
    have hcount : ∀ h : Heap, (h.granted n).inUse = h.inUse + n :=
      fun _ => rfl
    rw [hcount, hcount]
    omega
  live := by
    have hcount : ∀ h : Heap, (h.granted n).live = h.live + 1 := fun _ => rfl
    rw [hcount, hcount]
    omega

/-- One block of a memory has been changed. -/
structure Changed (f : Block → Block) (b : BlockId) (h h' : Heap) : Prop where
  handed : h'.blocks.size = h.blocks.size
  contents : ∀ c, h'.contents c
    = if c = b ∧ b < h.blocks.size then f (h.contents c) else h.contents c

/-- A new size is a change of one block. -/
theorem changed_resized (h : Heap) (b : BlockId) (n : Nat) :
    Changed (fun block => resize block n) b h (h.resized b n) :=
  ⟨handed_resized h b n, fun c => contents_resized h b c n⟩

/-- So is a release, which empties it. -/
theorem changed_released (h : Heap) (b : BlockId) :
    Changed (fun _ => #[]) b h (h.released b) :=
  ⟨handed_released h b, fun c => contents_released h b c⟩

/-- So is a byte that is written. -/
theorem changed_poked (h : Heap) (b : BlockId) (i : Nat) (byte : UInt8) :
    Changed (fun block => block.setIfInBounds i byte) b h
      (h.poked b i byte) :=
  ⟨handed_poked h b i byte, fun c => contents_poked h b c i byte⟩

/-- A block and the one that it stands for are changed in the same way. -/
theorem Lodged.changed {f : Block → Block}
    (h : Lodged places shared alone) (hb : Stands places b own)
    (hshared : Changed f b shared shared')
    (halone : Changed f own alone alone') :
    Lodged places shared' alone' where
  apart := h.apart
  exist c hc := by
    rw [hshared.handed]
    exact h.exist c hc
  handed := halone.handed.trans h.handed
  same c owned hc := by
    have hsame := h.same c owned hc
    obtain ⟨hlt, hlt'⟩ := h.handed_out hb
    rw [hshared.contents, halone.contents]
    by_cases howned : owned = own
    · subst howned
      have hcb : c = b := Option.some.inj (hc.symm.trans hb)
      rw [if_pos ⟨hcb, hlt⟩, if_pos ⟨rfl, hlt'⟩, hsame]
    · have hcb : c ≠ b := fun hcb => howned (h.unique (hcb ▸ hc) hb)
      rw [if_neg fun h => hcb h.1, if_neg fun h => howned h.1, hsame]

/-- A change of a block that has a place, by the same amounts in both
books, is made beside all others. -/
theorem beside_changed {f : Block → Block} (hb : Stands places b own)
    (hshared : Changed f b shared shared')
    (hinUse : shared'.inUse - shared.inUse = alone'.inUse - alone.inUse)
    (hlive : shared'.live - shared.live = alone'.live - alone.live) :
    Beside places [] shared shared' alone alone' where
  handed := Nat.le_of_eq hshared.handed.symm
  new c hc := by simp at hc
  others c hc _ := by
    have hcb : c ≠ b := fun hcb => hc (hcb ▸ hb.mem)
    rw [hshared.contents, if_neg fun h => hcb h.1]
  inUse := hinUse
  live := hlive

end Heap

-- ======================================================== states alike

/-- Objects that may hold the numbers of blocks. -/
class Lodger (σ : Type) where
  /-- The objects are the same but for the numbers, and the numbers stand
  for each other. -/
  Like : Places → σ → σ → Prop
  mono : ∀ {places here : Places} {x y : σ},
    places <+: here → Like places x y → Like here x y

/-- States with a memory that grants everything. -/
class Lodging (S : Type) where
  heap : S → Heap
  Lavish : S → Prop
  /-- The states are alike in what they hold beside the memory. -/
  Like : Places → S → S → Prop

instance : Lodging Heap where
  heap := id
  Lavish := Heap.Lavish
  Like _ _ _ := True

instance : Lodging Host where
  heap := Host.heap
  Lavish := Host.Generous
  Like _ _ _ := True

instance {σ : Type} [Lodger σ] : Lodging (Placed σ) where
  heap p := p.host.heap
  Lavish p := p.host.Generous
  Like places p q := Lodger.Like places p.object q.object

open Lodging

/-- Two states of which the second stands in the first. -/
structure Alike {S : Type} [Lodging S] (places : Places) (s t : S) : Prop where
  shared : Lavish s
  alone : Lavish t
  lodged : (heap s).Lodged places (heap t)
  like : Like places s t

/-- Objects that are alike stand in memories that are. -/
theorem Alike.placed {σ : Type} [Lodger σ] {p q : Placed σ}
    (h : Alike places p q) : p.host.heap.Lodged places q.host.heap :=
  h.lodged

-- ========================================================== programs alike

section

variable {S α β α' β' : Type} [Lodging S] {s s' t t' : S}
  {A : Places → α → β → Prop} {B : Places → α' → β' → Prop}

/-- Two runs have led from states to states alike. -/
structure Reached (places more : Places) (s t s' t' : S) : Prop where
  alike : Alike (places ++ more) s' t'
  beside : (heap s).Beside places more (heap s') (heap t) (heap t')

/-- Two runs end alike. -/
def Meet (A : Places → α → β → Prop) (places : Places) (s t : S) :
    EStateM.Result Fault S α → EStateM.Result Fault S β → Prop
  | .ok a s', .ok b t' => ∃ more, A (places ++ more) a b
      ∧ Reached places more s t s' t'
  | .error f s', .error g t' => f = g ∧ ∃ more, Reached places more s t s' t'
  | _, _ => False

/-- Two programs do the same, at some places and at all later ones. -/
def Tuned (A : Places → α → β → Prop) (places : Places)
    (x : EStateM Fault S α) (y : EStateM Fault S β) : Prop :=
  ∀ here s t, places <+: here → Alike here s t → Meet A here s t (x s) (y t)

/-- Answers that are the same. -/
abbrev Agree (_ : Places) (a b : α) : Prop := a = b

variable {x : EStateM Fault S α} {y : EStateM Fault S β}
  {f : α → EStateM Fault S α'} {g : β → EStateM Fault S β'}

/-- Programs that agree from some places on agree from all later ones
on. -/
theorem Tuned.mono (h : Tuned A places x y) (hle : places <+: here) :
    Tuned A here x y :=
  fun _ s t hmore hst => h _ s t (hle.trans hmore) hst

theorem Reached.refl (h : Alike places s t) :
    Reached places [] s t s t where
  alike := by rwa [List.append_nil]
  beside := .refl ..

/-- Two runs that end alike end with answers, or with one fault. -/
theorem Meet.ends {r : EStateM.Result Fault S α}
    {r' : EStateM.Result Fault S β} (h : Meet A places s t r r') :
    (∃ a b u v more, r = .ok a u ∧ r' = .ok b v ∧ A (places ++ more) a b
        ∧ Reached places more s t u v)
      ∨ ∃ f u v more, r = .error f u ∧ r' = .error f v
        ∧ Reached places more s t u v := by
  cases r with
  | ok a u =>
      cases r' with
      | ok b v =>
          obtain ⟨more, hA, hreached⟩ := h
          exact Or.inl ⟨a, b, u, v, more, rfl, rfl, hA, hreached⟩
      | error f v => exact h.elim
  | error f u =>
      cases r' with
      | ok b v => exact h.elim
      | error g v =>
          obtain ⟨rfl, more, hreached⟩ := h
          exact Or.inr ⟨f, u, v, more, rfl, rfl, hreached⟩

/-- One way after the other is a way, with the places of both. -/
theorem Reached.trans {more later : Places} {u u' v v' : S}
    (h : Reached places more s t u v)
    (h' : Reached (places ++ more) later u v u' v') :
    Reached places (more ++ later) s t u' v' where
  alike := by
    rw [← List.append_assoc]
    exact h'.alike
  beside := h.beside.trans h'.beside

/-- Behind two runs that end alike, two more end alike. -/
theorem Meet.after {more : Places} {u v : S}
    (h : Reached places more s t u v)
    {r : EStateM.Result Fault S α} {r' : EStateM.Result Fault S β}
    (hmeet : Meet A (places ++ more) u v r r') : Meet A places s t r r' := by
  rcases hmeet.ends with ⟨a, b, u', v', later, rfl, rfl, hA, h'⟩
    | ⟨f, u', v', later, rfl, rfl, h'⟩
  · refine ⟨more ++ later, ?_, h.trans h'⟩
    rwa [← List.append_assoc]
  · exact ⟨rfl, more ++ later, h.trans h'⟩

/-- One part after the other. -/
theorem Tuned.bind (hx : Tuned A places x y)
    (hf : ∀ here, places <+: here → ∀ a b, A here a b →
      Tuned B here (f a) (g b)) :
    Tuned B places (x >>= f) (y >>= g) := by
  intro here s t hle hst
  rcases (hx here s t hle hst).ends
    with ⟨a, b, u, v, more, hrun, hrun', hA, hreached⟩
      | ⟨e, u, v, more, hrun, hrun', hreached⟩
  · have hlater : places <+: here ++ more :=
      hle.trans (List.prefix_append ..)
    rw [bind_of_ok hrun, bind_of_ok hrun']
    exact Meet.after hreached (hf _ hlater a b hA _ u v
      (List.prefix_refl _) hreached.alike)
  · rw [bind_of_error hrun, bind_of_error hrun']
    exact ⟨rfl, more, hreached⟩

/-- One part after the other, where the first answers the same. -/
theorem Tuned.then {z : EStateM Fault S α} {g : α → EStateM Fault S β'}
    (hx : Tuned Agree places x z)
    (hf : ∀ a, Tuned B places (f a) (g a)) :
    Tuned B places (x >>= f) (z >>= g) :=
  hx.bind fun _ hle a _ hab => hab ▸ (hf a).mono hle

/-- Answers that are related at all later places. -/
theorem Tuned.pure {a : α} {b : β}
    (h : ∀ here, places <+: here → A here a b) :
    Tuned A places (pure a : EStateM Fault S α) (pure b) :=
  fun here _ _ hle hst => ⟨[], by rw [List.append_nil]; exact h here hle,
    .refl hst⟩

/-- The same answer. -/
theorem Tuned.answer (a : α) :
    Tuned Agree places (Pure.pure a : EStateM Fault S α) (Pure.pure a) :=
  .pure fun _ _ => rfl

theorem Tuned.throw (e : Fault) :
    Tuned A places (throw e : EStateM Fault S α) (throw e) :=
  fun _ _ _ _ hst => ⟨rfl, [], .refl hst⟩

theorem Tuned.ite {c : Prop} [Decidable c] {x' : EStateM Fault S α}
    {y' : EStateM Fault S β} (hx : c → Tuned A places x y)
    (hy : ¬ c → Tuned A places x' y') :
    Tuned A places (if c then x else x') (if c then y else y') := by
  by_cases hc : c
  · rw [if_pos hc, if_pos hc]
    exact hx hc
  · rw [if_neg hc, if_neg hc]
    exact hy hc

/-- A part that is made only on a condition, with the rest behind it. -/
theorem Tuned.when {c : Prop} [Decidable c] {x y : EStateM Fault S PUnit}
    {k : PUnit → EStateM Fault S α} {l : PUnit → EStateM Fault S β}
    (hx : c → Tuned Agree places x y)
    (hk : Tuned A places (k ⟨⟩) (l ⟨⟩)) :
    Tuned A places (if c then x >>= k else k ⟨⟩)
      (if c then y >>= l else l ⟨⟩) :=
  .ite (fun hc => (hx hc).then fun _ => hk) fun _ => hk

/-- A program that looks at its state. -/
theorem Tuned.get_bind {f : S → EStateM Fault S α} {g : S → EStateM Fault S β}
    (h : ∀ here s t, places <+: here → Alike here s t →
      Tuned A here (f s) (g t)) :
    Tuned A places (get >>= f) (get >>= g) :=
  fun here s t hle hst => h here s t hle hst here s t (List.prefix_refl _) hst

/-- A question about numbers. -/
theorem Tuned.settle_bind {γ : Type} {v : Except NumberFault γ}
    {f : γ → EStateM Fault S α} {g : γ → EStateM Fault S β}
    (h : ∀ a, v = .ok a → Tuned A places (f a) (g a)) :
    Tuned A places (settle v >>= f) (settle v >>= g) := by
  cases v with
  | ok a => exact h a rfl
  | error e => exact .throw (A := A) (Fault.ofNumber e)

theorem Tuned.settle (v : Except NumberFault α) :
    Tuned Agree places (SatSession.settle v : EStateM Fault S α)
      (SatSession.settle v) := by
  cases v with
  | ok a => exact .answer a
  | error e => exact .throw _

-- ================================================================ loops

/-- A counted loop, if each round is tuned at all later places. -/
theorem Tuned.each {f g : Nat → EStateM Fault S Unit}
    (h : ∀ i, Tuned Agree places (f i) (g i)) (count : Nat) :
    ∀ first : Nat, Tuned Agree places (Op.each f count first)
      (Op.each g count first) := by
  induction count with
  | zero => exact fun _ => .answer ()
  | succ count ih =>
      intro first
      exact (h first).then fun _ => ih (first + 1)

theorem Tuned.collect {f g : Nat → EStateM Fault S α}
    (h : ∀ i, Tuned Agree places (f i) (g i)) (count : Nat) :
    ∀ first : Nat, Tuned Agree places (Op.collect f count first)
      (Op.collect g count first) := by
  induction count with
  | zero => exact fun _ => .answer []
  | succ count ih =>
      intro first
      exact (h first).then fun a => (ih (first + 1)).then fun rest =>
        .answer (a :: rest)

theorem Tuned.forM {γ : Type} {f g : γ → EStateM Fault S PUnit}
    (h : ∀ a, Tuned Agree places (f a) (g a)) (l : List γ) :
    Tuned Agree places (l.forM f) (l.forM g) := by
  induction l with
  | nil => exact .answer PUnit.unit
  | cons a rest ih => exact (h a).then fun _ => ih

/-- A loop that hands the same result from round to round on both sides. -/
theorem Tuned.foldlM {γ δ : Type} {f g : δ → γ → EStateM Fault S δ}
    (h : ∀ d a, Tuned Agree places (f d a) (g d a)) (l : List γ) :
    ∀ d : δ, Tuned Agree places (l.foldlM f d) (l.foldlM g d) := by
  induction l with
  | nil => exact fun d => .answer d
  | cons a rest ih =>
      intro d
      rw [List.foldlM_cons, List.foldlM_cons]
      exact (h d a).then ih

end

end SatSession
