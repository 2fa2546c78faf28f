/-
What granted requests leave of a memory.

Each request that is granted changes a memory in one way, given here a name
of its own: `granted` hands a block of zeros out, `resized` changes the size
of a block, `released` takes one back, `poked` writes one byte. Beside each
stands what it does to the contents of every block and to the number of
blocks handed out; the counters can be read off the definitions.

Two numbers can only differ in a block that was handed out: a number that
was not has no bytes, before as after.
-/
import SatSession.Heap

namespace SatSession.Heap

variable (h : Heap) (b c : BlockId) (n : Nat)

-- ===================================================== granted requests

/-- A memory that has handed out a block of zeros. -/
def granted : Heap :=
  { h.commit n with
    blocks := h.blocks.push (Array.replicate n 0)
    live := h.live + 1 }

/-- A memory in which a block has another size. -/
def resized : Heap :=
  { h.commit ((n : Int) - h.size b) with
    blocks := h.blocks.modify b fun block => resize block n }

/-- A memory that has taken a block back. -/
def released : Heap :=
  { h with
    inUse := h.inUse - h.size b
    live := h.live - 1
    blocks := h.blocks.modify b fun _ => #[] }

/-- A memory in which one byte of a block has been written. -/
def poked (i : Nat) (byte : UInt8) : Heap :=
  { h with
    blocks := h.blocks.modify b fun block => block.setIfInBounds i byte }

-- ============================================================ contents

/-- What is applied to one block changes that block alone. -/
theorem contents_modify (f : Block → Block) :
    ((h.blocks.modify b f)[c]?.getD #[])
      = if c = b ∧ b < h.blocks.size then f (h.contents c)
        else h.contents c := by
  rw [Array.getElem?_modify]
  by_cases hc : c = b
  · subst hc
    by_cases hlt : c < h.blocks.size
    · simp [contents, hlt]
    · simp [contents, hlt]
  · simp [contents, hc, Ne.symm hc]

theorem contents_granted :
    (h.granted n).contents c
      = if c = h.blocks.size then Array.replicate n 0 else h.contents c := by
  by_cases hc : c = h.blocks.size
  · simp [granted, contents, hc]
  · simp [granted, contents, Array.getElem?_push, hc]

theorem contents_resized :
    (h.resized b n).contents c
      = if c = b ∧ b < h.blocks.size then resize (h.contents c) n
        else h.contents c :=
  contents_modify h b c fun block => resize block n

theorem contents_released :
    (h.released b).contents c
      = if c = b ∧ b < h.blocks.size then #[] else h.contents c :=
  contents_modify h b c fun _ => #[]

theorem contents_poked (i : Nat) (byte : UInt8) :
    (h.poked b i byte).contents c
      = if c = b ∧ b < h.blocks.size then
          (h.contents c).setIfInBounds i byte
        else h.contents c :=
  contents_modify h b c fun block => block.setIfInBounds i byte

/-- A block with bytes has been handed out. -/
theorem lt_of_size_pos {h : Heap} {b : BlockId} (hpos : 0 < h.size b) :
    b < h.blocks.size := by
  by_cases hlt : b < h.blocks.size
  · exact hlt
  · simp [size, contents, hlt] at hpos

-- =============================================================== sizes

@[simp] theorem size_resize (block : Block) :
    (resize block n).size = n := by
  unfold resize
  split
  · rw [Array.take_eq_extract, Array.size_extract]
    omega
  · simp only [Array.size_append, Array.size_replicate]
    omega

/-- The bytes below both sizes stay. -/
theorem getElem?_resize (block : Block) {i : Nat} (hi : i < block.size)
    (hn : i < n) : (resize block n)[i]? = block[i]? := by
  unfold resize
  split
  · rw [Array.take_eq_extract, Array.getElem?_extract, if_pos (by omega),
      Nat.zero_add]
  · rw [Array.getElem?_append_left hi]

/-- The bytes that are added are zeros. -/
theorem getElem?_resize_new (block : Block) {i : Nat} (hi : block.size ≤ i)
    (hn : i < n) : (resize block n)[i]? = some 0 := by
  unfold resize
  rw [if_neg (by omega), Array.getElem?_append_right hi,
    Array.getElem?_replicate, if_pos (by omega)]

theorem size_granted :
    (h.granted n).size c = if c = h.blocks.size then n else h.size c := by
  unfold size
  rw [contents_granted]
  split
  · exact Array.size_replicate
  · rfl

theorem size_resized :
    (h.resized b n).size c
      = if c = b ∧ b < h.blocks.size then n else h.size c := by
  unfold size
  rw [contents_resized]
  split
  · exact size_resize n _
  · rfl

theorem size_released :
    (h.released b).size c = if c = b then 0 else h.size c := by
  unfold size
  rw [contents_released]
  by_cases hc : c = b
  · subst hc
    by_cases hlt : c < h.blocks.size
    · simp [hlt]
    · simp [contents, hlt]
  · simp [hc]

@[simp] theorem size_poked (i : Nat) (byte : UInt8) :
    (h.poked b i byte).size c = h.size c := by
  unfold size
  rw [contents_poked]
  split
  · exact Array.size_setIfInBounds
  · rfl

@[simp] theorem handed_granted :
    (h.granted n).blocks.size = h.blocks.size + 1 :=
  Array.size_push _

@[simp] theorem handed_resized :
    (h.resized b n).blocks.size = h.blocks.size :=
  Array.size_modify

@[simp] theorem handed_released :
    (h.released b).blocks.size = h.blocks.size :=
  Array.size_modify

@[simp] theorem handed_poked (i : Nat) (byte : UInt8) :
    (h.poked b i byte).blocks.size = h.blocks.size :=
  Array.size_modify

/-- The byte that is written is the only one to change in its block. -/
theorem byte?_poked {h : Heap} {b : BlockId} {i : Nat} {byte : UInt8}
    (hi : i < h.size b) (k : Nat) :
    (h.poked b i byte).byte? b k
      = if k = i then some byte else h.byte? b k := by
  have hb : b < h.blocks.size := lt_of_size_pos (by omega)
  unfold byte?
  rw [contents_poked, if_pos ⟨rfl, hb⟩, Array.getElem?_setIfInBounds]
  by_cases hk : k = i
  · subst hk
    rw [if_pos rfl, if_pos rfl, if_pos (show k < (h.contents b).size from hi)]
  · rw [if_neg (Ne.symm hk), if_neg hk]

/-- Writing within a block always succeeds. -/
theorem poke_eq {h : Heap} {b : BlockId} {i : Nat} (byte : UInt8)
    (hi : i < h.size b) : poke b i byte h = .ok () (h.poked b i byte) :=
  if_pos hi

end SatSession.Heap
