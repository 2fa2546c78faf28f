/-
Words in a block: what is read where a word was written.

A word is four bytes at a place of its own, so writing one changes the word
at that place and no other (`wordAt_pokedAll`), and a block that is made
longer keeps the words that it had (`wordAt_resize`). Both are said of the
block, not of the operations, which follow from them: within a block a word
can be written, and words can be read, without a fault.
-/
import SatSession.Engine.Table
import SatSession.Proofs.Memory.Frame

namespace SatSession

namespace Heap

variable (h : Heap) (b c : BlockId)

-- ========================================================= several bytes

/-- A memory in which the bytes of a list have been written from a place
on. -/
def pokedAll : Heap → BlockId → Nat → List UInt8 → Heap
  | h, _, _, [] => h
  | h, b, i, byte :: rest => pokedAll (h.poked b i byte) b (i + 1) rest

/-- Bytes that are written change no size. -/
@[simp] theorem size_pokedAll :
    ∀ (bytes : List UInt8) (h : Heap) (i : Nat),
      (h.pokedAll b i bytes).size c = h.size c := by
  intro bytes
  induction bytes with
  | nil => intro h i; rfl
  | cons byte rest ih =>
      intro h i
      rw [pokedAll, ih, size_poked]

/-- Only the bytes that are written change. -/
theorem getElem?_pokedAll :
    ∀ (bytes : List UInt8) (h : Heap) (i j : Nat),
      i + bytes.length ≤ h.size b →
      ((h.pokedAll b i bytes).contents b)[j]?
        = if i ≤ j ∧ j < i + bytes.length then bytes[j - i]?
          else (h.contents b)[j]? := by
  intro bytes
  induction bytes with
  | nil =>
      intro h i j _
      rw [if_neg (by simp only [List.length_nil]; omega)]
      rfl
  | cons byte rest ih =>
      intro h i j hsize
      rw [List.length_cons] at hsize
      have hb : b < h.blocks.size := lt_of_size_pos (by omega)
      rw [pokedAll, ih _ _ _ (by rw [size_poked]; omega), List.length_cons]
      by_cases hj : i + 1 ≤ j ∧ j < i + 1 + rest.length
      · rw [if_pos hj, if_pos (by omega),
          show j - i = j - (i + 1) + 1 by omega, List.getElem?_cons_succ]
      · rw [if_neg hj, contents_poked, if_pos ⟨rfl, hb⟩,
          Array.getElem?_setIfInBounds]
        by_cases hij : i = j
        · subst hij
          have hi : i < (h.contents b).size := by
            show i < h.size b
            omega
          rw [if_pos rfl, if_pos hi, if_pos (by omega), Nat.sub_self]
          rfl
        · rw [if_neg hij, if_neg (by omega)]

/-- Writing bytes is work on their block. -/
theorem within_pokedAll :
    ∀ (bytes : List UInt8) (host : Host) (i : Nat),
      Host.Within [b] host
        { host with heap := host.heap.pokedAll b i bytes } := by
  intro bytes
  induction bytes with
  | nil => intro host i; exact .refl ..
  | cons byte rest ih =>
      intro host i
      exact (Host.within_poked b i byte).trans
        (ih { host with heap := host.heap.poked b i byte } (i + 1))

end Heap

namespace TableEngine

-- ============================================================= one word

/-- Writing bytes within a block always succeeds. -/
theorem writeBytes_eq (b : BlockId) :
    ∀ (bytes : List UInt8) (h : Heap) (i : Nat),
      i + bytes.length ≤ h.size b →
      writeWord.writeBytes b i bytes h = .ok () (h.pokedAll b i bytes) := by
  intro bytes
  induction bytes with
  | nil => intro h i _; rfl
  | cons byte rest ih =>
      intro h i hsize
      rw [List.length_cons] at hsize
      unfold writeWord.writeBytes
      rw [bind_of_ok (Heap.poke_eq byte (by omega)),
        ih _ _ (by rw [Heap.size_poked]; omega)]
      rfl

theorem length_toBytes (n : Int) : (Word.toBytes n).length = Word.width :=
  rfl

/-- Writing a word within a block always succeeds. -/
theorem writeWord_eq {b : BlockId} {h : Heap} {place : Nat}
    (hroom : (place + 1) * Word.width ≤ h.size b) (n : Int) :
    writeWord b place n h
      = .ok () (h.pokedAll b (place * Word.width) (Word.toBytes n)) := by
  unfold writeWord
  rw [if_pos hroom, writeBytes_eq]
  rw [length_toBytes]
  rw [Nat.add_mul, Nat.one_mul] at hroom
  exact hroom

/-- A word is read back where it was written, and no other word has
changed. -/
theorem wordAt_pokedAll {b : BlockId} {h : Heap} {place : Nat}
    (hroom : (place + 1) * Word.width ≤ h.size b) {n : Int}
    (low : -Word.literalMax ≤ n) (high : n ≤ Word.literalMax) (k : Nat) :
    wordAt ((h.pokedAll b (place * Word.width) (Word.toBytes n)).contents b) k
      = if k = place then n else wordAt (h.contents b) k := by
  obtain ⟨b₀, b₁, b₂, b₃, hbytes, hword⟩ := Word.ofBytes_toBytes low high
  have hfits : place * Word.width + (Word.toBytes n).length ≤ h.size b := by
    rw [length_toBytes]
    rw [Nat.add_mul, Nat.one_mul] at hroom
    exact hroom
  rw [hbytes] at hfits ⊢
  unfold wordAt
  simp only [Word.width] at hroom hfits ⊢
  simp only [Heap.getElem?_pokedAll b [b₀, b₁, b₂, b₃] h _ _ hfits]
  by_cases hk : k = place
  · subst hk
    simp [hword]
  · rw [if_neg hk, if_neg, if_neg, if_neg, if_neg] <;>
      simp only [List.length_cons, List.length_nil] <;> omega

/-- A block that is made longer keeps its words. -/
theorem wordAt_resize (block : Block) {n k : Nat}
    (hk : (k + 1) * Word.width ≤ block.size) (hn : block.size ≤ n) :
    wordAt (Heap.resize block n) k = wordAt block k := by
  simp only [Word.width] at hk
  unfold wordAt
  simp only [Word.width]
  rw [Heap.getElem?_resize n block, Heap.getElem?_resize n block,
    Heap.getElem?_resize n block, Heap.getElem?_resize n block] <;> omega

-- ======================================================== several words

/-- The words of a block from one place up to another. -/
def wordsOf (block : Block) (start stop : Nat) : List Int :=
  (List.range' start (stop - start)).map (wordAt block)

/-- Words within a block can always be read. -/
theorem readWords_eq {b : BlockId} {h : Heap} {stop : Nat}
    (hroom : stop * Word.width ≤ h.size b) (start : Nat) :
    readWords b start stop h
      = .ok (wordsOf (h.contents b) start stop) h :=
  if_pos hroom

@[simp] theorem length_wordsOf (block : Block) (start stop : Nat) :
    (wordsOf block start stop).length = stop - start := by
  simp [wordsOf]

/-- Words up to a place and the words from there on. -/
theorem wordsOf_append (block : Block) {start middle stop : Nat}
    (hlow : start ≤ middle) (hhigh : middle ≤ stop) :
    wordsOf block start middle ++ wordsOf block middle stop
      = wordsOf block start stop := by
  obtain ⟨m, rfl⟩ := Nat.le.dest hlow
  obtain ⟨n, rfl⟩ := Nat.le.dest hhigh
  unfold wordsOf
  rw [← List.map_append, show start + m - start = m by omega,
    show start + m + n - (start + m) = n by omega,
    show start + m + n - start = m + n by omega, List.range'_append_1]

/-- One word more is read at the end. -/
theorem wordsOf_succ (block : Block) (stop : Nat) :
    wordsOf block 0 (stop + 1)
      = wordsOf block 0 stop ++ [wordAt block stop] := by
  rw [← wordsOf_append block (Nat.zero_le stop) (Nat.le_succ stop)]
  simp [wordsOf]

/-- Blocks with the same words at some places have the same words there. -/
theorem wordsOf_congr {block block' : Block} {start stop : Nat}
    (h : ∀ k, k < stop → wordAt block' k = wordAt block k) :
    wordsOf block' start stop = wordsOf block start stop := by
  unfold wordsOf
  refine List.map_congr_left fun k hk => h k ?_
  rw [List.mem_range'_1] at hk
  omega

end TableEngine

end SatSession
