/-
How an engine sits in its two tables, and how the tables grow.

`Seated` is what every call of a live engine relies on: the tables are two
blocks, as large as the engine believes, with room for all variables and
for all words stored. It is kept by growing, whatever the host answers.

Growing comes in two forms, and each has an equation that says all of it:
making a variable exist grows the value table (`ensureVariable_eq`), and
storing a word grows the store (`push_eq`). Both fail only where the host
denies the growth, and then the engine is what it was.
-/
import SatSession.Proofs.Tables.Words

namespace SatSession.TableEngine

variable {e : TableEngine} {host : Host} {h : Heap}

-- ============================================================ the seat

/-- The blocks of an engine. -/
def tables (e : TableEngine) : List BlockId := [e.values, e.store]

/-- A live engine sits in its tables. -/
structure Seated (e : TableEngine) (h : Heap) : Prop where
  live : e.live = true
  apart : e.values ≠ e.store
  values_size : h.size e.values = valueBytes e.capacity
  store_size : h.size e.store = storeBytes e.wordCapacity
  capacity_pos : 0 < e.capacity
  wordCapacity_pos : 0 < e.wordCapacity
  vars_le : e.varCount ≤ e.capacity
  start_le : e.clauseStart ≤ e.stored
  stored_le : e.stored ≤ e.wordCapacity

/-- The words in the store. -/
def words (e : TableEngine) (h : Heap) : List Int :=
  wordsOf (h.contents e.store) 0 e.stored

/-- The value table is a block that was handed out. -/
theorem Seated.values_handed (hs : Seated e h) : e.values < h.blocks.size :=
  Heap.lt_of_size_pos (by
    rw [hs.values_size, valueBytes]
    omega)

/-- So is the store. -/
theorem Seated.store_handed (hs : Seated e h) : e.store < h.blocks.size :=
  Heap.lt_of_size_pos (by
    have hpos := hs.wordCapacity_pos
    rw [hs.store_size, storeBytes, Word.width]
    omega)

/-- Both tables have been handed out. -/
theorem Seated.tables_handed (hs : Seated e h) :
    ∀ b ∈ e.tables, b < h.blocks.size := by
  intro b hb
  rcases List.mem_cons.mp hb with rfl | hb
  · exact hs.values_handed
  · rw [List.mem_singleton.mp hb]
    exact hs.store_handed

/-- An engine is seated as long as its tables are what they were. -/
theorem Seated.of_contents (hs : Seated e h) {h' : Heap}
    (hsame : ∀ b ∈ e.tables, h'.contents b = h.contents b) :
    Seated e h' :=
  { hs with
    values_size := by
      rw [Heap.size, hsame e.values (by simp [tables])]
      exact hs.values_size
    store_size := by
      rw [Heap.size, hsame e.store (by simp [tables])]
      exact hs.store_size }

/-- What is done in other blocks leaves the stored words. -/
theorem words_of_within {own : List BlockId} {host' : Host}
    (hw : Host.Within own host host') (hstore : e.store ∉ own) :
    e.words host'.heap = e.words host.heap := by
  unfold words
  rw [hw.others _ hstore]

-- ============================================================ doubling

/-- Doubling does not stop before there is room. -/
theorem le_grown {capacity needed : Nat} (hpos : 0 < capacity) :
    needed ≤ grown capacity needed := by
  fun_induction grown capacity needed with
  | case1 capacity _ ih => exact ih (by omega)
  | case2 capacity hstop => omega

/-- Doubling takes nothing away. -/
theorem capacity_le_grown (capacity needed : Nat) :
    capacity ≤ grown capacity needed := by
  fun_induction grown capacity needed with
  | case1 capacity _ ih => omega
  | case2 capacity _ => exact Nat.le_refl _

/-- Where there is room already, nothing grows. -/
theorem grown_eq_self {capacity needed : Nat} (h : needed ≤ capacity) :
    grown capacity needed = capacity := by
  unfold grown
  rw [if_neg (by omega)]

-- ========================================================== value table

/-- An engine that knows the variables up to a number. -/
def ensured (e : TableEngine) (n : Nat) : TableEngine :=
  { e with
    capacity := grown e.capacity n
    varCount := max e.varCount n }

/-- A host whose value table has been grown for a number of variables. -/
def valuesGrown (e : TableEngine) (host : Host) (n : Nat) : Host :=
  { host.asked with
    heap := host.heap.resized e.values (valueBytes (grown e.capacity n)) }

/-- Growing the value table fails only if the host denies it. -/
theorem ensureCapacity_eq (hp : host.Plain) (hs : Seated e host.heap)
    (n : Nat) :
    ensureCapacity n ⟨e, host⟩
      = if host.denies
            (valueBytes (grown e.capacity n) - valueBytes e.capacity)
            (valueBytes (grown e.capacity n)) then
          .error (.outOfMemory .valueTable) ⟨e, host.asked⟩
        else .ok () ⟨{ e with capacity := grown e.capacity n },
          e.valuesGrown host n⟩ := by
  have hask := Host.realloc_eq hp hs.values_size
    (valueBytes (grown e.capacity n))
  unfold ensureCapacity
  rw [Op.read_bind_apply]
  split at hask
  next hdeny =>
    rw [if_pos hdeny]
    exact (bind_of_ok (Op.onHost_ok hask)).trans rfl
  next hgrant =>
    rw [if_neg hgrant]
    exact (bind_of_ok (Op.onHost_ok hask)).trans rfl

/-- Making a variable exist asks for memory if the table has no room for
it, and fails only if that is denied. -/
theorem ensureVariable_eq (hp : host.Plain) (hs : Seated e host.heap)
    (n : Int) :
    ensureVariable (.int n) ⟨e, host⟩
      = if (e.capacity : Int) < n then
          if host.denies
              (valueBytes (grown e.capacity n.toNat) - valueBytes e.capacity)
              (valueBytes (grown e.capacity n.toNat)) then
            .error (.outOfMemory .valueTable) ⟨e, host.asked⟩
          else .ok () ⟨e.ensured n.toNat, e.valuesGrown host n.toNat⟩
        else .ok () ⟨e.ensured n.toNat, host⟩ := by
  have hknow : ∀ (capacity : Nat) (host' : Host),
      (if (e.varCount + 1 : Int) ≤ n then
          Op.update fun e => { e with varCount := max e.varCount n.toNat }
        else pure () : Op TableEngine Unit)
        ⟨{ e with capacity := capacity }, host'⟩
        = .ok () ⟨{ e with
            capacity := capacity, varCount := max e.varCount n.toNat },
          host'⟩ := by
    intro capacity host'
    by_cases hle : (e.varCount + 1 : Int) ≤ n
    · rw [if_pos hle]
      rfl
    · rw [if_neg hle, Nat.max_eq_left (by omega)]
      rfl
  have hgrow := ensureCapacity_eq hp hs n.toNat
  unfold ensureVariable
  rw [Op.read_bind_apply]
  simp only [Value.lt_int, settle_ok, pure_bind, Value.le_int,
    Value.ceil?_int, Value.floor?_int, decide_eq_true_eq]
  by_cases hroom : (e.capacity : Int) < n
  · rw [if_pos hroom, if_pos hroom]
    split at hgrow
    next hdeny => rw [bind_of_error hgrow, if_pos hdeny]
    next hgrant => rw [bind_of_ok hgrow, if_neg hgrant, hknow]; rfl
  · rw [if_neg hroom, if_neg hroom]
    refine (hknow e.capacity host).trans ?_
    unfold ensured
    rw [grown_eq_self (by omega)]

-- ============================================================== the store

/-- The room of a store that takes one more word. -/
def roomFor (e : TableEngine) : Nat :=
  if e.stored = e.wordCapacity then 2 * e.wordCapacity else e.wordCapacity

/-- An engine that has stored one more word. -/
def pushed (e : TableEngine) : TableEngine :=
  { e with wordCapacity := e.roomFor, stored := e.stored + 1 }

/-- A host whose store has been grown to twice the room. -/
def storeGrown (e : TableEngine) (host : Host) : Host :=
  { host.asked with
    heap := host.heap.resized e.store (storeBytes (2 * e.wordCapacity)) }

/-- A host in whose store a word has been written. -/
def worded (e : TableEngine) (host : Host) (n : Int) : Host :=
  { host with
    heap := host.heap.pokedAll e.store (e.stored * Word.width)
      (Word.toBytes n) }

/-- Storing a word asks for memory if the store is full, and fails only if
that is denied. -/
theorem push_eq (hp : host.Plain) (hs : Seated e host.heap) (n : Int) :
    push (.int n) ⟨e, host⟩
      = if e.stored = e.wordCapacity then
          if host.denies
              (storeBytes (2 * e.wordCapacity) - storeBytes e.wordCapacity)
              (storeBytes (2 * e.wordCapacity)) then
            .error (.outOfMemory .clauseStore) ⟨e, host.asked⟩
          else .ok () ⟨e.pushed, e.worded (e.storeGrown host) n⟩
        else .ok () ⟨e.pushed, e.worded host n⟩ := by
  -- the word is written alike with and without a growth in front of it
  have hwrite : ∀ (capacity : Nat) (host' : Host),
      (e.stored + 1) * Word.width ≤ host'.heap.size e.store →
      (do
        Op.onHost (Host.onHeap (writeWord e.store e.stored n))
        Op.update fun e => { e with stored := e.stored + 1 } :
          Op TableEngine Unit) ⟨{ e with wordCapacity := capacity }, host'⟩
        = .ok () ⟨{ e with
            wordCapacity := capacity, stored := e.stored + 1 },
          e.worded host' n⟩ := by
    intro capacity host' hroom
    have hword := Host.onHeap_ok (writeWord_eq hroom n)
    exact (bind_of_ok (Op.onHost_ok hword)).trans rfl
  have hask := Host.realloc_eq hp hs.store_size
    (storeBytes (2 * e.wordCapacity))
  have hle := hs.stored_le
  unfold push
  rw [Op.read_bind_apply]
  by_cases hfull : e.stored = e.wordCapacity
  · rw [if_pos hfull]
    simp only [if_pos hfull, Value.whole?, Number.whole?]
    split at hask
    next hdeny =>
      rw [if_pos hdeny]
      exact (bind_of_ok (Op.onHost_ok hask)).trans rfl
    next hgrant =>
      rw [if_neg hgrant]
      refine (bind_of_ok (Op.onHost_ok hask)).trans ?_
      have hroom : (e.stored + 1) * Word.width
          ≤ (e.storeGrown host).heap.size e.store := by
        unfold storeGrown
        rw [Heap.size_resized, if_pos ⟨rfl, hs.store_handed⟩, storeBytes]
        exact Nat.mul_le_mul_right _ (by
          have hpos := hs.wordCapacity_pos
          omega)
      refine (hwrite (2 * e.wordCapacity) (e.storeGrown host) hroom).trans ?_
      unfold pushed roomFor
      rw [if_pos hfull]
  · rw [if_neg hfull]
    simp only [if_neg hfull, Value.whole?, Number.whole?]
    have hroom : (e.stored + 1) * Word.width ≤ host.heap.size e.store := by
      rw [hs.store_size, storeBytes]
      exact Nat.mul_le_mul_right _ (by omega)
    refine (hwrite e.wordCapacity host hroom).trans ?_
    unfold pushed roomFor
    rw [if_neg hfull]

-- ============================================ what the tables then hold

/-- A call that ended because the host denied memory: the engine and the
memory are what they were. -/
structure Denied (use : MemoryUse) (e : TableEngine) (host : Host)
    (f : Fault) (p : Placed TableEngine) : Prop where
  fault : f = .outOfMemory use
  rest : p = ⟨e, host.asked⟩
  denied : ∃ delta size, host.denies delta size = true

/-- A variable exists: the tables hold what they held, the value table as
many bytes as it has room for. -/
structure Ensured (n : Nat) (e : TableEngine) (host : Host)
    (p : Placed TableEngine) : Prop where
  object : p.object = e.ensured n
  seated : Seated p.object p.host.heap
  within : Host.Within e.tables host p.host
  words : p.object.words p.host.heap = e.words host.heap
  values : p.host.heap.contents e.values
    = Heap.resize (host.heap.contents e.values)
        (valueBytes (grown e.capacity n))

/-- A word has been stored behind the others, and the value table has not
been touched. -/
structure Pushed (n : Int) (e : TableEngine) (host : Host)
    (p : Placed TableEngine) : Prop where
  object : p.object = e.pushed
  seated : Seated p.object p.host.heap
  within : Host.Within e.tables host p.host
  words : p.object.words p.host.heap = e.words host.heap ++ [n]
  values : p.host.heap.contents e.values = host.heap.contents e.values

/-- A block that is made as long as it is stays as it is. -/
theorem resize_self (block : Block) :
    Heap.resize block block.size = block := by
  unfold Heap.resize
  rw [if_neg (Nat.lt_irrefl _), Nat.sub_self]
  simp

/-- Work on the value table alone is work on the tables. -/
theorem Seated.within_values (hs : Seated e host.heap) {host' : Host}
    (hw : Host.Within [e.values] host host') :
    Host.Within e.tables host host' := by
  have h := hw.widen [] [e.store] (by simp) (by simpa using hs.apart.symm)
  simpa [tables] using h

/-- Work on the store alone is work on the tables. -/
theorem Seated.within_store (hs : Seated e host.heap) {host' : Host}
    (hw : Host.Within [e.store] host host') :
    Host.Within e.tables host host' := by
  have h := hw.widen [e.values] [] (by simpa using hs.apart) (by simp)
  simpa [tables] using h

/-- Growing the value table keeps the engine seated. -/
theorem Seated.valuesGrown (hs : Seated e host.heap) {n : Nat}
    (hgrant : host.denies
      (valueBytes (grown e.capacity n) - valueBytes e.capacity)
      (valueBytes (grown e.capacity n)) = false) :
    Ensured n e host ⟨e.ensured n, e.valuesGrown host n⟩ := by
  have hw : Host.Within [e.values] host (e.valuesGrown host n) :=
    Host.within_resized hs.values_handed (by
      rw [hs.values_size]
      exact hgrant)
  have hstore : e.store ∉ [e.values] := by simpa using hs.apart.symm
  refine ⟨rfl, ?_, hs.within_values hw, words_of_within hw hstore, ?_⟩
  · refine { hs with
      values_size := ?_
      store_size := (hw.size_eq hstore).trans hs.store_size
      capacity_pos := ?_
      vars_le := ?_ }
    · show (host.heap.resized _ _).size e.values = _
      rw [Heap.size_resized, if_pos ⟨rfl, hs.values_handed⟩]
      rfl
    · exact Nat.lt_of_lt_of_le hs.capacity_pos (capacity_le_grown _ n)
    · exact Nat.max_le.mpr
        ⟨Nat.le_trans hs.vars_le (capacity_le_grown _ n),
          le_grown hs.capacity_pos⟩
  · show (host.heap.resized _ _).contents e.values = _
    rw [Heap.contents_resized, if_pos ⟨rfl, hs.values_handed⟩]

/-- A variable that has room needs no growth. -/
theorem Seated.roomy (hs : Seated e host.heap) {n : Nat}
    (hn : n ≤ e.capacity) : Ensured n e host ⟨e.ensured n, host⟩ := by
  have hcapacity : grown e.capacity n = e.capacity := grown_eq_self hn
  refine ⟨rfl, ?_, .refl .., rfl, ?_⟩
  · refine { hs with
      values_size := ?_
      capacity_pos := ?_
      vars_le := ?_ }
    · show _ = valueBytes (grown e.capacity n)
      rw [hcapacity]
      exact hs.values_size
    · show 0 < grown e.capacity n
      rw [hcapacity]
      exact hs.capacity_pos
    · show max e.varCount n ≤ grown e.capacity n
      rw [hcapacity]
      exact Nat.max_le.mpr ⟨hs.vars_le, hn⟩
  · rw [hcapacity, ← hs.values_size]
    exact (resize_self _).symm

/-- Making a variable exist does that, or is denied memory. -/
theorem ensureVariable_ends (hp : host.Plain) (hs : Seated e host.heap)
    (n : Int) :
    Ends (fun _ p => Ensured n.toNat e host p) (Denied .valueTable e host)
      (ensureVariable (.int n) ⟨e, host⟩) := by
  rw [ensureVariable_eq hp hs]
  split
  next =>
    split
    next hdeny => exact ⟨rfl, rfl, _, _, hdeny⟩
    next hgrant => exact hs.valuesGrown (Bool.eq_false_iff.mpr hgrant)
  next hroom => exact hs.roomy (by omega)

/-- A store in which there is room takes a word. -/
theorem Seated.worded (hs : Seated e host.heap)
    (hroom : e.stored < e.wordCapacity) {n : Int}
    (low : -Word.literalMax ≤ n) (high : n ≤ Word.literalMax) :
    Pushed n e host ⟨e.pushed, e.worded host n⟩ := by
  have hw : Host.Within [e.store] host (e.worded host n) :=
    Heap.within_pokedAll e.store (Word.toBytes n) host _
  have hvalues : e.values ∉ [e.store] := by simpa using hs.apart
  have hplace : (e.stored + 1) * Word.width ≤ host.heap.size e.store := by
    rw [hs.store_size, storeBytes]
    exact Nat.mul_le_mul_right _ hroom
  have hcapacity : e.roomFor = e.wordCapacity := if_neg (by omega)
  refine ⟨rfl, ?_, hs.within_store hw, ?_, hw.others _ hvalues⟩
  · refine { hs with
      values_size := (hw.size_eq hvalues).trans hs.values_size
      store_size := ?_
      wordCapacity_pos := ?_
      start_le := Nat.le_succ_of_le hs.start_le
      stored_le := ?_ }
    · show (host.heap.pokedAll _ _ _).size e.store = storeBytes e.roomFor
      rw [Heap.size_pokedAll, hcapacity]
      exact hs.store_size
    · show 0 < e.roomFor
      rw [hcapacity]
      exact hs.wordCapacity_pos
    · show e.stored + 1 ≤ e.roomFor
      rw [hcapacity]
      exact hroom
  · have hbelow : wordsOf ((e.worded host n).heap.contents e.store) 0
        e.stored = e.words host.heap := by
      refine wordsOf_congr fun k hk => ?_
      unfold TableEngine.worded
      rw [wordAt_pokedAll hplace low high, if_neg (by omega)]
    have hlast : wordAt ((e.worded host n).heap.contents e.store) e.stored
        = n := by
      unfold TableEngine.worded
      rw [wordAt_pokedAll hplace low high, if_pos rfl]
    show wordsOf ((e.worded host n).heap.contents e.store) 0
      (e.stored + 1) = _
    rw [wordsOf_succ, hbelow, hlast]

/-- Growing the store keeps the engine seated, with room for a word. -/
theorem Seated.storeGrown (hs : Seated e host.heap)
    (hgrant : host.denies
      (storeBytes (2 * e.wordCapacity) - storeBytes e.wordCapacity)
      (storeBytes (2 * e.wordCapacity)) = false) :
    Seated { e with wordCapacity := 2 * e.wordCapacity }
        (e.storeGrown host).heap
      ∧ e.words (e.storeGrown host).heap = e.words host.heap
      ∧ Host.Within [e.store] host (e.storeGrown host) := by
  have hw : Host.Within [e.store] host (e.storeGrown host) :=
    Host.within_resized hs.store_handed (by
      rw [hs.store_size]
      exact hgrant)
  have hvalues : e.values ∉ [e.store] := by simpa using hs.apart
  have hpos := hs.wordCapacity_pos
  have hle := hs.stored_le
  refine ⟨?_, ?_, hw⟩
  · refine { hs with
      values_size := (hw.size_eq hvalues).trans hs.values_size
      store_size := ?_
      wordCapacity_pos := ?_
      stored_le := ?_ }
    · unfold TableEngine.storeGrown
      rw [Heap.size_resized, if_pos ⟨rfl, hs.store_handed⟩]
    · show 0 < 2 * e.wordCapacity
      omega
    · show e.stored ≤ 2 * e.wordCapacity
      omega
  · refine wordsOf_congr fun k hk => ?_
    have hsize := hs.store_size
    rw [storeBytes] at hsize
    unfold TableEngine.storeGrown
    rw [Heap.contents_resized, if_pos ⟨rfl, hs.store_handed⟩, wordAt_resize]
    · show _ ≤ host.heap.size e.store
      rw [hsize]
      exact Nat.mul_le_mul_right _ (by omega)
    · show host.heap.size e.store ≤ _
      rw [hsize, storeBytes]
      exact Nat.mul_le_mul_right _ (by omega)

/-- Storing a word does that, or is denied memory. -/
theorem push_ends (hp : host.Plain) (hs : Seated e host.heap) {n : Int}
    (low : -Word.literalMax ≤ n) (high : n ≤ Word.literalMax) :
    Ends (fun _ p => Pushed n e host p) (Denied .clauseStore e host)
      (push (.int n) ⟨e, host⟩) := by
  rw [push_eq hp hs]
  split
  next hfull =>
    split
    next hdeny => exact ⟨rfl, rfl, _, _, hdeny⟩
    next hgrant =>
      obtain ⟨hseat, hwords, hw⟩ :=
        hs.storeGrown (Bool.eq_false_iff.mpr hgrant)
      have hpos := hs.wordCapacity_pos
      have hlt : e.stored < 2 * e.wordCapacity := by omega
      have hvalues : e.values ∉ [e.store] := by simpa using hs.apart
      have h := hseat.worded hlt low high
      have hobject :
          ({ e with wordCapacity := 2 * e.wordCapacity } :
            TableEngine).pushed = e.pushed := by
        unfold pushed roomFor
        simp only [if_pos hfull, if_neg (Nat.ne_of_lt hlt)]
      refine ⟨rfl, ?_, (hs.within_store hw).trans h.within, ?_, ?_⟩
      · rw [← hobject]
        exact h.seated
      · rw [← hobject, ← hwords]
        exact h.words
      · exact h.values.trans (hw.others _ hvalues)
  next hroom =>
    have hle := hs.stored_le
    exact hs.worded (by omega) low high

end SatSession.TableEngine
