/-
How large the tables are.

Both tables start with the same room and grow by doubling, one of them
once at a time, the other as often as it takes. How they came to their
sizes cannot be told afterwards: `room m` is the least room that doubling
reaches from the room at the start and that takes `m` entries, and each
table has just the room for what is in it (`Fitted`). Reservations,
literals and terminators, in whatever order, and growths that are denied
leave it so.

The argument is that doubling up to a number leads from one least room to
another (`grown_room`), and that storing a word grows the store as making
a variable exist grows the value table (`roomFor_eq`).
-/
import SatSession.Proofs.Tables.Draft
import Mathlib.Algebra.Ring.Nat
import Mathlib.Data.Nat.Find
import Mathlib.Order.Bounds.Basic

namespace SatSession.TableEngine

variable {e : TableEngine} {host : Host} {p : Placed TableEngine}

-- ====================================================== the least room

/-- Doubling comes past every number. -/
theorem exists_doublings (m : Nat) : ∃ k, m ≤ initialCapacity * 2 ^ k :=
  ⟨m, Nat.le_trans (Nat.le_of_lt Nat.lt_two_pow_self)
    (Nat.le_mul_of_pos_left _ (Nat.succ_pos _))⟩

/-- How often the room at the start is doubled to take a number of
entries. -/
def doublings (m : Nat) : Nat := Nat.find (exists_doublings m)

/-- The least room for a number of entries. -/
def room (m : Nat) : Nat := initialCapacity * 2 ^ doublings m

/-- There is room for all. -/
theorem le_room (m : Nat) : m ≤ room m := Nat.find_spec (exists_doublings m)

/-- No table is doubled more often than it needs. -/
theorem room_le {m k : Nat} (h : m ≤ initialCapacity * 2 ^ k) :
    room m ≤ initialCapacity * 2 ^ k :=
  Nat.mul_le_mul_left _ (Nat.pow_le_pow_right (by decide) (Nat.find_min' _ h))

/-- Among the rooms that doubling reaches, it is the least that is large
enough. -/
theorem isLeast_room (m : Nat) :
    IsLeast {n | m ≤ n ∧ ∃ k, n = initialCapacity * 2 ^ k} (room m) := by
  refine ⟨⟨le_room m, doublings m, rfl⟩, ?_⟩
  rintro n ⟨hn, k, rfl⟩
  exact room_le hn

/-- The room at the start is enough for some entries. -/
theorem room_of_le {m : Nat} (h : m ≤ initialCapacity) :
    room m = initialCapacity := by
  have hzero : doublings m = 0 :=
    (Nat.find_eq_zero _).mpr (by simpa using h)
  rw [room, hzero, Nat.pow_zero, Nat.mul_one]

theorem room_pos (m : Nat) : 0 < room m :=
  Nat.mul_pos (Nat.succ_pos _) (Nat.two_pow_pos _)

-- ============================================================= doubling

/-- Doubling goes through rooms that doubling reaches. -/
theorem grown_reached {capacity : Nat}
    (h : ∃ k, capacity = initialCapacity * 2 ^ k) (needed : Nat) :
    ∃ k, grown capacity needed = initialCapacity * 2 ^ k := by
  fun_induction grown capacity needed with
  | case1 capacity _ ih =>
      obtain ⟨k, rfl⟩ := h
      exact ih ⟨k + 1, by rw [Nat.pow_succ, Nat.mul_left_comm,
        Nat.mul_comm 2]⟩
  | case2 capacity _ => exact h

/-- Doubling does not go past a room that is large enough. -/
theorem grown_le (needed i : Nat) :
    ∀ capacity, needed ≤ capacity * 2 ^ i →
      grown capacity needed ≤ capacity * 2 ^ i := by
  induction i with
  | zero =>
      intro capacity h
      rw [Nat.pow_zero, Nat.mul_one] at h ⊢
      rw [grown_eq_self h]
  | succ i ih =>
      intro capacity h
      have hdouble : capacity * 2 ^ (i + 1) = 2 * capacity * 2 ^ i := by
        rw [Nat.pow_succ, Nat.mul_comm (2 ^ i), ← Nat.mul_assoc,
          Nat.mul_comm capacity]
      unfold grown
      split
      next =>
        rw [hdouble] at h ⊢
        exact ih (2 * capacity) h
      next => exact Nat.le_mul_of_pos_right _ (Nat.two_pow_pos _)

/-- A least room that is doubled up to a number is the least room for the
larger of the two. -/
theorem grown_room (m n : Nat) : grown (room m) n = room (max m n) := by
  obtain ⟨k, hk⟩ : ∃ k, grown (room m) n = initialCapacity * 2 ^ k :=
    grown_reached ⟨doublings m, rfl⟩ n
  have hm : m ≤ grown (room m) n :=
    Nat.le_trans (le_room m) (capacity_le_grown ..)
  have hn : n ≤ grown (room m) n := le_grown (room_pos m)
  refine Nat.le_antisymm ?_ ?_
  · -- the larger room is the smaller one doubled some times
    have hle : doublings m ≤ doublings (max m n) :=
      Nat.find_min' _ (Nat.le_trans (Nat.le_max_left m n) (le_room _))
    obtain ⟨i, hi⟩ := Nat.exists_eq_add_of_le hle
    have hroom : room (max m n) = room m * 2 ^ i := by
      rw [room, hi, Nat.pow_add, ← Nat.mul_assoc]
      rfl
    rw [hroom]
    refine grown_le n i _ ?_
    rw [← hroom]
    exact Nat.le_trans (Nat.le_max_right m n) (le_room _)
  · have hmax : max m n ≤ grown (room m) n := Nat.max_le.mpr ⟨hm, hn⟩
    rw [hk] at hmax ⊢
    exact room_le hmax

/-- A store that takes a word grows like a value table that takes a
variable. -/
theorem roomFor_eq (hpos : 0 < e.wordCapacity)
    (hle : e.stored ≤ e.wordCapacity) :
    e.roomFor = grown e.wordCapacity (e.stored + 1) := by
  unfold roomFor
  split
  next hfull =>
    rw [grown, if_pos ⟨hpos, by omega⟩, grown_eq_self (by omega)]
  next hroom => rw [grown_eq_self (by omega)]

-- =========================================================== the tables

/-- The bytes of both tables, with the least room for some variables and
some words. -/
def footprint (vars words : Nat) : Nat :=
  valueBytes (room vars) + storeBytes (room words)

/-- Both tables have just the room for what is in them. -/
structure Fitted (e : TableEngine) : Prop where
  capacity : e.capacity = room e.varCount
  wordCapacity : e.wordCapacity = room e.stored

/-- Both tables begin with the least room there is. -/
theorem fresh_fitted (search : Search) (values store : BlockId) :
    Fitted (fresh search values store) :=
  ⟨(room_of_le (Nat.zero_le _)).symm, (room_of_le (Nat.zero_le _)).symm⟩

/-- A value table that grows has the least room for its variables. -/
theorem Ensured.fitted {n : Nat} (h : Ensured n e host p) (hf : Fitted e) :
    Fitted p.object := by
  rw [h.object]
  refine ⟨?_, hf.wordCapacity⟩
  show grown e.capacity n = room (max e.varCount n)
  rw [hf.capacity, grown_room]

/-- A store that grows has the least room for its words. -/
theorem Pushed.fitted {n : Int} (h : Pushed n e host p) (hf : Fitted e) :
    Fitted p.object := by
  have hcapacity := hf.wordCapacity
  have hle := le_room e.stored
  rw [← hcapacity] at hle
  rw [h.object]
  refine ⟨hf.capacity, ?_⟩
  show e.roomFor = room (e.stored + 1)
  rw [roomFor_eq (by rw [hcapacity]; exact room_pos _) hle, hcapacity,
    grown_room, Nat.max_eq_right (Nat.le_succ _)]

/-- The bytes that an engine holds, told from what is in its tables. -/
theorem Fitted.held (hf : Fitted e) {h : Heap} (hs : Seated e h) :
    h.held e.tables = footprint e.varCount e.stored := by
  simp only [tables, Heap.held_cons, Heap.held_nil, hs.values_size,
    hs.store_size, hf.capacity, hf.wordCapacity, footprint]
  omega

end SatSession.TableEngine
