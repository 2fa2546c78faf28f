/-
Counts that doubles and decimals carry without rounding.

A whole number up to `2 ^ 53` is a double (`Binary64.ofFraction_exact`), so
that a double that is one or minus one, times such a number, is this number
with a sign (`Binary64.mul_exact`). A decimal that is one or minus one is a
power of ten with the opposite exponent; times a count of at most 28 digits
it may have more digits than a result keeps, but those that are dropped are
zeros (`Decimal.mul_exact`).
-/
import SatSession.Proofs.Numbers.Points

namespace SatSession

/-- A power with an exponent that is not positive. -/
theorem powFraction_neg (base k : Nat) :
    powFraction base (-(k : Int)) = (1, base ^ k) := by
  cases k with
  | zero => rfl
  | succ k => rfl

/-- Multiples are divided without rounding. -/
theorem divNearest_mul (n : Nat) {d : Nat} (hd : 0 < d) :
    divNearest (n * d) d = n := by
  unfold divNearest
  simp [Nat.mul_div_cancel n hd, hd]

-- ============================================================= doubles

namespace Binary64

/-- The value of a finite double. -/
theorem toRat?_finite (negative : Bool) (m : Nat) (e : Int) :
    (finite negative m e).toRat?
      = some (if negative then -((m : ℚ) * 2 ^ e) else (m : ℚ) * 2 ^ e) := by
  have hvalue : mkRat ((m : Int) * (powFraction 2 e).1) (powFraction 2 e).2
      = (m : ℚ) * 2 ^ e := by
    rw [Rat.mkRat_eq_div]
    push_cast
    rw [mul_div_assoc, powFraction_div]
    norm_num
  unfold toRat?
  simp only [hvalue]

/-- A positive number below `2 ^ 53` has its 53 bits at an exponent that is
not positive. -/
theorem exponentOf_small {n : Nat} (hn : 0 < n) (hlog : Nat.log2 n ≤ 52) :
    exponentOf n 1 = -((52 - Nat.log2 n : Nat) : Int) := by
  have hguess : (Nat.log2 n : Int) - Nat.log2 1 - 52
      = -((52 - Nat.log2 n : Nat) : Int) := by
    have hone : Nat.log2 1 = 0 := by decide
    rw [hone]
    omega
  have hbits : leadingBit ≤ n * 2 ^ (52 - Nat.log2 n) := by
    calc leadingBit = 2 ^ (Nat.log2 n) * 2 ^ (52 - Nat.log2 n) := by
          rw [← Nat.pow_add, Nat.add_sub_cancel' hlog]
          rfl
      _ ≤ n * 2 ^ (52 - Nat.log2 n) :=
          Nat.mul_le_mul_right _ (Nat.log2_self_le hn.ne')
  unfold exponentOf
  simp only [hguess, powFraction_neg]
  rw [if_neg (by omega), minExponent]
  omega

/-- Whole numbers up to `2 ^ 53` are doubles. -/
theorem ofFraction_exact (negative : Bool) {n : Nat} (hn : n ≤ 2 ^ 53) :
    ∃ m e, ofFraction negative n 1 = .finite negative m e
      ∧ (m : ℚ) * 2 ^ e = n := by
  by_cases hzero : n = 0
  · subst hzero
    exact ⟨0, minExponent, rfl, by simp⟩
  by_cases hlast : n = 2 ^ 53
  · subst hlast
    refine ⟨2 ^ 52, 1, ?_, by norm_num⟩
    cases negative <;> decide
  have hlog : Nat.log2 n ≤ 52 := by
    have := (Nat.log2_lt hzero).mpr (show n < 2 ^ 53 by omega)
    omega
  have hmantissa : n * 2 ^ (52 - Nat.log2 n) < 2 * leadingBit := by
    calc n * 2 ^ (52 - Nat.log2 n)
        < 2 ^ (Nat.log2 n + 1) * 2 ^ (52 - Nat.log2 n) :=
          Nat.mul_lt_mul_of_pos_right Nat.lt_log2_self (by positivity)
      _ = 2 * leadingBit := by
          rw [← Nat.pow_add,
            show Nat.log2 n + 1 + (52 - Nat.log2 n) = 53 by omega]
          rfl
  refine ⟨n * 2 ^ (52 - Nat.log2 n), -((52 - Nat.log2 n : Nat) : Int), ?_,
    ?_⟩
  · have hround := divNearest_mul (n * 2 ^ (52 - Nat.log2 n)) Nat.one_pos
    rw [Nat.mul_one] at hround
    unfold ofFraction
    rw [if_neg hzero, exponentOf_small (by omega) hlog]
    simp only [powFraction_neg, Nat.mul_one, hround, if_neg hmantissa.ne]
    apply if_neg
    rw [maxExponent]
    omega
  · push_cast
    rw [zpow_neg, zpow_natCast, mul_assoc, mul_inv_cancel₀ (by positivity),
      mul_one]

/-- The sign of a double is that of its value. -/
theorem isNegative_of_toRat? {x : Binary64} {s : ℚ} (hs : s = 1 ∨ s = -1)
    (hx : x.toRat? = some s) : x.isNegative = decide (s < 0) := by
  cases x with
  | finite negative m e =>
      rw [toRat?_finite, Option.some.injEq] at hx
      have hm : (0 : ℚ) ≤ m * 2 ^ e := by positivity
      show negative = _
      cases negative with
      | false =>
          rw [if_neg (by decide)] at hx
          rw [eq_comm, decide_eq_false_iff_not]
          linarith
      | true =>
          rw [if_pos rfl] at hx
          rw [eq_comm, decide_eq_true_iff]
          rcases hs with rfl | rfl
          · linarith
          · norm_num
  | infinite negative => cases hx
  | nan => cases hx

/-- A whole number up to `2 ^ 53` as a double. -/
theorem ofRat_exact {i : Nat} (hi : i ≤ 2 ^ 53) :
    ∃ m e, ofRat (i : ℚ) = .finite false m e ∧ (m : ℚ) * 2 ^ e = i := by
  have hsame : ofRat (i : ℚ) = ofFraction false i 1 := by
    have hsign : ¬ (i : Int) < 0 := by omega
    simp [ofRat, hsign]
  rw [hsame]
  exact ofFraction_exact false hi

/-- One or minus one, times a whole number up to `2 ^ 53`. -/
theorem mul_exact {x y : Binary64} {s : ℚ} (hs : s = 1 ∨ s = -1)
    (hx : x.toRat? = some s) {i : Nat} (hi : i ≤ 2 ^ 53)
    (hy : y = ofRat (i : ℚ)) : (x.mul y).toRat? = some (s * i) := by
  obtain ⟨m, e, hfinite, hvalue⟩ := ofRat_exact hi
  rw [hfinite] at hy
  have hyvalue : y.toRat? = some (i : ℚ) := by
    rw [hy, toRat?_finite, if_neg (by decide), hvalue]
  have hysign : y.isNegative = false := by rw [hy]; rfl
  have habs : (s * i).num.natAbs = i ∧ (s * i).den = 1 := by
    rcases hs with rfl | rfl
    · simp
    · simp
  obtain ⟨m', e', hproduct, hvalue'⟩ :=
    ofFraction_exact (decide (s < 0)) hi
  unfold mul
  simp only [hx, hyvalue, habs.1, habs.2, isNegative_of_toRat? hs hx,
    hysign, Bool.xor_false, hproduct]
  rw [toRat?_finite, hvalue']
  rcases hs with rfl | rfl
  · norm_num
  · norm_num

end Binary64

-- ============================================================ decimals

namespace Decimal

/-- Dropping zeros is no rounding. -/
theorem dropPlaces_mul {n : Nat} (hn : 0 < n) (k : Nat) :
    dropPlaces (10 ^ k * n) k = n := by
  have hdigits := digitCount_shift hn k
  unfold dropPlaces
  rw [if_neg (by omega), Nat.mul_comm]
  exact divNearest_mul n (Nat.pow_pos (by omega))

/-- A count of at most 28 digits is kept, however many zeros it is written
with. -/
theorem round_exact (negative : Bool) {n : Nat} (hn : 0 < n)
    (hdigits : digitCount n ≤ precision) (k : Nat) :
    ∃ m e,
      round negative (10 ^ k * n) (-(k : Int)) = .ok (.finite negative m e)
      ∧ (m : ℚ) * 10 ^ e = n := by
  have hpos : 0 < 10 ^ k * n := Nat.mul_pos (Nat.pow_pos (by omega)) hn
  have hcount := digitCount_shift hn k
  have hdn := digitCount_pos n
  have hten : (10 : ℚ) ≠ 0 := by norm_num
  simp only [precision] at hdigits
  have hplace : max (-(k : Int) + digitCount (10 ^ k * n) - precision)
      lowestPlace = (digitCount n : Int) - 28 := by
    rw [hcount, precision, lowestPlace]
    omega
  unfold round
  rw [if_neg hpos.ne', if_neg (by
    rw [leading, hcount, highestPlace]
    omega)]
  simp only [hplace]
  by_cases hshort : (digitCount n : Int) - 28 ≤ -(k : Int)
  · rw [if_pos hshort]
    refine ⟨10 ^ k * n, -(k : Int), rfl, ?_⟩
    push_cast
    rw [zpow_neg, zpow_natCast]
    field_simp
  · -- the zeros behind the 28th digit are dropped
    rw [if_neg hshort]
    obtain ⟨j, hj⟩ : ∃ j, 28 - digitCount n = j := ⟨_, rfl⟩
    obtain ⟨t, ht⟩ : ∃ t, k - j = t := ⟨_, rfl⟩
    have hkept : dropPlaces (10 ^ k * n)
        ((digitCount n : Int) - 28 - -(k : Int)).toNat = 10 ^ j * n := by
      rw [show ((digitCount n : Int) - 28 - -(k : Int)).toNat = t by omega,
        show 10 ^ k * n = 10 ^ t * (10 ^ j * n) by
          rw [← Nat.mul_assoc, ← Nat.pow_add, show t + j = k by omega]]
      exact dropPlaces_mul (Nat.mul_pos (Nat.pow_pos (by omega)) hn) t
    have hfull : 10 ^ j * n ≠ Nat.pow 10 precision := by
      intro heq
      have h28 := digitCount_shift hn j
      have hlt := lt_pow_digitCount (10 ^ j * n)
      rw [h28, show j + digitCount n = 28 by omega, heq] at hlt
      exact Nat.lt_irrefl _ hlt
    rw [hkept, if_neg hfull]
    refine ⟨10 ^ j * n, (digitCount n : Int) - 28, rfl, ?_⟩
    rw [show (digitCount n : Int) - 28 = -(j : Int) by omega]
    push_cast
    rw [zpow_neg, zpow_natCast]
    field_simp

/-- A decimal of magnitude one is a power of ten with the opposite
exponent. -/
theorem eq_pow_of_value {m : Nat} {e : Int} (h : (m : ℚ) * 10 ^ e = 1) :
    ∃ k : Nat, m = 10 ^ k ∧ e = -(k : Int) := by
  cases e with
  | ofNat a =>
      have hprod : m * 10 ^ a = 1 := by
        rw [Int.ofNat_eq_natCast, zpow_natCast] at h
        exact_mod_cast h
      have hm : m = 1 := Nat.eq_one_of_mul_eq_one_right hprod
      have ha : 10 ^ a = 1 := Nat.eq_one_of_mul_eq_one_left hprod
      have hzero : a = 0 := by
        rcases Nat.pow_eq_one.mp ha with h | h
        · omega
        · exact h
      subst hzero
      exact ⟨0, hm, rfl⟩
  | negSucc a =>
      refine ⟨a + 1, ?_, Int.negSucc_eq a⟩
      rw [zpow_negSucc, mul_inv_eq_one₀ (by positivity)] at h
      exact_mod_cast h

/-- A decimal of magnitude one, times a whole number up to `2 ^ 53`. -/
theorem mul_exact (negative : Bool) {m : Nat} {e : Int}
    (h : (m : ℚ) * 10 ^ e = 1) {i : Nat} (hpos : 0 < i)
    (hi : i ≤ 2 ^ 53) :
    ∃ m' e', mul (.finite negative m e) (.ofInt i)
        = .ok (.finite negative m' e') ∧ (m' : ℚ) * 10 ^ e' = i := by
  obtain ⟨k, rfl, rfl⟩ := eq_pow_of_value h
  have hdigits : digitCount i ≤ precision :=
    (digitCount_le_iff (by decide)).mpr (by rw [precision]; omega)
  have hsign : ¬ (i : Int) < 0 := by omega
  have hmul : mul (.finite negative (10 ^ k) (-(k : Int))) (.ofInt i)
      = round negative (10 ^ k * i) (-(k : Int)) := by
    simp [mul, ofInt, hsign]
  rw [hmul]
  exact round_exact negative hpos hdigits k

end Decimal

end SatSession
