/-
The values of the points of the line.

A finite point `q · 10 ^ scale` is compared with another one without
writing the power out: by its sign, then by the place of its leading digit,
and only then by multiplying across. What comes of it is the comparison of
the values (`same_finite_iff`, `zero_lt_finite`), since a value lies
between the powers of ten on either side of its place (`place_bounds`), so
that equal values are less than two places apart.
-/
import SatSession.Number.Line
import Mathlib.Algebra.Order.Field.Power
import Mathlib.Data.Rat.Lemmas
import Mathlib.Tactic.FieldSimp
import Mathlib.Tactic.Linarith
import Mathlib.Tactic.Positivity

namespace SatSession

-- ============================================================== powers

/-- A power as a fraction is this power. -/
theorem powFraction_div (base : Nat) (e : Int) :
    ((powFraction base e).1 : ℚ) / (powFraction base e).2
      = (base : ℚ) ^ e := by
  cases e with
  | ofNat e => simp [powFraction]
  | negSucc e => simp [powFraction, zpow_negSucc]

theorem powFraction_pos {base : Nat} (hbase : 0 < base) (e : Int) :
    0 < (powFraction base e).1 ∧ 0 < (powFraction base e).2 := by
  cases e with
  | ofNat e => exact ⟨Nat.pow_pos hbase, Nat.one_pos⟩
  | negSucc e => exact ⟨Nat.one_pos, Nat.pow_pos hbase⟩

-- ============================================================== digits

namespace Decimal

/-- Numbers below a power of ten are those with no more digits. -/
theorem digitCount_le_iff {n k : Nat} (hk : 0 < k) :
    digitCount n ≤ k ↔ n < 10 ^ k :=
  Nat.length_repr_le_iff hk

theorem digitCount_pos (n : Nat) : 0 < digitCount n :=
  Nat.length_repr_pos

/-- A number is below the power of ten for its digits. -/
theorem lt_pow_digitCount (n : Nat) : n < 10 ^ digitCount n :=
  (digitCount_le_iff (digitCount_pos n)).mp (Nat.le_refl _)

/-- A positive number has its leading digit in the place that its digits
count up to. -/
theorem pow_le_of_pos {n : Nat} (hn : 0 < n) :
    10 ^ (digitCount n - 1) ≤ n := by
  by_cases hone : digitCount n = 1
  · rw [hone]
    exact hn
  · have hpos := digitCount_pos n
    apply Nat.le_of_not_lt
    intro hlt
    have hle := (digitCount_le_iff (by omega)).mpr hlt
    omega

/-- Zeros behind a number are digits more. -/
theorem digitCount_shift {n : Nat} (hn : 0 < n) (k : Nat) :
    digitCount (10 ^ k * n) = k + digitCount n := by
  have hpos := digitCount_pos n
  apply Nat.le_antisymm
  · apply (digitCount_le_iff (by omega)).mpr
    rw [Nat.pow_add]
    exact Nat.mul_lt_mul_of_pos_left (lt_pow_digitCount n)
      (Nat.pow_pos (by omega))
  · apply Nat.le_of_not_lt
    intro hlt
    have hle : digitCount (10 ^ k * n) ≤ k + digitCount n - 1 := by omega
    by_cases hzero : k + digitCount n - 1 = 0
    · have := digitCount_pos (10 ^ k * n)
      omega
    · have hsmall := (digitCount_le_iff (by omega)).mp hle
      have hlarge : 10 ^ (k + digitCount n - 1) ≤ 10 ^ k * n := by
        rw [show k + digitCount n - 1 = k + (digitCount n - 1) by omega,
          Nat.pow_add]
        exact Nat.mul_le_mul_left _ (pow_le_of_pos hn)
      omega

end Decimal

-- ============================================================== places

namespace Extended

open Decimal

/-- The value of a finite point. -/
def value? : Extended → Option ℚ
  | .finite q scale => some (q * 10 ^ scale)
  | _ => none

theorem natAbs_div_den (q : ℚ) : (q.num.natAbs : ℚ) / q.den = |q| := by
  rw [Nat.cast_natAbs, Int.cast_abs, ← Nat.abs_cast q.den, ← abs_div,
    Rat.num_div_den]

/-- A value other than zero lies between the powers of ten next to its
place. -/
theorem place_bounds {q : ℚ} (hq : q ≠ 0) (scale : Int) :
    (10 : ℚ) ^ (place q scale - 1) < |q| * 10 ^ scale
      ∧ |q| * 10 ^ scale < (10 : ℚ) ^ (place q scale + 1) := by
  have hnum : 0 < q.num.natAbs :=
    Int.natAbs_pos.mpr (Rat.num_ne_zero.mpr hq)
  have hden : (0 : ℚ) < q.den := by exact_mod_cast q.den_pos
  obtain ⟨a, ha⟩ : ∃ a, digitCount q.num.natAbs = a + 1 :=
    ⟨_, (Nat.succ_pred_eq_of_pos (digitCount_pos _)).symm⟩
  obtain ⟨b, hb⟩ : ∃ b, digitCount q.den = b + 1 :=
    ⟨_, (Nat.succ_pred_eq_of_pos (digitCount_pos _)).symm⟩
  have hnumLow : (10 : ℚ) ^ a ≤ q.num.natAbs := by
    have h := pow_le_of_pos hnum
    rw [ha] at h
    exact_mod_cast h
  have hnumHigh : (q.num.natAbs : ℚ) < 10 ^ (a + 1) := by
    have h := lt_pow_digitCount q.num.natAbs
    rw [ha] at h
    exact_mod_cast h
  have hdenLow : (10 : ℚ) ^ b ≤ q.den := by
    have h := pow_le_of_pos q.den_pos
    rw [hb] at h
    exact_mod_cast h
  have hdenHigh : (q.den : ℚ) < 10 ^ (b + 1) := by
    have h := lt_pow_digitCount q.den
    rw [hb] at h
    exact_mod_cast h
  -- the place is a difference of numbers of digits, which is off by one
  -- at most in either direction
  have hplace : place q scale = scale + a - b := by
    unfold place
    rw [ha, hb]
    push_cast
    omega
  have hten : (10 : ℚ) ≠ 0 := by norm_num
  have hscale : (0 : ℚ) < 10 ^ scale := by positivity
  rw [hplace, ← natAbs_div_den]
  constructor
  · have hlow : (10 : ℚ) ^ a / 10 ^ (b + 1) < q.num.natAbs / q.den := by
      rw [div_lt_div_iff₀ (by positivity) hden]
      calc (10 : ℚ) ^ a * q.den < 10 ^ a * 10 ^ (b + 1) := by gcongr
        _ ≤ q.num.natAbs * 10 ^ (b + 1) := by gcongr
    calc (10 : ℚ) ^ (scale + a - b - 1)
        = 10 ^ a / 10 ^ (b + 1) * 10 ^ scale := by
          rw [← zpow_natCast, ← zpow_natCast, ← zpow_sub₀ hten,
            ← zpow_add₀ hten]
          congr 1
          push_cast
          omega
      _ < q.num.natAbs / q.den * 10 ^ scale := by gcongr
  · have hhigh : (q.num.natAbs : ℚ) / q.den < 10 ^ (a + 1) / 10 ^ b := by
      rw [div_lt_div_iff₀ hden (by positivity)]
      calc (q.num.natAbs : ℚ) * 10 ^ b < 10 ^ (a + 1) * 10 ^ b := by gcongr
        _ ≤ 10 ^ (a + 1) * q.den := by gcongr
    calc (q.num.natAbs : ℚ) / q.den * 10 ^ scale
        < 10 ^ (a + 1) / 10 ^ b * 10 ^ scale := by gcongr
      _ = (10 : ℚ) ^ (scale + a - b + 1) := by
          rw [← zpow_natCast, ← zpow_natCast, ← zpow_sub₀ hten,
            ← zpow_add₀ hten]
          congr 1
          push_cast
          omega

-- =========================================================== magnitudes

/-- Equal magnitudes are less than two places apart. -/
theorem place_le_of_eq {p q : ℚ} {e f : Int} (hp : p ≠ 0) (hq : q ≠ 0)
    (h : |p| * 10 ^ e = |q| * 10 ^ f) : ¬ place p e + 2 ≤ place q f := by
  intro hfar
  have hpUp := (place_bounds hp e).2
  have hqLow := (place_bounds hq f).1
  have hpow : (10 : ℚ) ^ (place p e + 1) ≤ 10 ^ (place q f - 1) :=
    zpow_le_zpow_right₀ (by norm_num) (by omega)
  linarith

/-- Multiplying across compares the magnitudes. -/
theorem across_iff (p q : ℚ) (e f : Int) :
    p.num.natAbs * (powFraction 10 (e - f)).1 * q.den
        = q.num.natAbs * p.den * (powFraction 10 (e - f)).2
      ↔ |p| * 10 ^ e = |q| * 10 ^ f := by
  obtain ⟨hnum, hden⟩ := powFraction_pos (show 0 < 10 by omega) (e - f)
  have hpow := powFraction_div 10 (e - f)
  have hpd : (p.den : ℚ) ≠ 0 := by exact_mod_cast p.den_ne_zero
  have hqd : (q.den : ℚ) ≠ 0 := by exact_mod_cast q.den_ne_zero
  have hd : ((powFraction 10 (e - f)).2 : ℚ) ≠ 0 := by
    exact_mod_cast hden.ne'
  have hten : (10 : ℚ) ≠ 0 := by norm_num
  have hfpow : (10 : ℚ) ^ f ≠ 0 := zpow_ne_zero f hten
  have hsplit : (10 : ℚ) ^ e = 10 ^ (e - f) * 10 ^ f := by
    rw [← zpow_add₀ hten]
    congr 1
    omega
  rw [← natAbs_div_den, ← natAbs_div_den, hsplit, ← mul_assoc,
    mul_left_inj' hfpow, show (10 : ℚ) = ((10 : Nat) : ℚ) by norm_num,
    ← hpow, div_mul_div_comm, div_eq_div_iff (mul_ne_zero hpd hd) hqd]
  constructor
  · intro h
    have hcast : ((p.num.natAbs * (powFraction 10 (e - f)).1 * q.den : Nat)
        : ℚ) = (q.num.natAbs * p.den * (powFraction 10 (e - f)).2 : Nat) := by
      rw [h]
    push_cast at hcast
    linarith
  · intro h
    have hcast : ((p.num.natAbs * (powFraction 10 (e - f)).1 * q.den : Nat)
        : ℚ) = (q.num.natAbs * p.den * (powFraction 10 (e - f)).2 : Nat) := by
      push_cast
      linarith
    exact_mod_cast hcast

/-- Magnitudes compare equal just if they are equal with their
exponents. -/
theorem compareMagnitude_eq_iff {p q : ℚ} {e f : Int} (hp : p ≠ 0)
    (hq : q ≠ 0) :
    compareMagnitude p e q f = .eq ↔ |p| * 10 ^ e = |q| * 10 ^ f := by
  unfold compareMagnitude
  constructor
  · intro h
    split at h
    · cases h
    · split at h
      · cases h
      · exact (across_iff p q e f).mp (Nat.compare_eq_eq.mp h)
  · intro h
    rw [if_neg (place_le_of_eq hp hq h), if_neg (place_le_of_eq hq hp h.symm)]
    exact Nat.compare_eq_eq.mpr ((across_iff p q e f).mpr h)

-- ============================================================== points

theorem signOf_of_pos {q : ℚ} (h : 0 < q) : signOf q = 1 :=
  Int.sign_eq_one_of_pos (Rat.num_pos.mpr h)

theorem signOf_of_neg {q : ℚ} (h : q < 0) : signOf q = -1 :=
  Int.sign_eq_neg_one_of_neg (Rat.num_neg.mpr h)

/-- Equal values have equal signs. -/
theorem signOf_eq_of_eq {p q : ℚ} {e f : Int}
    (h : p * 10 ^ e = q * 10 ^ f) : signOf p = signOf q := by
  have he : (0 : ℚ) < 10 ^ e := by positivity
  have hf : (0 : ℚ) < 10 ^ f := by positivity
  rcases lt_trichotomy p 0 with hp | rfl | hp
  · have hq : q < 0 := by
      apply neg_of_mul_neg_left _ hf.le
      rw [← h]
      exact mul_neg_of_neg_of_pos hp he
    rw [signOf_of_neg hp, signOf_of_neg hq]
  · rw [zero_mul, eq_comm, mul_eq_zero, or_iff_left hf.ne'] at h
    rw [h]
  · have hq : 0 < q := by
      apply pos_of_mul_pos_left _ hf.le
      rw [← h]
      exact mul_pos hp he
    rw [signOf_of_pos hp, signOf_of_pos hq]

/-- Two finite points are in the same place just if their values are
equal. -/
theorem same_finite_iff {p q : ℚ} {e f : Int} :
    (Extended.finite p e).same (.finite q f) = true
      ↔ p * 10 ^ e = q * 10 ^ f := by
  show (compareFinite p e q f == .eq) = true ↔ _
  rw [beq_iff_eq]
  unfold compareFinite
  by_cases hsign : signOf p = signOf q
  · rw [if_neg (not_not.mpr hsign)]
    rcases lt_trichotomy p 0 with hp | rfl | hp
    · have hq : q < 0 := by
        rw [signOf_of_neg hp] at hsign
        exact Rat.num_neg.mp (Int.sign_eq_neg_one_iff_neg.mp hsign.symm)
      rw [signOf_of_neg hp, if_neg (by decide), if_neg (by decide),
        compareMagnitude_eq_iff hq.ne hp.ne, abs_of_neg hp, abs_of_neg hq]
      constructor
      · intro h
        linarith
      · intro h
        linarith
    · have hq : q = 0 :=
        Rat.num_eq_zero.mp (Int.sign_eq_zero_iff_zero.mp hsign.symm)
      subst hq
      simp [signOf]
    · have hq : 0 < q := by
        rw [signOf_of_pos hp] at hsign
        exact Rat.num_pos.mp (Int.sign_eq_one_iff_pos.mp hsign.symm)
      rw [signOf_of_pos hp, if_neg (by decide), if_pos (by decide),
        compareMagnitude_eq_iff hp.ne' hq.ne', abs_of_pos hp, abs_of_pos hq]
  · rw [if_pos hsign]
    constructor
    · intro h
      exact absurd (Int.compare_eq_eq.mp h) hsign
    · intro h
      exact absurd (signOf_eq_of_eq h) hsign

/-- A finite point is above zero just if its value is positive. -/
theorem zero_lt_finite {q : ℚ} {e : Int} :
    (Extended.ofRat 0).lt (.finite q e) = true ↔ 0 < q := by
  show (compareFinite 0 0 q e == .lt) = true ↔ _
  rw [beq_iff_eq]
  unfold compareFinite
  have hzero : signOf 0 = 0 := rfl
  rcases lt_trichotomy q 0 with hq | rfl | hq
  · rw [hzero, signOf_of_neg hq]
    simp [hq.le, compare, compareOfLessAndEq]
  · simp [hzero]
  · rw [hzero, signOf_of_pos hq]
    simp [hq, compare, compareOfLessAndEq]

end Extended

end SatSession
