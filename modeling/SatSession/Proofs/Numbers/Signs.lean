/-
Values that say one or minus one.

A value may say so in any kind of number. If it equals one or minus one
and has a place in the order at all, it is above zero just in the first
case (`Value.zero_lt_of_eqInt`), and times a count it equals the count or
its opposite (`Value.mul_eqInt`). A double or a decimal may be rounded in
that, but not for counts up to `2 ^ 53`; the other kinds are never rounded.
-/
import SatSession.Proofs.Numbers.Exact
import SatSession.Value.Compare

namespace SatSession

namespace Number

/-- The value of a number that has one: a real number that is finite. -/
def value? (a : Number) : Option ℚ := a.extended?.bind Extended.value?

/-- Whether products of a number may be rounded. -/
def isRounded : Number → Bool
  | .float _ | .decimal _ => true
  | _ => false

-- ============================================================== values

@[simp] theorem value?_int (n : Int) : value? (.int n) = some (n : ℚ) := by
  simp [value?, extended?, Extended.ofRat, Extended.value?]

@[simp] theorem value?_bool (b : Bool) :
    value? (.bool b) = some (if b then 1 else 0) := by
  simp [value?, extended?, Extended.ofRat, Extended.value?]

@[simp] theorem value?_fraction (q : ℚ) : value? (.fraction q) = some q := by
  simp [value?, extended?, Extended.ofRat, Extended.value?]

@[simp] theorem value?_float (x : Binary64) :
    value? (.float x) = x.toRat? := by
  cases x with
  | finite negative m e =>
      simp [value?, extended?, Binary64.extended, Binary64.toRat?_finite,
        Extended.ofRat, Extended.value?]
  | infinite negative => cases negative <;> rfl
  | nan => rfl

@[simp] theorem value?_decimal (negative : Bool) (m : Nat) (e : Int) :
    value? (.decimal (.finite negative m e))
      = some (((Decimal.signed negative m : Int) : ℚ) * 10 ^ e) := rfl

/-- A point is where a whole number lies just if its value is this
number. -/
theorem same_ofRat_iff {x : Extended} {q : ℚ} :
    x.same (.ofRat q) = true ↔ x.value? = some q := by
  cases x with
  | finite p e =>
      rw [Extended.ofRat, Extended.same_finite_iff]
      simp [Extended.value?]
  | least => simp [Extended.same, Extended.ofRat, Extended.value?]
  | greatest => simp [Extended.same, Extended.ofRat, Extended.value?]
  | nowhere => simp [Extended.same, Extended.value?]

/-- A real number equals a whole number just if this is its value. -/
theorem eq_int_iff {a : Number} (ha : a.isComplex = false) (n : Int) :
    a.eq (.int n) = .ok true
      ↔ a.isSignaling = false ∧ a.value? = some (n : ℚ) := by
  have hsame : a.same (.int n) = true ↔ a.value? = some (n : ℚ) := by
    cases a with
    | int m => simp [same]
    | complex re im => cases ha
    | bool b => exact same_ofRat_iff (x := .ofRat (if b then 1 else 0))
    | float x => exact same_ofRat_iff
    | fraction q => exact same_ofRat_iff (x := .ofRat q)
    | decimal d => exact same_ofRat_iff
  have hint : (Number.int n).isSignaling = false := rfl
  unfold eq
  cases hsignal : a.isSignaling with
  | true => simp
  | false => simp [hint, hsame]

/-- Where a number with a value lies in the order. -/
theorem zero_lt_value {a : Number} {s : ℚ} {b : Bool}
    (ha : a.value? = some s) (hlt : lt (.int 0) a = .ok b) :
    b = decide (0 < s) := by
  have hpoint : ∀ x : Extended, x.value? = some s →
      (Extended.ofRat 0).lt x = decide (0 < s) := by
    intro x hx
    cases x with
    | finite q e =>
        have hvalue : q * 10 ^ e = s := Option.some.inj hx
        rw [← hvalue, Bool.eq_iff_iff, Extended.zero_lt_finite,
          decide_eq_true_iff, mul_pos_iff_of_pos_right (by positivity)]
    | least => cases hx
    | greatest => cases hx
    | nowhere => cases hx
  cases a with
  | int m =>
      rw [value?_int, Option.some.injEq] at ha
      rw [lt_int, Except.ok.injEq] at hlt
      rw [← hlt, ← ha]
      simp
  | bool c =>
      rw [value?_bool, Option.some.injEq] at ha
      have hdecide : decide ((0 : Int) < if c then 1 else 0) = b :=
        Except.ok.inj hlt
      rw [← hdecide, ← ha]
      cases c <;> simp
  | complex re im => cases ha
  | float x =>
      unfold lt at hlt
      simp only [whole?, extended?] at hlt
      split at hlt
      · cases hlt
      · rw [← Except.ok.inj hlt]
        exact hpoint _ ha
  | fraction q =>
      unfold lt at hlt
      simp only [whole?, extended?] at hlt
      split at hlt
      · cases hlt
      · rw [← Except.ok.inj hlt]
        exact hpoint _ ha
  | decimal d =>
      unfold lt at hlt
      simp only [whole?, extended?] at hlt
      split at hlt
      · cases hlt
      · rw [← Except.ok.inj hlt]
        exact hpoint _ ha

-- ============================================================= products

/-- A double of one or minus one times an index is exact. -/
theorem mul_value_float {x : Binary64} {s : Int} (hs : s = 1 ∨ s = -1)
    (hx : x.toRat? = some (s : ℚ)) {i : Nat} (hi : i ≤ 2 ^ 53) :
    ∃ y, mul (.float x) (.int i) = .ok (.float y)
      ∧ y.toRat? = some ((s * i : Int) : ℚ) := by
  obtain ⟨m, e, hfinite, -⟩ := Binary64.ofRat_exact hi
  have hs' : (s : ℚ) = 1 ∨ (s : ℚ) = -1 := by
    rcases hs with rfl | rfl
    · left; norm_num
    · right; norm_num
  have hrat : toRat (.int i) = .ok (i : ℚ) := by
    simp [toRat, whole?]
  have hfloat : toFloat (.int i) = .ok (Binary64.ofRat (i : ℚ)) := by
    simp only [toFloat, hrat, bind, Except.bind, hfinite]
    rfl
  refine ⟨x.mul (Binary64.ofRat (i : ℚ)), ?_, ?_⟩
  · show (toFloat (.int i) >>= fun y => Except.ok (Number.float (x.mul y)))
      = _
    rw [hfloat]
    rfl
  · rw [Binary64.mul_exact hs' hx hi rfl]
    push_cast
    rfl

/-- So is a decimal, with one exponent or another. -/
theorem mul_value_decimal {d : Decimal} {s : Int} (hs : s = 1 ∨ s = -1)
    (hd : value? (.decimal d) = some (s : ℚ)) {i : Nat} (hpos : 0 < i)
    (hi : i ≤ 2 ^ 53) :
    ∃ negative m e, mul (.decimal d) (.int i)
        = .ok (.decimal (.finite negative m e))
      ∧ value? (.decimal (.finite negative m e))
        = some ((s * i : Int) : ℚ) := by
  cases d with
  | infinite negative => cases negative <;> cases hd
  | nan negative signaling payload => cases hd
  | finite negative m e =>
      rw [value?_decimal, Option.some.injEq] at hd
      have hm : (0 : ℚ) ≤ m * 10 ^ e := by positivity
      have hmagnitude : (m : ℚ) * 10 ^ e = 1
          ∧ negative = decide (s < 0) := by
        rcases hs with rfl | rfl <;> cases negative <;>
          simp only [Decimal.signed, Bool.false_eq_true, if_true, if_false]
            at hd <;> push_cast at hd <;> constructor <;>
          first | rfl | linarith
      obtain ⟨hone, rfl⟩ := hmagnitude
      obtain ⟨m', e', hmul, hvalue⟩ :=
        Decimal.mul_exact (decide (s < 0)) hone hpos hi
      refine ⟨decide (s < 0), m', e', ?_, ?_⟩
      · show ((Decimal.finite (decide (s < 0)) m e).mul (.ofInt i) >>=
          fun d => Except.ok (Number.decimal d)) = _
        rw [hmul]
        rfl
      · rw [value?_decimal]
        rcases hs with rfl | rfl
        · simp [Decimal.signed, hvalue]
        · simp [Decimal.signed, hvalue]

/-- A number of magnitude one, times a count: the count with a sign. -/
theorem mul_value {a : Number} {s : Int} (hs : s = 1 ∨ s = -1)
    (ha : a.value? = some (s : ℚ)) {i : Nat} (hpos : 0 < i)
    (hi : a.isRounded = true → i ≤ 2 ^ 53) :
    ∃ b, a.mul (.int i) = .ok b ∧ b.isComplex = false
      ∧ b.isSignaling = false ∧ b.value? = some ((s * i : Int) : ℚ) := by
  cases a with
  | int m =>
      have hm : m = s := by simpa using ha
      subst hm
      exact ⟨.int (m * i), rfl, rfl, rfl, value?_int _⟩
  | bool c =>
      have hc : s = if c then 1 else 0 := by
        rw [value?_bool, Option.some.injEq] at ha
        cases c <;> simp at ha ⊢ <;> exact_mod_cast ha.symm
      subst hc
      exact ⟨.int ((if c then 1 else 0) * i), rfl, rfl, rfl, value?_int _⟩
  | fraction q =>
      have hq : q = s := by simpa using ha
      subst hq
      refine ⟨.fraction ((s : ℚ) * ((i : Int) : ℚ)), rfl, rfl, rfl, ?_⟩
      simp
  | complex re im => cases ha
  | float x =>
      rw [value?_float] at ha
      obtain ⟨y, hmul, hvalue⟩ := mul_value_float hs ha (hi rfl)
      exact ⟨.float y, hmul, rfl, rfl, by rw [value?_float, hvalue]⟩
  | decimal d =>
      obtain ⟨negative, m, e, hmul, hvalue⟩ :=
        mul_value_decimal hs ha hpos (hi rfl)
      exact ⟨_, hmul, rfl, rfl, hvalue⟩

end Number

namespace Value

/-- Whether products of a value may be rounded. -/
def isRounded : Value → Bool
  | .number a => a.isRounded
  | _ => false

variable {v : Value} {s : Int} {b : Bool}

/-- A value that equals a number and has a place in the order is a real
number of this value. -/
theorem value_of_eqInt (hv : v.eqInt s = .ok true)
    (hlt : (Value.int 0).lt v = .ok b) :
    ∃ a : Number, v = .number a ∧ a.value? = some (s : ℚ) := by
  cases v with
  | number a =>
      have hcomplex : a.isComplex = false := by
        cases a <;> first | rfl | cases hlt
      exact ⟨a, rfl, ((Number.eq_int_iff hcomplex s).mp hv).2⟩
  | _ => cases hlt

/-- What says one is above zero, and what says minus one is not. -/
theorem zero_lt_of_eqInt (hv : v.eqInt s = .ok true)
    (hlt : (Value.int 0).lt v = .ok b) : b = decide (0 < s) := by
  obtain ⟨a, rfl, ha⟩ := value_of_eqInt hv hlt
  rw [Number.zero_lt_value ha hlt]
  simp

/-- What says one or minus one, times a count, equals the count or its
opposite. -/
theorem mul_eqInt (hs : s = 1 ∨ s = -1) (hv : v.eqInt s = .ok true)
    (hlt : (Value.int 0).lt v = .ok b) {i : Nat} (hpos : 0 < i)
    (hi : v.isRounded = true → i ≤ 2 ^ 53) :
    ∃ w, v.mul (.int i) = .ok w ∧ w.eqInt (s * i) = .ok true := by
  obtain ⟨a, rfl, ha⟩ := value_of_eqInt hv hlt
  obtain ⟨c, hmul, hcomplex, hsignal, hvalue⟩ :=
    Number.mul_value hs ha hpos hi
  refine ⟨.number c, ?_, ?_⟩
  · show (a.mul (.int i)).map Value.number = _
    rw [hmul]
    rfl
  · exact (Number.eq_int_iff hcomplex _).mpr ⟨hsignal, hvalue⟩

end Value

end SatSession
