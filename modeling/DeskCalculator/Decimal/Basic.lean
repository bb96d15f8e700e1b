/-
# Decimal numbers

`⟨c, e⟩` is the number `c * 10 ^ e`. A decimal is rounded to the nearest double by one exact
quotient, and `trim` gives every number but zero the one form whose coefficient does not end in a
zero.
-/

import DeskCalculator.Binary64.Arithmetic

namespace DeskCalculator

/-- The number `coefficient * 10 ^ exponent`. -/
structure Decimal where
  coefficient : Nat
  exponent : Int
  deriving DecidableEq

namespace Decimal

/-- Whether a number is at least `10 ^ 400` for the size of its exponent alone. -/
def isHuge (d : Decimal) : Bool := d.coefficient ≠ 0 && 400 < d.exponent

/-- Whether a number is zero, or below `2 ^ -1080` for the size of its exponent alone: a negative
power of ten is below that power of eight. -/
def isTiny (d : Decimal) : Bool :=
  d.coefficient = 0 || (d.coefficient.log2 : Int) + 1 + 3 * d.exponent < -1080

/-- The double nearest to a decimal number, ties to even. The two tests spare powers of ten that
the answer does not need. -/
def nearest (negative : Bool) (d : Decimal) : Binary64 :=
  if d.isHuge then .infinite negative
  else if d.isTiny then .zero negative
  else
    .ofRatio negative (d.coefficient * Nat.pow 10 d.exponent.toNat * Binary64.unit)
      (Nat.pow 10 (-d.exponent).toNat)

/-- **The two tests only save work:** they answer what the quotient would. -/
theorem nearest_eq_ofRatio (negative : Bool) (d : Decimal) :
    d.nearest negative =
      .ofRatio negative (d.coefficient * Nat.pow 10 d.exponent.toNat * Binary64.unit)
        (Nat.pow 10 (-d.exponent).toNat) := by
  obtain ⟨c, e⟩ := d
  unfold nearest
  split
  · rename_i h
    simp only [isHuge, ne_eq, decide_not, Bool.and_eq_true, Bool.not_eq_true',
      decide_eq_false_iff_not, decide_eq_true_eq] at h
    symm
    apply Binary64.ofRatio_eq_infinite
    have he : (-e).toNat = 0 := by omega
    simp only [he, Nat.pow_eq, Nat.pow_zero, Nat.div_one]
    have h8 : 2 ^ (3 * e.toNat) ≤ 10 ^ e.toNat := by
      rw [Nat.pow_mul]
      exact Nat.pow_le_pow_left (by decide) _
    have h10 : 2 ^ (3 * e.toNat) ≤ c * 10 ^ e.toNat :=
      Nat.le_trans h8 (Nat.le_mul_of_pos_left _ (Nat.pos_of_ne_zero h.1))
    exact Nat.le_trans (Binary64.limit_le_two_pow_mul_unit (by omega))
      (Nat.mul_le_mul_right _ h10)
  · split
    · rename_i h
      simp only [isTiny, Bool.or_eq_true, decide_eq_true_eq] at h
      symm
      apply Binary64.ofRatio_eq_zero
      rcases h with rfl | h
      · simp only [Nat.zero_mul, Nat.mul_zero, Nat.pow_eq]
        exact Nat.pow_pos (by decide)
      have he : e.toNat = 0 := by omega
      simp only [he, Nat.pow_eq, Nat.pow_zero, Nat.mul_one]
      have hc : c < 2 ^ (c.log2 + 1) := Nat.lt_log2_self
      calc 2 * (c * Binary64.unit) < 2 * (2 ^ (c.log2 + 1) * Binary64.unit) := by
            have := Nat.mul_lt_mul_of_pos_right hc Binary64.unit_pos
            omega
        _ = 2 ^ (c.log2 + 1 + 1074 + 1) := by
            rw [← Nat.pow_eq, Binary64.two_pow_mul_unit, Nat.mul_comm]
            exact (Nat.pow_succ 2 _).symm
        _ ≤ 2 ^ (3 * (-e).toNat) := Nat.pow_le_pow_right (by decide) (by omega)
        _ = 8 ^ (-e).toNat := by rw [Nat.pow_mul]
        _ ≤ 10 ^ (-e).toNat := Nat.pow_le_pow_left (by decide) _
    · rfl

/-- The same number with no zero at the coefficient's end; zero is left alone. -/
def trim (d : Decimal) : Decimal :=
  if d.coefficient ≠ 0 ∧ d.coefficient % 10 = 0 then
    trim ⟨d.coefficient / 10, d.exponent + 1⟩
  else d
  termination_by d.coefficient
  decreasing_by omega

/-- Behind trimming, the last digit is not a zero unless there is nothing else. -/
theorem trim_mod_ten (d : Decimal) :
    d.trim.coefficient = 0 ∨ d.trim.coefficient % 10 ≠ 0 := by
  fun_induction trim d with
  | case1 _ _ ih => exact ih
  | case2 d h => omega

/-- Moving a zero from the coefficient to the exponent changes nothing. -/
theorem nearest_shift (negative : Bool) (c : Nat) (e : Int) :
    (Decimal.mk c (e + 1)).nearest negative = (Decimal.mk (c * 10) e).nearest negative := by
  rw [nearest_eq_ofRatio, nearest_eq_ofRatio]
  simp only [Nat.pow_eq]
  rcases Int.lt_or_le e 0 with he | he
  · have h1 : (e + 1).toNat = 0 := by omega
    have h2 : e.toNat = 0 := by omega
    have h3 : (-e).toNat = (-(e + 1)).toNat + 1 := by omega
    rw [h1, h2, h3, Nat.pow_zero, Nat.mul_one, Nat.mul_one, Nat.pow_succ, Nat.mul_right_comm]
    exact (Binary64.ofRatio_mul_mul negative _ _ (by decide)).symm
  · have h1 : (e + 1).toNat = e.toNat + 1 := by omega
    have h2 : (-(e + 1)).toNat = 0 := by omega
    have h3 : (-e).toNat = 0 := by omega
    rw [h1, h2, h3, Nat.pow_succ, Nat.mul_comm (10 ^ _) 10, Nat.mul_assoc c 10]

/-- Trimming does not change which double is nearest. -/
@[simp] theorem nearest_trim (negative : Bool) (d : Decimal) :
    d.trim.nearest negative = d.nearest negative := by
  fun_induction trim d with
  | case1 d h ih =>
    rw [ih, nearest_shift, Nat.div_mul_cancel (Nat.dvd_of_mod_eq_zero h.2)]
  | case2 => rfl

/-- The decimal digits of the coefficient. -/
def digits (d : Decimal) : List Char := Nat.toDigits 10 d.coefficient

end Decimal
end DeskCalculator
