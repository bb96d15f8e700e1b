/-
# The remainder is exact

A remainder is taken of the magnitudes, in quanta.  The whole quotient is in no way limited (it can
have two thousand binary digits), but nothing of it is kept, and what a division of magnitudes
leaves is a magnitude itself (`representable_mod`): it is below the divisor, and where the dividend
is not, both are multiples of the spacing of the divisor's binade.

So the rounding that follows changes nothing, and the remainder is the number `a - b * q` of the
exact numbers `a` and `b` (`toRat?`), where `q` is `a / b` without its fraction (`toRat?_rem`).  It
has the sign of the dividend, zero included, and a remainder taken again is itself.  The guard only
gives back the NaN that was refused (`Guarded.rem_eq`).
-/

import DeskCalculator.Binary64.Guarded
import DeskCalculator.Proofs.Binary64.Nearest
import Mathlib.Data.Rat.Floor

namespace DeskCalculator

/-- The whole part of a number, toward zero. -/
def truncated (q : ℚ) : ℤ := if q < 0 then ⌈q⌉ else ⌊q⌋

/-- Cutting off the fraction is the same on both sides of zero. -/
theorem truncated_neg (q : ℚ) : truncated (-q) = -truncated q := by
  rw [truncated, truncated]
  rcases lt_trichotomy q 0 with negative | rfl | positive
  · rw [if_pos negative, if_neg (not_lt.2 (neg_nonneg.2 negative.le)), Int.floor_neg]
  · simp
  · rw [if_pos (neg_lt_zero.2 positive), if_neg (not_lt.2 positive.le), Int.ceil_neg]

/-- **Truncating a quotient of whole numbers is dividing toward zero.** -/
theorem truncated_div (i j : ℤ) : truncated (i / j) = i.tdiv j := by
  have natural (m n : ℕ) : truncated ((m : ℤ) / (n : ℤ)) = (m : ℤ).tdiv n := by
    have nonneg : (0 : ℚ) ≤ (m : ℤ) / (n : ℤ) := by positivity
    rw [truncated, if_neg (not_lt.2 nonneg), Int.cast_natCast n, Rat.floor_intCast_div_natCast]
    rfl
  obtain ⟨m, rfl | rfl⟩ := i.eq_nat_or_neg <;> obtain ⟨n, rfl | rfl⟩ := j.eq_nat_or_neg <;>
    simp only [Int.cast_neg, neg_div, div_neg, truncated_neg, natural, Int.neg_tdiv, Int.tdiv_neg]

namespace Binary64

/-! ## The exact number -/

/-- The exact number that a finite double is. -/
def toRat? : Binary64 → Option ℚ
  | .finite s m => some ((signedQuanta s m : ℚ) / (unit : ℚ))
  | _ => none

variable {s t : Bool} {m n : Magnitude} {x y : Binary64} {a b : ℚ}

/-- A double with a rational value is finite, and the value is its quanta by those of one. -/
theorem exists_finite_of_toRat? (h : x.toRat? = some a) :
    ∃ s m, x = finite s m ∧ a = (signedQuanta s m : ℚ) / (unit : ℚ) := by
  cases x with
  | nan => cases h
  | infinite s => cases h
  | finite s m =>
    cases h
    exact ⟨s, m, rfl, rfl⟩

/-- Dividing by the quanta of one is allowed. -/
theorem unit_ne_zero : (unit : ℚ) ≠ 0 := Nat.cast_ne_zero.2 (Nat.ne_of_gt unit_pos)

/-- The sign does not change how many quanta there are. -/
theorem natAbs_signedQuanta (s : Bool) (m : Magnitude) :
    (signedQuanta s m).natAbs = m.quanta := by
  cases s with
  | false => exact Int.natAbs_natCast m.quanta
  | true => exact Int.natAbs_neg _

/-- The distance of a double from zero is that of its magnitude. -/
theorem abs_signedQuanta_div_unit (s : Bool) (m : Magnitude) :
    |(signedQuanta s m : ℚ) / (unit : ℚ)| = (m.quanta : ℚ) / (unit : ℚ) := by
  rw [abs_div, Nat.abs_cast, ← Int.cast_abs, Int.abs_eq_natAbs, natAbs_signedQuanta,
    Int.cast_natCast]

/-- **A sign and an exact number determine a double.** -/
theorem eq_of_toRat? (hx : x.toRat? = some a) (hy : y.toRat? = some a)
    (sign : x.isNegative = y.isNegative) : x = y := by
  obtain ⟨s, m, rfl, rfl⟩ := exists_finite_of_toRat? hx
  obtain ⟨t, n, rfl, same⟩ := exists_finite_of_toRat? hy
  obtain rfl : s = t := sign
  have quanta : m.quanta = n.quanta := by
    rw [div_left_inj' unit_ne_zero, Int.cast_inj] at same
    rw [← natAbs_signedQuanta s m, same, natAbs_signedQuanta]
  cases m
  cases n
  cases quanta
  rfl

/-! ## Exactness -/

/-- **What a division of magnitudes leaves is a magnitude.** -/
theorem representable_mod {m n : Nat} (hm : Representable m) (hn : Representable n) (h : n ≠ 0) :
    Representable (m % n) := by
  have below : m % n < n := Nat.mod_lt m (Nat.pos_of_ne_zero h)
  refine ⟨Nat.lt_trans below hn.1, ?_⟩
  rcases Nat.lt_or_ge m n with small | large
  · rw [Nat.mod_eq_of_lt small]
    exact hm.2
  · have upper := lt_two_pow_spacing n
    have binade : spacing n = 0 ∨ Nat.pow 2 (52 + spacing n) ≤ n := by
      by_cases finest : spacing n = 0
      · exact .inl finest
      · exact .inr (two_pow_spacing_le finest)
    -- The dividend is in the divisor's binade or above, so it is on the divisor's grid as well.
    obtain ⟨j, hj⟩ := OnGrid.exists_eq_mul hn.2 binade
    obtain ⟨i, hi⟩ := OnGrid.exists_eq_mul hm.2 (binade.imp_right (Nat.le_trans · large))
    generalize spacing n = k at *
    have grid : m % n = i % j * Nat.pow 2 k := by rw [hi, hj, Nat.mul_mod_mul_right]
    have significand : i % j ≤ Nat.pow 2 53 := by
      refine Nat.le_of_lt (Nat.lt_of_mul_lt_mul_right (a := Nat.pow 2 k) ?_)
      calc i % j * Nat.pow 2 k = m % n := grid.symm
        _ < n := below
        _ < Nat.pow 2 (53 + k) := upper
        _ = Nat.pow 2 53 * Nat.pow 2 k := Nat.pow_add 2 53 k
    rw [grid]
    exact mul_two_pow_mod_spacing significand

/-- The remainder of two finite numbers is not rounded. -/
theorem exists_finite_rem (s t : Bool) (m : Magnitude) {n : Magnitude} (h : n.quanta ≠ 0) :
    ∃ r : Magnitude, r.quanta = m.quanta % n.quanta ∧
      (finite s m).rem (finite t n) = finite s r := by
  have exact := representable_mod m.representable n.representable h
  refine ⟨⟨m.quanta % n.quanta, exact⟩, rfl, ?_⟩
  rw [rem, if_neg h]
  exact ofQuanta_quanta s ⟨m.quanta % n.quanta, exact⟩

/-- With the signs, what is left of the magnitudes is left of the numbers, dividing toward zero. -/
theorem signedQuanta_mod {r : Magnitude} (hr : r.quanta = m.quanta % n.quanta) :
    signedQuanta s r = (signedQuanta s m).tmod (signedQuanta t n) := by
  have natural : (r.quanta : ℤ) = (m.quanta : ℤ).tmod n.quanta := by
    rw [hr]
    rfl
  cases s <;> cases t <;> simp [signedQuanta, natural, Int.neg_tmod, Int.tmod_neg]

/-- **The remainder is exact,** whatever the magnitudes. -/
theorem toRat?_rem (hx : x.toRat? = some a) (hy : y.toRat? = some b) (h : b ≠ 0) :
    (x.rem y).toRat? = some (a - b * truncated (a / b)) ∧
      (x.rem y).isNegative = x.isNegative ∧ |a - b * truncated (a / b)| < |b| := by
  obtain ⟨s, m, rfl, rfl⟩ := exists_finite_of_toRat? hx
  obtain ⟨t, n, rfl, rfl⟩ := exists_finite_of_toRat? hy
  have nonzero : n.quanta ≠ 0 := by
    intro zero
    refine h ?_
    rw [Int.natAbs_eq_zero.1 ((natAbs_signedQuanta t n).trans zero), Int.cast_zero, zero_div]
  obtain ⟨r, hr, eq⟩ := exists_finite_rem s t m nonzero
  have value : (signedQuanta s m : ℚ) / (unit : ℚ) - (signedQuanta t n : ℚ) / (unit : ℚ) *
      truncated ((signedQuanta s m : ℚ) / (unit : ℚ) / ((signedQuanta t n : ℚ) / (unit : ℚ))) =
        (signedQuanta s r : ℚ) / (unit : ℚ) := by
    rw [div_div_div_cancel_right₀ unit_ne_zero, truncated_div, signedQuanta_mod hr (t := t),
      Int.tmod_def, Int.cast_sub, Int.cast_mul]
    ring
  rw [value, eq]
  refine ⟨rfl, rfl, ?_⟩
  rw [abs_signedQuanta_div_unit, abs_signedQuanta_div_unit,
    div_lt_div_iff_of_pos_right (Nat.cast_pos.2 unit_pos), Nat.cast_lt, hr]
  exact Nat.mod_lt _ (Nat.pos_of_ne_zero nonzero)

/-! ## Special values and signs -/

/-- NaN leaves NaN, whatever it is divided by. -/
@[simp] theorem nan_rem (y : Binary64) : nan.rem y = nan := by cases y <;> rfl

/-- Division by NaN leaves NaN. -/
@[simp] theorem rem_nan (x : Binary64) : x.rem nan = nan := by cases x <;> rfl

/-- An infinity leaves NaN, whatever it is divided by. -/
@[simp] theorem infinite_rem (s : Bool) (y : Binary64) : (infinite s).rem y = nan := by
  cases y <;> rfl

/-- Division by an infinity leaves a finite number as it is. -/
@[simp] theorem finite_rem_infinite (s t : Bool) (m : Magnitude) :
    (finite s m).rem (infinite t) = finite s m := rfl

/-- The remainder of two finite numbers is that of their quanta, with the sign of the dividend, and
NaN for a divisor that is zero. -/
theorem finite_rem_finite (s t : Bool) (m n : Magnitude) :
    (finite s m).rem (finite t n) =
      if n.quanta = 0 then nan else ofQuanta s (m.quanta % n.quanta) := by
  rw [rem]

/-- The operands that have no remainder. -/
theorem rem_eq_nan_iff (x y : Binary64) :
    x.rem y = nan ↔ x = nan ∨ y = nan ∨ x.isInfinite = true ∨ y.isZero = true := by
  cases x with
  | nan => simp
  | infinite s => simp [isInfinite]
  | finite s m =>
    cases y with
    | nan => simp
    | infinite t => simp [isInfinite, isZero]
    | finite t n =>
      by_cases zero : n.quanta = 0
      · simp [finite_rem_finite, zero, isZero]
      · obtain ⟨r, -, eq⟩ := exists_finite_rem s t m zero
        simp [eq, isInfinite, isZero, zero]

/-- The sign of the dividend is the sign of the remainder. -/
theorem neg_rem (x y : Binary64) : (-x).rem y = -x.rem y := by
  cases x with
  | nan => simp
  | infinite s => simp
  | finite s m =>
    cases y with
    | nan => simp
    | infinite t => rfl
    | finite t n =>
      rw [neg_finite, finite_rem_finite, finite_rem_finite]
      split
      · rfl
      · exact (neg_ofRatio s _ 1).symm

/-- The sign of the divisor plays no part. -/
theorem rem_neg (x y : Binary64) : x.rem (-y) = x.rem y := by
  cases x <;> cases y <;> rfl

/-- **A remainder taken again is itself.** -/
theorem rem_rem (x y : Binary64) : (x.rem y).rem y = x.rem y := by
  cases x with
  | nan => simp
  | infinite s => simp
  | finite s m =>
    cases y with
    | nan => simp
    | infinite t => rfl
    | finite t n =>
      by_cases zero : n.quanta = 0
      · rw [finite_rem_finite, if_pos zero, nan_rem]
      · obtain ⟨r, hr, eq⟩ := exists_finite_rem s t m zero
        have small : r.quanta % n.quanta = r.quanta := by rw [hr, Nat.mod_mod]
        rw [eq, finite_rem_finite, if_neg zero, small, ofQuanta_quanta]

end Binary64

namespace Guarded

open Binary64

/-- **The guarded remainder is the remainder:** all that is refused is a NaN. -/
theorem rem_eq (x y : Binary64) : rem x y = .ok (x.rem y) := by
  rw [rem, Trapping.rem]
  cases refused : (x.rem y).isNaN && !x.isNaN && !y.isNaN with
  | false => rfl
  | true =>
    rw [Bool.and_assoc, Bool.and_eq_true] at refused
    cases eq : x.rem y with
    | nan => rfl
    | infinite s =>
      rw [eq] at refused
      cases refused.1
    | finite s m =>
      rw [eq] at refused
      cases refused.1

/-- **The guarded remainder has a result for all operands, and it is exact.**  It is NaN exactly if
an operand is, the dividend is infinite, or the divisor is zero.  An infinite divisor leaves a
finite dividend as it is.  Otherwise the remainder is the one double that is `a - b * q`, where `q`
is `a / b` truncated toward zero, and has the sign of the dividend; it is smaller than the divisor.
A remainder taken again is itself, the sign of the divisor plays no part, and a sign in front of the
dividend is one in front of the remainder. -/
theorem exact_remainder (x y : Binary64) : ∃ z, rem x y = .ok z ∧
    (z = .nan ↔ x = .nan ∨ y = .nan ∨ x.isInfinite = true ∨ y.isZero = true) ∧
    (x.isFinite = true → y.isInfinite = true → z = x) ∧
    (∀ a b, x.toRat? = some a → y.toRat? = some b → b ≠ 0 →
      (∀ w, w = z ↔ w.toRat? = some (a - b * truncated (a / b)) ∧ w.isNegative = x.isNegative) ∧
        |a - b * truncated (a / b)| < |b|) ∧
    rem z y = .ok z ∧ rem x (-y) = .ok z ∧ rem (-x) y = .ok (-z) := by
  refine ⟨x.rem y, rem_eq x y, rem_eq_nan_iff x y, fun hx hy => ?_, fun a b hx hy nonzero => ?_,
    ?_, ?_, ?_⟩
  · obtain ⟨s, m, rfl⟩ := exists_eq_finite hx
    cases y with
    | nan => cases hy
    | infinite t => rfl
    | finite t n => cases hy
  · obtain ⟨value, sign, below⟩ := toRat?_rem hx hy nonzero
    refine ⟨fun w => ⟨fun h => h ▸ ⟨value, sign⟩, fun h => ?_⟩, below⟩
    exact eq_of_toRat? h.1 value (h.2.trans sign.symm)
  · rw [rem_eq, rem_rem]
  · rw [rem_eq, rem_neg]
  · rw [rem_eq, neg_rem]

/-- Minus two to the power 1023 leaves two quanta, with its sign, when it is divided by three of
them; minus six divided by three leaves minus zero; and divided by an infinity it stays as it is. -/
theorem exact_remainder_of_far_apart :
    let x : Binary64 := -.ofBits 0x7FE0000000000000
    rem x (.ofBits 3) = .ok (-.ofBits 2) ∧ rem (-Binary64.ofNat 6) (.ofNat 3) = .ok (.zero true) ∧
      rem x (.infinite false) = .ok x := by
  intro x
  have value {x y : Binary64} {a b : ℚ} (w : Binary64) (hx : x.toRat? = some a)
      (hy : y.toRat? = some b) (nonzero : b ≠ 0)
      (h : w.toRat? = some (a - b * truncated (a / b)) ∧ w.isNegative = x.isNegative) :
      rem x y = .ok w := by
    obtain ⟨z, remainder, -, -, exact, -⟩ := exact_remainder x y
    rw [remainder, ((exact a b hx hy nonzero).1 w).2 h]
  refine ⟨?_, ?_, ?_⟩
  · exact value (a := -2 ^ 1023) (b := 3 / unit) _ (by decide +kernel) (by decide +kernel)
      (by decide +kernel) (by decide +kernel)
  · exact value (a := -6) (b := 3) _ (by decide +kernel) (by decide +kernel) (by decide)
      (by decide +kernel)
  · obtain ⟨z, remainder, -, same, -⟩ := exact_remainder x (.infinite false)
    rw [remainder, same (by decide +kernel) rfl]

end Guarded
end DeskCalculator
