/-
# Rounding to the nearest double

`ofRatio negative num den` is the double nearest to `num / den` quanta, a tie going to the even
significand, and an infinity where the rounded magnitude reaches `2 ^ 1024`. Every operation of
binary64 arithmetic is an exact quotient followed by this one rounding.

* `roundDiv num den` is the nearest whole number, ties to even;
* `roundedQuanta num den` is the nearest multiple of the spacing of the quotient's binade;
* `roundedQuanta_mul`: a quotient that is already representable is left alone;
* `ofRatio_mul_mul`: the double depends on the quotient only, not on how it is written.
-/

import DeskCalculator.Binary64.Basic

namespace DeskCalculator
namespace Binary64

/-- The whole number nearest to `num / den`; of two equally near, the even one. -/
def roundDiv (num den : Nat) : Nat :=
  let q := num / den
  let r := num % den
  if 2 * r < den ∨ 2 * r = den ∧ q % 2 = 0 then q else q + 1

/-- The quotient rounded to the grid of its binade, whatever its size. -/
def roundedQuanta (num den : Nat) : Nat :=
  let k := spacing (num / den)
  roundDiv num (den * Nat.pow 2 k) * Nat.pow 2 k

/-- A quotient without a remainder is not rounded. -/
theorem roundDiv_mul (q : Nat) {den : Nat} (h : 0 < den) : roundDiv (q * den) den = q := by
  unfold roundDiv
  simp [Nat.mul_div_cancel _ h, Nat.mul_mod_left, h]

/-- A quotient is not rounded below its whole part. -/
theorem le_roundDiv (num den : Nat) : num / den ≤ roundDiv num den := by
  unfold roundDiv; simp only []; split <;> omega

/-- A quotient is rounded up by one at most. -/
theorem roundDiv_le (num den : Nat) : roundDiv num den ≤ num / den + 1 := by
  unfold roundDiv; simp only []; split <;> omega

/-- A number has 53 binary digits at most above its spacing. -/
theorem lt_two_pow_spacing (n : Nat) : n < Nat.pow 2 (53 + spacing n) := by
  have h := Nat.lt_log2_self (n := n)
  refine Nat.lt_of_lt_of_le h (Nat.pow_le_pow_right (by decide) ?_)
  unfold spacing; omega

/-- Where the spacing is wider than a quantum, the number has all 53 binary digits. -/
theorem two_pow_spacing_le {n : Nat} (h : spacing n ≠ 0) : Nat.pow 2 (52 + spacing n) ≤ n := by
  have h0 : n ≠ 0 := by rintro rfl; exact h (by decide)
  refine (Nat.le_log2 h0).1 ?_
  unfold spacing at *; omega

/-- A multiple of `2 ^ k` with a significand of at most `2 ^ 53` is on the grid of its binade. -/
theorem mul_two_pow_mod_spacing {m k : Nat} (hm : m ≤ Nat.pow 2 53) :
    m * Nat.pow 2 k % Nat.pow 2 (spacing (m * Nat.pow 2 k)) = 0 := by
  simp only [Nat.pow_eq] at *
  rcases Nat.eq_zero_or_pos m with rfl | hpos
  · simp
  rcases Nat.eq_or_lt_of_le hm with rfl | hlt
  · rw [← Nat.pow_add, spacing, Nat.log2_two_pow]
    exact Nat.mod_eq_zero_of_dvd (Nat.pow_dvd_pow 2 (by omega))
  · have hn : m * 2 ^ k ≠ 0 := Nat.ne_of_gt (Nat.mul_pos hpos (Nat.two_pow_pos k))
    have hlog : (m * 2 ^ k).log2 < 53 + k := by
      rw [Nat.log2_lt hn, Nat.pow_add]
      exact Nat.mul_lt_mul_of_pos_right hlt (Nat.two_pow_pos k)
    refine Nat.mod_eq_zero_of_dvd (Nat.dvd_trans (Nat.pow_dvd_pow 2 ?_) (Nat.dvd_mul_left _ _))
    unfold spacing; omega

/-- On the grid of its binade a quotient rounds to a significand of at most `2 ^ 53`. -/
theorem roundDiv_spacing_le (num den : Nat) :
    roundDiv num (den * Nat.pow 2 (spacing (num / den))) ≤ Nat.pow 2 53 := by
  refine Nat.le_trans (roundDiv_le _ _) ?_
  simp only [Nat.pow_eq]
  rw [← Nat.div_div_eq_div_mul]
  apply Nat.succ_le_of_lt
  rw [Nat.div_lt_iff_lt_mul (Nat.two_pow_pos _), ← Nat.pow_add]
  exact lt_two_pow_spacing _

/-- What has been rounded is a multiple of its own spacing. -/
theorem roundedQuanta_mod_spacing (num den : Nat) :
    roundedQuanta num den % Nat.pow 2 (spacing (roundedQuanta num den)) = 0 := by
  unfold roundedQuanta
  exact mul_two_pow_mod_spacing (roundDiv_spacing_le num den)

/-- The double nearest to `num / den` quanta, ties to even, with the given sign. -/
def ofRatio (negative : Bool) (num den : Nat) : Binary64 :=
  if h : roundedQuanta num den < limit then
    .finite negative ⟨roundedQuanta num den, h, roundedQuanta_mod_spacing num den⟩
  else
    .infinite negative

/-- A whole number of quanta, rounded. -/
def ofQuanta (negative : Bool) (n : Nat) : Binary64 := ofRatio negative n 1

/-- **A representable quotient rounds to itself.** -/
theorem roundedQuanta_mul {n den : Nat} (h : n % Nat.pow 2 (spacing n) = 0) (hd : 0 < den) :
    roundedQuanta (n * den) den = n := by
  have hk : n * den / den = n := Nat.mul_div_cancel _ hd
  unfold roundedQuanta
  simp only [hk]
  have hp : 0 < Nat.pow 2 (spacing n) := Nat.two_pow_pos _
  obtain ⟨m, hm⟩ := Nat.dvd_of_mod_eq_zero h
  have : n * den = m * (den * Nat.pow 2 (spacing n)) := by
    conv => lhs; rw [hm]
    simp only [Nat.mul_comm, Nat.mul_left_comm]
  rw [this, roundDiv_mul m (Nat.mul_pos hd hp), Nat.mul_comm]
  exact hm.symm

/-- A ratio that comes to a magnitude is that magnitude. -/
theorem ofRatio_mul (negative : Bool) (m : Magnitude) {den : Nat} (hd : 0 < den) :
    ofRatio negative (m.quanta * den) den = .finite negative m := by
  have h := roundedQuanta_mul m.representable.2 hd
  unfold ofRatio
  simp only [h, m.representable.1, dite_true]

/-- The quanta of a magnitude are not rounded. -/
theorem ofQuanta_quanta (negative : Bool) (m : Magnitude) :
    ofQuanta negative m.quanta = .finite negative m := by
  have h := ofRatio_mul negative m Nat.one_pos
  rwa [Nat.mul_one] at h

/-- Rounding a ratio is the same on both sides of zero. -/
theorem neg_ofRatio (negative : Bool) (num den : Nat) :
    -ofRatio negative num den = ofRatio (!negative) num den := by
  unfold ofRatio; split <;> rfl

/-- A common factor does not change how a quotient is rounded. -/
theorem roundDiv_mul_mul (num den : Nat) {c : Nat} (hc : 0 < c) :
    roundDiv (num * c) (den * c) = roundDiv num den := by
  unfold roundDiv
  have h1 : 2 * (num % den * c) < den * c ↔ 2 * (num % den) < den := by
    rw [← Nat.mul_assoc]
    exact Nat.mul_lt_mul_right hc
  have h2 : 2 * (num % den * c) = den * c ↔ 2 * (num % den) = den := by
    rw [← Nat.mul_assoc]
    exact Nat.mul_left_inj (Nat.ne_of_gt hc)
  simp only [Nat.mul_div_mul_right _ _ hc, Nat.mul_mod_mul_right, h1, h2]

/-- **Equal quotients round alike.** -/
theorem ofRatio_mul_mul (negative : Bool) (num den : Nat) {c : Nat} (hc : 0 < c) :
    ofRatio negative (num * c) (den * c) = ofRatio negative num den := by
  have h : roundedQuanta (num * c) (den * c) = roundedQuanta num den := by
    unfold roundedQuanta
    simp only [Nat.mul_div_mul_right _ _ hc]
    rw [Nat.mul_right_comm, roundDiv_mul_mul _ _ hc]
  unfold ofRatio
  simp only [h]

/-- Less than half a quantum rounds to zero. -/
theorem ofRatio_eq_zero (negative : Bool) {num den : Nat} (h : 2 * num < den) :
    ofRatio negative num den = zero negative := by
  have hr : roundedQuanta num den = 0 := by
    have hq : num / den = 0 := Nat.div_eq_of_lt (by omega)
    have hm : num % den = num := Nat.mod_eq_of_lt (by omega)
    simp [roundedQuanta, roundDiv, hq, hm, spacing, h]
  unfold ofRatio
  simp only [hr, limit_pos, dite_true]
  rfl

/-- What is out of range stays so when it is rounded. -/
theorem limit_le_roundedQuanta {num den : Nat} (h : limit ≤ num / den) :
    limit ≤ roundedQuanta num den := by
  have hk : 2046 ≤ spacing (num / den) := by
    have := lt_of_limit_lt_two_pow (Nat.lt_of_le_of_lt h (lt_two_pow_spacing (num / den)))
    omega
  have hq := two_pow_spacing_le (n := num / den) (by omega)
  unfold roundedQuanta
  simp only [Nat.pow_eq] at *
  refine Nat.le_trans ?_ (Nat.mul_le_mul_right _ (le_roundDiv _ _))
  rw [← Nat.div_div_eq_div_mul]
  generalize spacing (num / den) = k at *
  generalize num / den = q at *
  have h52 : 2 ^ 52 ≤ q / 2 ^ k := by
    rw [Nat.le_div_iff_mul_le (Nat.two_pow_pos k), ← Nat.pow_add]
    exact hq
  refine Nat.le_trans ?_ (Nat.mul_le_mul_right _ h52)
  rw [← Nat.pow_add]
  exact limit_le_two_pow (by omega)

/-- From `2 ^ 1024` on everything rounds to an infinity. -/
theorem ofRatio_eq_infinite (negative : Bool) {num den : Nat} (h : limit ≤ num / den) :
    ofRatio negative num den = .infinite negative := by
  unfold ofRatio
  rw [dif_neg (Nat.not_lt.2 (limit_le_roundedQuanta h))]

end Binary64
end DeskCalculator
