/-
# Rounding finds the nearest double

A number of quanta is on the grid if a double has it, or would have it if there were no largest
double.  The quotient rounds to the number on the grid that is nearest to it, and of two that are
equally near to the one with the even significand (`isNearest_roundedQuanta`); it is finite if that
number is below the limit (`ofRatio_cases`).

The numbers on the grid are not evenly spaced.  Those from the quotient's binade on are multiples of
its spacing, and the nearest of these multiples is found by division.  A number below that binade is
further from the quotient than the first multiple in it.
-/

import DeskCalculator.Binary64.Rounding

namespace DeskCalculator
namespace Binary64

/-- A number of quanta that a double could have if none was too large. -/
def OnGrid (n : Nat) : Prop := n % Nat.pow 2 (spacing n) = 0

/-- The whole number that a number on the grid is a power of two times of. -/
def significand (n : Nat) : Nat := n / Nat.pow 2 (spacing n)

/-- How far a number is from the quotient `num / den`, in units of `1 / den`. -/
def gap (num den n : Nat) : Nat := ((n * den : Nat) - num : Int).natAbs

/-- What a quotient rounds to: no number on the grid is nearer, and one as near only where the
significand is even. -/
structure IsNearest (num den n : Nat) : Prop where
  onGrid : OnGrid n
  least {p : Nat} (h : OnGrid p) : gap num den n ≤ gap num den p
  even {p : Nat} (h : OnGrid p) (tie : gap num den p = gap num den n) (ne : p ≠ n) :
    significand n % 2 = 0

variable {num den : Nat}

/-- **The whole number nearest to a quotient:** no other is nearer, and one as near only if this one
is even. -/
theorem roundDiv_nearest (num : Nat) (h : 0 < den) (j : Nat) :
    gap num den (roundDiv num den) ≤ gap num den j ∧
      (gap num den j = gap num den (roundDiv num den) → j ≠ roundDiv num den →
        roundDiv num den % 2 = 0) := by
  have split : num / den * den + num % den = num := by
    rw [Nat.mul_comm]
    exact Nat.div_add_mod num den
  have small : num % den < den := Nat.mod_lt num h
  unfold gap roundDiv
  simp only []
  generalize num / den = q at *
  generalize num % den = r at *
  have next : (q + 1) * den = q * den + den := Nat.succ_mul q den
  -- Any other whole number is one of the two neighbours or a whole step further away.
  have place : j * den + den ≤ q * den ∨ j = q ∨ j = q + 1 ∨ q * den + 2 * den ≤ j * den := by
    rcases Nat.lt_trichotomy j q with below | eq | above
    · refine .inl ?_
      rw [← Nat.succ_mul]
      exact Nat.mul_le_mul_right den below
    · exact .inr (.inl eq)
    · rcases Nat.eq_or_lt_of_le above with eq | above
      · exact .inr (.inr (.inl eq.symm))
      · refine .inr (.inr (.inr ?_))
        rw [← Nat.add_mul]
        exact Nat.mul_le_mul_right den above
  split <;> rcases place with below | rfl | rfl | above <;> omega

/-- Multiples of a power of two on the scale of that power. -/
theorem gap_mul_two_pow (num den j k : Nat) :
    gap num den (j * Nat.pow 2 k) = gap num (den * Nat.pow 2 k) j := by
  unfold gap
  rw [Nat.mul_assoc, Nat.mul_comm (Nat.pow 2 k)]

/-- **From a binade on the grid consists of multiples of its spacing.** -/
theorem OnGrid.exists_eq_mul {p : Nat} (h : OnGrid p) {k : Nat}
    (high : k = 0 ∨ Nat.pow 2 (52 + k) ≤ p) : ∃ j, p = j * Nat.pow 2 k := by
  have coarse : k ≤ spacing p := by
    rcases high with rfl | high
    · exact Nat.zero_le _
    · have nonzero : p ≠ 0 := Nat.ne_of_gt (Nat.lt_of_lt_of_le (Nat.two_pow_pos _) high)
      have binade := (Nat.le_log2 nonzero).2 high
      unfold spacing
      omega
  obtain ⟨j, hj⟩ := Nat.dvd_trans (Nat.pow_dvd_pow 2 coarse) (Nat.dvd_of_mod_eq_zero h)
  exact ⟨j, by rw [Nat.mul_comm]; exact hj⟩

/-- What is below the binade of a quotient is further from it than the binade's first number. -/
theorem gap_lt_of_lt {p q : Nat} (h : 0 < den) (low : q * den ≤ num) (below : p < q) :
    gap num den q < gap num den p := by
  have step : p * den < q * den := Nat.mul_lt_mul_of_pos_right below h
  unfold gap
  omega

/-- An even multiple of a power of two has an even significand. -/
theorem significand_mul_two_pow {r : Nat} (k : Nat) (bound : r ≤ Nat.pow 2 53)
    (even : r % 2 = 0) : significand (r * Nat.pow 2 k) % 2 = 0 := by
  unfold significand
  simp only [Nat.pow_eq] at *
  rcases Nat.eq_or_lt_of_le bound with rfl | small
  · -- The next power of two has its significand in the next binade.
    have binade : spacing (2 ^ 53 * 2 ^ k) = k + 1 := by
      rw [spacing, ← Nat.pow_add, Nat.log2_two_pow]
      omega
    have exponent : 53 + k - (k + 1) = 52 := by omega
    rw [binade, ← Nat.pow_add, Nat.pow_div (by omega) (by decide), exponent]
  · have fine : spacing (r * 2 ^ k) ≤ k := by
      rcases Nat.eq_zero_or_pos r with rfl | positive
      · rw [Nat.zero_mul]
        exact Nat.zero_le k
      · have nonzero : r * 2 ^ k ≠ 0 := Nat.ne_of_gt (Nat.mul_pos positive (Nat.two_pow_pos k))
        have binade : (r * 2 ^ k).log2 < 53 + k := by
          rw [Nat.log2_lt nonzero, Nat.pow_add]
          exact Nat.mul_lt_mul_of_pos_right small (Nat.two_pow_pos k)
        unfold spacing
        omega
    obtain ⟨i, hi⟩ := Nat.exists_eq_add_of_le fine
    generalize spacing (r * 2 ^ k) = j at *
    rw [hi, Nat.pow_add, Nat.mul_comm (2 ^ j), ← Nat.mul_assoc,
      Nat.mul_div_cancel _ (Nat.two_pow_pos j), Nat.mul_mod, even, Nat.zero_mul, Nat.zero_mod]

/-- **A quotient rounds to the nearest number on the grid.** -/
theorem isNearest_roundedQuanta (num : Nat) (h : 0 < den) :
    IsNearest num den (roundedQuanta num den) := by
  have eq : roundedQuanta num den =
      roundDiv num (den * Nat.pow 2 (spacing (num / den))) * Nat.pow 2 (spacing (num / den)) := rfl
  have bound := roundDiv_spacing_le num den
  have below (hk : spacing (num / den) ≠ 0) : Nat.pow 2 (52 + spacing (num / den)) * den ≤ num :=
    Nat.le_trans (Nat.mul_le_mul_right den (two_pow_spacing_le hk)) (Nat.div_mul_le_self num den)
  have onGrid : OnGrid (roundedQuanta num den) := roundedQuanta_mod_spacing num den
  generalize spacing (num / den) = k at eq bound below
  generalize roundedQuanta num den = n at eq onGrid ⊢
  have positive : 0 < den * Nat.pow 2 k := Nat.mul_pos h (Nat.two_pow_pos k)
  have nearest := roundDiv_nearest num positive
  simp only [← gap_mul_two_pow] at nearest
  have place {p : Nat} (hp : OnGrid p) :
      (∃ j, p = j * Nat.pow 2 k) ∨ gap num den n < gap num den p := by
    by_cases high : k = 0 ∨ Nat.pow 2 (52 + k) ≤ p
    · exact .inl (hp.exists_eq_mul high)
    · rw [not_or, Nat.not_le] at high
      have first : Nat.pow 2 (52 + k) = Nat.pow 2 52 * Nat.pow 2 k := Nat.pow_add 2 52 k
      refine .inr (Nat.lt_of_le_of_lt ?_ (gap_lt_of_lt h (below high.1) high.2))
      rw [eq, first]
      exact (nearest _).1
  refine ⟨onGrid, fun hp => ?_, fun hp tie ne => ?_⟩
  · rcases place hp with ⟨j, rfl⟩ | further
    · rw [eq]
      exact (nearest j).1
    · exact Nat.le_of_lt further
  · rcases place hp with ⟨j, rfl⟩ | further
    · rw [eq] at tie ne ⊢
      refine significand_mul_two_pow k bound ((nearest j).2 tie fun same => ne ?_)
      rw [same]
    · exact absurd tie (Nat.ne_of_gt further)

/-- **A rounded quotient is the nearest double,** or an infinity if that would be too large. -/
theorem ofRatio_cases (negative : Bool) (num : Nat) (h : 0 < den) :
    (∃ m : Magnitude, IsNearest num den m.quanta ∧ ofRatio negative num den = finite negative m) ∨
      ∃ n, limit ≤ n ∧ IsNearest num den n ∧ ofRatio negative num den = infinite negative := by
  have nearest := isNearest_roundedQuanta num h
  unfold ofRatio
  split
  · rename_i below
    exact .inl ⟨⟨_, below, roundedQuanta_mod_spacing num den⟩, nearest, rfl⟩
  · rename_i above
    exact .inr ⟨_, Nat.le_of_not_lt above, nearest, rfl⟩

end Binary64
end DeskCalculator
