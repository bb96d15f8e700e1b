/-
# No guard lets a trap through

Each guarded operation has a result for all operands, infinities and NaN among them.  What a guard
catches is read off the operation below it, case by case; the circular functions need one fact about
numbers as well: an angle that is not infinite has finite radians (`isInfinite_toRadians`), because
a degree is less than a quarter and rounding at most doubles (`roundedQuanta_le`).
-/

import DeskCalculator.Names

namespace DeskCalculator
namespace Binary64

/-- Rounding adds at most one quantum or the quotient itself. -/
theorem roundedQuanta_le (num den : Nat) : roundedQuanta num den ≤ 2 * (num / den) + 1 := by
  unfold roundedQuanta
  generalize hk : spacing (num / den) = k
  have h : roundDiv num (den * Nat.pow 2 k) ≤ num / den / Nat.pow 2 k + 1 := by
    rw [Nat.div_div_eq_div_mul]
    exact roundDiv_le _ _
  have grid : roundDiv num (den * Nat.pow 2 k) * Nat.pow 2 k ≤ num / den + Nat.pow 2 k := by
    calc roundDiv num (den * Nat.pow 2 k) * Nat.pow 2 k
        ≤ (num / den / Nat.pow 2 k + 1) * Nat.pow 2 k := Nat.mul_le_mul_right _ h
      _ = num / den / Nat.pow 2 k * Nat.pow 2 k + Nat.pow 2 k := by rw [Nat.add_mul, Nat.one_mul]
      _ ≤ num / den + Nat.pow 2 k := Nat.add_le_add_right (Nat.div_mul_le_self _ _) _
  by_cases hzero : k = 0
  · subst hzero
    simp only [Nat.pow_eq, Nat.pow_zero] at grid ⊢
    omega
  · -- Off the finest grid the quotient is at least one step of its grid.
    have step : Nat.pow 2 k ≤ num / den := by
      refine Nat.le_trans (Nat.pow_le_pow_right (by decide) (Nat.le_add_left k 52)) ?_
      rw [← hk] at hzero ⊢
      exact two_pow_spacing_le hzero
    simp only [] at grid ⊢
    omega

/-- Where the quotient stays below the quarter of a magnitude, the rounded quotient is finite. -/
theorem isInfinite_ofRatio {negative : Bool} {num den : Nat} {m : Magnitude}
    (h : num / den ≤ m.quanta / 4) : (ofRatio negative num den).isInfinite = false := by
  have rounded := roundedQuanta_le num den
  have below := m.representable.1
  have large : 4 ≤ limit := by
    refine Nat.le_of_lt (Nat.lt_of_not_le fun hle => ?_)
    have := lt_of_limit_lt_two_pow (k := 3) (Nat.lt_of_le_of_lt hle (by decide))
    omega
  unfold ofRatio
  rw [dif_pos (by omega)]
  rfl

/-- A product of finite numbers is the rounded product of their magnitudes. -/
theorem mul_finite (s t : Bool) (m n : Magnitude) :
    finite s m * finite t n = ofRatio (s ^^ t) (m.quanta * n.quanta) unit := by
  change mul (finite s m) (finite t n) = _
  rw [mul]

/-- A degree is a finite number of radians, and below a quarter. -/
theorem exists_degree : ∃ s m, degree = .finite s m ∧ m.quanta * 4 ≤ unit :=
  ⟨false, ⟨0x11DF46A2529D39 * Nat.pow 2 1016, by decide +kernel⟩, by decide +kernel,
    by decide +kernel⟩

/-- **An angle that is not infinite is not infinite in radians.** -/
theorem isInfinite_toRadians {x : Binary64} (h : x.isInfinite = false) :
    x.toRadians.isInfinite = false := by
  obtain ⟨t, d, hd, quarter⟩ := exists_degree
  cases x with
  | nan => rw [toRadians, hd]; rfl
  | infinite s => cases h
  | finite s m =>
    rw [toRadians, hd, mul_finite]
    refine isInfinite_ofRatio (m := m) ((Nat.le_div_iff_mul_le (by decide)).2 ?_)
    refine Nat.le_of_mul_le_mul_right ?_ unit_pos
    calc m.quanta * d.quanta / unit * 4 * unit
        = m.quanta * d.quanta / unit * unit * 4 := Nat.mul_right_comm _ _ _
      _ ≤ m.quanta * d.quanta * 4 := Nat.mul_le_mul_right _ (Nat.div_mul_le_self _ _)
      _ = m.quanta * (d.quanta * 4) := Nat.mul_assoc _ _ _
      _ ≤ m.quanta * unit := Nat.mul_le_mul_left _ quarter

end Binary64

namespace Guarded

/-- No quotient is refused. -/
theorem exists_div (x y : Binary64) : ∃ z, div x y = .ok z := by
  unfold div
  split
  · split <;> exact ⟨_, rfl⟩
  · rename_i nonzero
    exact ⟨x / y, if_neg nonzero⟩

/-- No power is refused. -/
theorem exists_pow (x y : Binary64) : ∃ z, pow x y = .ok z := by
  unfold pow
  split
  · exact ⟨_, rfl⟩
  · split
    · split <;> exact ⟨_, rfl⟩
    · exact ⟨_, rfl⟩
  · rename_i notOverflow notDomain
    -- A power is never refused as a division by zero.
    unfold Trapping.pow at *
    simp only [] at *
    split
    · rename_i refused
      rw [if_pos refused] at notOverflow notDomain
      split at notOverflow
      · exact absurd rfl notOverflow
      · rename_i notInfinite
        rw [if_neg notInfinite] at notDomain
        exact absurd rfl notDomain
    · exact ⟨_, rfl⟩

/-- No remainder is refused. -/
theorem exists_rem (x y : Binary64) : ∃ z, rem x y = .ok z := by
  unfold rem
  split
  · exact ⟨_, rfl⟩
  · rename_i notDomain
    unfold Trapping.rem at *
    simp only [] at *
    split
    · rename_i refused
      rw [if_pos refused] at notDomain
      exact absurd rfl notDomain
    · exact ⟨_, rfl⟩

/-- A function is used where it is offered, so it has a result there. -/
theorem exists_restricted {refuses : Binary64 → Bool} {x : Binary64} (h : refuses x = false)
    (f : Binary64 → Binary64) : ∃ z, Trapping.restricted refuses f x = .ok z :=
  ⟨f x, if_neg (by rw [h]; exact Bool.false_ne_true)⟩

/-- No circular function is refused, as the guard is there for the infinities. -/
theorem exists_circular (f : Binary64 → Binary64) (x : Binary64) :
    ∃ z, circular (Trapping.restricted Binary64.isInfinite f) x = .ok z := by
  unfold circular
  split
  · exact ⟨_, rfl⟩
  · rename_i notInfinite
    exact exists_restricted (Binary64.isInfinite_toRadians (Bool.eq_false_iff.2 notInfinite)) f

/-- No root is refused. -/
theorem exists_sqrt (x : Binary64) : ∃ z, sqrt x = .ok z := by
  unfold sqrt
  split
  · exact ⟨_, rfl⟩
  · rename_i notBelow
    exact exists_restricted (Bool.eq_false_iff.2 notBelow) Binary64.sqrt

/-- No logarithm is refused, as the guard is there for zero and what is below it. -/
theorem exists_logarithm (f : Binary64 → Binary64) (x : Binary64) :
    ∃ z, logarithm (Trapping.restricted (fun x => x.isZero || x.isBelowZero) f) x = .ok z := by
  unfold logarithm
  split
  · exact ⟨_, rfl⟩
  · split
    · exact ⟨_, rfl⟩
    · rename_i notZero notBelow
      refine exists_restricted ?_ f
      rw [Bool.eq_false_iff.2 notZero, Bool.eq_false_iff.2 notBelow, Bool.or_false]

end Guarded

/-- **Every function that an expression can name has a result for every number.** -/
theorem Names.exists_of_function? {name : String} {f : Binary64 → Except Trap Binary64}
    (h : function? name = some f) (x : Binary64) : ∃ z, f x = .ok z := by
  unfold function? at h
  split at h
  · cases h; exact Guarded.exists_circular .sin x
  · cases h; exact Guarded.exists_circular .cos x
  · cases h; exact Guarded.exists_circular .tan x
  · cases h; exact Guarded.exists_sqrt x
  · cases h; exact Guarded.exists_logarithm .log10 x
  · cases h; exact Guarded.exists_logarithm .ln x
  · cases h

end DeskCalculator
