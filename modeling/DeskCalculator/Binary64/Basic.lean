/-
# Binary64 numbers

A finite double is a sign and a whole number of *quanta*, a quantum being the least positive
double `2 ^ -1074`. In this unit nothing has an exponent: sums, products and remainders are sums,
products and remainders of natural numbers, and only rounding knows about precision. Powers are
written `Nat.pow`, so that they read the same with and without an algebra library in scope.

| magnitude `n` in quanta | neighbours differ by | doubles |
| --- | --- | --- |
| `n < 2 ^ 53` | `1` | zero, the subnormal ones and the first normal binade |
| `2 ^ (52 + k) ≤ n < 2 ^ (53 + k)` | `2 ^ k` | the `k`-th binade after it |
| `2 ^ 2098 ≤ n` | | none: too large |

All NaNs are one value, since no operation here looks at a payload.
-/

namespace DeskCalculator

/-- One, in quanta: a quantum is the least positive double, `2 ^ -1074`. -/
def Binary64.unit : Nat := Nat.pow 2 1074

/-- The finite doubles are below `2 ^ 1024`, which is this many quanta. -/
def Binary64.limit : Nat := Nat.pow 2 2098

/-- Doubles in the binade of `n` quanta are multiples of `2 ^ spacing n`: a significand has 53
bits, and the truncated subtraction keeps the subnormal doubles on the finest grid. -/
def Binary64.spacing (n : Nat) : Nat := n.log2 - 52

/-- A magnitude that a double has: below the limit and on the grid of its binade. -/
def Binary64.Representable (n : Nat) : Prop :=
  n < Binary64.limit ∧ n % Nat.pow 2 (Binary64.spacing n) = 0

instance (n : Nat) : Decidable (Binary64.Representable n) :=
  inferInstanceAs (Decidable (_ ∧ _))

/-- The magnitude of a finite double. -/
structure Magnitude where
  /-- How many quanta it is. -/
  quanta : Nat
  representable : Binary64.Representable quanta
  deriving DecidableEq

/-- A binary64 number; `negative` is the sign bit, which zeros and infinities have too. -/
inductive Binary64 where
  | nan
  | infinite (negative : Bool)
  | finite (negative : Bool) (magnitude : Magnitude)
  deriving DecidableEq

namespace Binary64

/-- One has a positive number of quanta. -/
theorem unit_pos : 0 < unit := by
  unfold unit
  generalize 1074 = k
  exact Nat.two_pow_pos k

/-- The limit is positive. -/
theorem limit_pos : 0 < limit := by
  unfold limit
  generalize 2098 = k
  exact Nat.two_pow_pos k

/-- The limit is the power `2 ^ 2098`, so no greater than those that follow. -/
theorem limit_le_two_pow {k : Nat} (h : 2098 ≤ k) : limit ≤ Nat.pow 2 k := by
  unfold limit
  generalize 2098 = j at *
  exact Nat.pow_le_pow_right (by decide) h

/-- A power of two has the quanta of the power 1074 further on. -/
theorem two_pow_mul_unit (k : Nat) : Nat.pow 2 k * unit = Nat.pow 2 (k + 1074) := by
  unfold unit
  generalize 1074 = j
  exact (Nat.pow_add 2 k j).symm

/-- From `2 ^ 1024` on, the powers of two are out of range. -/
theorem limit_le_two_pow_mul_unit {k : Nat} (h : 1024 ≤ k) : limit ≤ Nat.pow 2 k * unit := by
  rw [two_pow_mul_unit]
  exact limit_le_two_pow (by omega)

/-- A power of two above the limit has an exponent above 2098. -/
theorem lt_of_limit_lt_two_pow {k : Nat} (h : limit < Nat.pow 2 k) : 2098 < k := by
  unfold limit at h
  generalize 2098 = j at *
  exact (Nat.pow_lt_pow_iff_right (by decide)).1 h

/-- A power of two below the limit has an exponent below 2098. -/
theorem lt_of_two_pow_lt_limit {k : Nat} (h : Nat.pow 2 k < limit) : k < 2098 := by
  unfold limit at h
  generalize 2098 = j at *
  exact (Nat.pow_lt_pow_iff_right (by decide)).1 h

/-- Nothing at all is a magnitude. -/
theorem representable_zero : Representable 0 := ⟨limit_pos, Nat.zero_mod _⟩

/-- Zero with a sign. -/
def zero (negative : Bool) : Binary64 := .finite negative ⟨0, representable_zero⟩

/-- The sign bit; NaN counts as positive. -/
def isNegative : Binary64 → Bool
  | .nan => false
  | .infinite negative => negative
  | .finite negative _ => negative

/-- Neither NaN nor an infinity. -/
def isFinite : Binary64 → Bool
  | .finite _ _ => true
  | _ => false

/-- Either infinity. -/
def isInfinite : Binary64 → Bool
  | .infinite _ => true
  | _ => false

/-- Not a number. -/
def isNaN : Binary64 → Bool
  | .nan => true
  | _ => false

/-- Either zero. -/
def isZero : Binary64 → Bool
  | .finite _ m => m.quanta == 0
  | _ => false

/-- Negative and other than zero. -/
def isBelowZero (x : Binary64) : Bool := x.isNegative && !x.isZero

/-- The other sign, exactly. -/
def neg : Binary64 → Binary64
  | .nan => .nan
  | .infinite negative => .infinite !negative
  | .finite negative m => .finite (!negative) m

instance : Neg Binary64 := ⟨neg⟩

/-- The same magnitude with the given sign; NaN has none. -/
def withSign (negative : Bool) : Binary64 → Binary64
  | .nan => .nan
  | .infinite _ => .infinite negative
  | .finite _ m => .finite negative m

/-- A finite number's value in quanta, with its sign; the two zeros agree. -/
def signedQuanta (negative : Bool) (m : Magnitude) : Int :=
  if negative then -(m.quanta : Int) else m.quanta

/-- NaN has no sign to turn around. -/
@[simp] theorem neg_nan : -nan = nan := rfl

/-- An infinity turns around to the other one. -/
@[simp] theorem neg_infinite (s : Bool) : -infinite s = infinite !s := rfl

/-- A finite number keeps its magnitude when its sign turns around. -/
@[simp] theorem neg_finite (s : Bool) (m : Magnitude) : -finite s m = finite (!s) m := rfl

/-- Turning the sign around twice changes nothing. -/
@[simp] theorem neg_neg (x : Binary64) : -(-x) = x := by
  cases x <;> simp

/-- The sign does not matter for being finite. -/
@[simp] theorem isFinite_neg (x : Binary64) : (-x).isFinite = x.isFinite := by
  cases x <;> rfl

/-- The sign does not matter for being a zero. -/
@[simp] theorem isZero_neg (x : Binary64) : (-x).isZero = x.isZero := by
  cases x <;> rfl

/-- What is finite has a sign and a magnitude. -/
theorem exists_eq_finite {x : Binary64} (h : x.isFinite = true) :
    ∃ negative m, x = finite negative m := by
  cases x with
  | nan => cases h
  | infinite negative => cases h
  | finite negative m => exact ⟨negative, m, rfl⟩

/-- A zero is finite. -/
theorem isFinite_of_isZero {x : Binary64} (h : x.isZero = true) : x.isFinite = true := by
  cases x with
  | nan => cases h
  | infinite negative => cases h
  | finite negative m => rfl

end Binary64
end DeskCalculator
