/-
# Special values and their signs

A guard puts in the place of a refusal what IEEE 754 gives, from the kind of refusal, the sign of
the operands, and whether the exponent is odd.  What it puts there is what the operation itself
would have given: the guarded quotient is the quotient (`Guarded.div_eq`), and the guarded power is
the power (`Guarded.pow_eq`).  The quotient is given for all operands by `IsQuotient`, and the power
for those that need a rule of their own by `SpecialPower`, row by row and apart from the operations.

Whether an exponent is odd is found out by its remainder by two, rounded down, so that minus three
leaves one as three does (`Guarded.isOdd_eq`).  The signs are those of the exact results: changing
the sign of either operand changes that of a quotient, and changing the sign of a base changes that
of a power exactly if the exponent is odd.
-/

import DeskCalculator.Proofs.Binary64.Nearest
import DeskCalculator.Proofs.Binary64.Total

namespace DeskCalculator
namespace Binary64

/-- Positive and other than zero. -/
def isAboveZero (x : Binary64) : Bool := (-x).isBelowZero

/-- The quotient of two doubles as IEEE 754 has it. -/
inductive IsQuotient : Binary64 → Binary64 → Binary64 → Prop
  | nanDividend (y : Binary64) : IsQuotient nan y nan
  | nanDivisor (x : Binary64) : IsQuotient x nan nan
  | infinities (s t : Bool) : IsQuotient (infinite s) (infinite t) nan
  | infiniteDividend (s t : Bool) (n : Magnitude) :
    IsQuotient (infinite s) (finite t n) (infinite (s ^^ t))
  | infiniteDivisor (s t : Bool) (m : Magnitude) :
    IsQuotient (finite s m) (infinite t) (zero (s ^^ t))
  | zeros (s t : Bool) {m n : Magnitude} (hm : m.quanta = 0) (hn : n.quanta = 0) :
    IsQuotient (finite s m) (finite t n) nan
  | zeroDivisor (s t : Bool) {m n : Magnitude} (hm : m.quanta ≠ 0) (hn : n.quanta = 0) :
    IsQuotient (finite s m) (finite t n) (infinite (s ^^ t))
  | rounded (s t : Bool) {m n q : Magnitude} (hn : n.quanta ≠ 0)
      (nearest : IsNearest (m.quanta * unit) n.quanta q.quanta) :
    IsQuotient (finite s m) (finite t n) (finite (s ^^ t) q)
  | tooLarge (s t : Bool) {m n : Magnitude} {q : Nat} (hn : n.quanta ≠ 0)
      (nearest : IsNearest (m.quanta * unit) n.quanta q) (large : limit ≤ q) :
    IsQuotient (finite s m) (finite t n) (infinite (s ^^ t))

/-- The powers that do not follow from the power of two numbers, as ISO C lists them. -/
inductive SpecialPower : Binary64 → Binary64 → Binary64 → Prop
  | zeroExponent (x : Binary64) (s : Bool) : SpecialPower x (zero s) one
  | oneBase (y : Binary64) : SpecialPower one y one
  | nanBase {y : Binary64} (h : y.isZero = false) : SpecialPower nan y nan
  | nanExponent {x : Binary64} (h : x ≠ one) : SpecialPower x nan nan
  /-- A negative number has no power to a fraction. -/
  | fraction {x y : Binary64} (below : x.isBelowZero = true) (hx : x.isFinite = true)
      (hy : y.isFinite = true) (h : y.isInteger = false) : SpecialPower x y nan
  | zeroBelow (s : Bool) {y : Binary64} (below : y.isBelowZero = true) :
    SpecialPower (zero s) y (infinite (s && y.isOddInteger))
  | zeroAbove (s : Bool) {y : Binary64} (above : y.isAboveZero = true) :
    SpecialPower (zero s) y (zero (s && y.isOddInteger))
  | minusOne (t : Bool) : SpecialPower (-one) (infinite t) one
  /-- The powers of a small number go to zero, and toward the other end to infinity. -/
  | small (s t : Bool) {m : Magnitude} (h : m.quanta < unit) :
    SpecialPower (finite s m) (infinite t) (if t then infinite false else zero false)
  | large (s t : Bool) {m : Magnitude} (h : unit < m.quanta) :
    SpecialPower (finite s m) (infinite t) (if t then zero false else infinite false)
  | infiniteBelow (s : Bool) {y : Binary64} (below : y.isBelowZero = true) :
    SpecialPower (infinite s) y (zero (s && y.isOddInteger))
  | infiniteAbove (s : Bool) {y : Binary64} (above : y.isAboveZero = true) :
    SpecialPower (infinite s) y (infinite (s && y.isOddInteger))

section Quotients

variable (s t : Bool) (m n : Magnitude)

/-- NaN by anything is NaN. -/
@[simp] theorem nan_div (y : Binary64) : nan / y = nan := by cases y <;> rfl

/-- Anything by NaN is NaN. -/
@[simp] theorem div_nan (x : Binary64) : x / nan = nan := by cases x <;> rfl

/-- An infinity by an infinity is NaN. -/
@[simp] theorem infinite_div_infinite : infinite s / infinite t = nan := rfl

/-- An infinity by a finite number is an infinity with the sign of the quotient. -/
@[simp] theorem infinite_div_finite : infinite s / finite t n = infinite (s ^^ t) := rfl

/-- A finite number by an infinity is a zero with the sign of the quotient. -/
@[simp] theorem finite_div_infinite : finite s m / infinite t = zero (s ^^ t) := rfl

/-- A finite number by a finite one is the rounded ratio of their quanta; by zero it is an infinity,
and zero by zero is NaN. -/
theorem finite_div_finite :
    finite s m / finite t n =
      if n.quanta = 0 then if m.quanta = 0 then nan else infinite (s ^^ t)
      else ofRatio (s ^^ t) (m.quanta * unit) n.quanta := by
  change div (finite s m) (finite t n) = _
  rw [div]

/-- Turning the sign around gives the other zero. -/
@[simp] theorem neg_signedZero : -zero s = zero !s := rfl

/-- **A zero divisor** gives the infinity whose sign is the product of the signs, but NaN if the
dividend is zero or NaN. -/
theorem div_of_isZero (x : Binary64) {y : Binary64} (h : y.isZero = true) :
    x / y = if x.isZero || x.isNaN then nan else infinite (x.isNegative ^^ y.isNegative) := by
  obtain ⟨t, n, rfl⟩ := exists_eq_finite (isFinite_of_isZero h)
  cases x with
  | nan => rfl
  | infinite s => rfl
  | finite s m =>
    rw [finite_div_finite, if_pos (beq_iff_eq.1 h)]
    simp [isZero, isNaN, isNegative]

/-- **The quotient is the one of IEEE 754,** for all operands. -/
theorem isQuotient_div (x y : Binary64) : IsQuotient x y (x / y) := by
  cases x with
  | nan =>
    rw [nan_div]
    exact .nanDividend y
  | infinite s =>
    cases y with
    | nan => exact .nanDivisor _
    | infinite t => exact .infinities s t
    | finite t n => exact .infiniteDividend s t n
  | finite s m =>
    cases y with
    | nan => exact .nanDivisor _
    | infinite t => exact .infiniteDivisor s t m
    | finite t n =>
      rw [finite_div_finite]
      split
      · rename_i hn
        split
        · rename_i hm
          exact .zeros s t hm hn
        · rename_i hm
          exact .zeroDivisor s t hm hn
      · rename_i hn
        rcases ofRatio_cases (s ^^ t) (m.quanta * unit) (Nat.pos_of_ne_zero hn) with
          ⟨q, nearest, eq⟩ | ⟨q, large, nearest, eq⟩
        · rw [eq]
          exact .rounded s t hn nearest
        · rw [eq]
          exact .tooLarge s t hn nearest large

/-- The sign of the dividend is a sign of the quotient. -/
theorem neg_div (x y : Binary64) : -x / y = -(x / y) := by
  cases x <;> cases y <;> simp only [neg_nan, neg_infinite, neg_finite, nan_div, div_nan,
    infinite_div_infinite, infinite_div_finite, finite_div_infinite, neg_signedZero, Bool.not_xor]
  rw [finite_div_finite, finite_div_finite, Bool.not_xor]
  split
  · split <;> rfl
  · rw [neg_ofRatio]

/-- The sign of the divisor is a sign of the quotient. -/
theorem div_neg (x y : Binary64) : x / -y = -(x / y) := by
  cases x <;> cases y <;> simp only [neg_nan, neg_infinite, neg_finite, nan_div, div_nan,
    infinite_div_infinite, infinite_div_finite, finite_div_infinite, neg_signedZero, Bool.xor_not]
  rw [finite_div_finite, finite_div_finite, Bool.xor_not]
  split
  · split <;> rfl
  · rw [neg_ofRatio]

end Quotients

/-- Quanta that a magnitude can have are not rounded. -/
theorem ofQuanta_of_representable (s : Bool) {n : Nat} (h : Representable n) :
    ofQuanta s n = finite s ⟨n, h⟩ := ofQuanta_quanta s ⟨n, h⟩

/-- One and two are magnitudes. -/
theorem representable_units : Representable unit ∧ Representable (2 * unit) := by decide +kernel

/-- One and minus one by their magnitude. -/
theorem one_withSign (s : Bool) : one.withSign s = .finite s ⟨unit, representable_units.1⟩ := by
  rw [one, ofNat, Nat.one_mul, ofQuanta_of_representable false representable_units.1]
  rfl

/-- One by its magnitude. -/
theorem one_eq : one = .finite false ⟨unit, representable_units.1⟩ := by
  rw [one, ofNat, Nat.one_mul, ofQuanta_of_representable false representable_units.1]

/-- Two by its magnitude. -/
theorem two_eq : ofNat 2 = .finite false ⟨2 * unit, representable_units.2⟩ :=
  ofQuanta_of_representable false representable_units.2

/-- One is finite. -/
theorem isFinite_one : one.isFinite = true := by
  rw [one_eq]
  rfl

/-- Equal finite numbers have the same quanta. -/
theorem quanta_eq_of_finite_eq {s t : Bool} {m : Magnitude} {n : Nat} {r : Representable n}
    (h : finite s m = finite t ⟨n, r⟩) : m.quanta = n := by
  cases h
  rfl

/-- A finite number with any quanta is no zero. -/
theorem isZero_mk_eq_false (s : Bool) {n : Nat} (r : Representable n) (h : n ≠ 0) :
    (finite s ⟨n, r⟩).isZero = false := beq_eq_false_iff_ne.2 h

/-- Neither one nor minus one is a zero. -/
theorem isZero_one_withSign (s : Bool) : (one.withSign s).isZero = false := by
  rw [one_withSign]
  exact isZero_mk_eq_false s representable_units.1 (Nat.ne_of_gt unit_pos)

/-- Of one and minus one, only the latter is below zero. -/
theorem isBelowZero_one_withSign (s : Bool) : (one.withSign s).isBelowZero = s := by
  rw [isBelowZero, isZero_one_withSign, one_withSign]
  exact Bool.and_true s

/-- What is not finite is not one. -/
theorem ne_one_of_isFinite_eq_false {x : Binary64} (h : x.isFinite = false) : x ≠ one := by
  intro eq
  rw [eq, isFinite_one] at h
  cases h

/-- A zero is not one. -/
theorem ne_one_of_isZero {x : Binary64} (h : x.isZero = true) : x ≠ one := by
  intro eq
  have nonzero := isZero_one_withSign false
  rw [one_withSign, ← one_eq, ← eq, h] at nonzero
  cases nonzero

/-- A finite number is the same number as itself. -/
theorem same_self (s : Bool) (m : Magnitude) : (finite s m).same (finite s m) = true :=
  beq_self_eq_true _

/-- A finite number with any quanta is not the same number as zero. -/
theorem zero_same_mk {n : Nat} (r : Representable n) (h : n ≠ 0) :
    (zero false).same (finite false ⟨n, r⟩) = false :=
  beq_eq_false_iff_ne.2 (Int.natCast_ne_zero.2 h).symm

/-- The product of an infinity with plus or minus one is an infinity. -/
theorem infinite_mul_one (s t : Bool) : infinite s * one.withSign t = infinite (s ^^ t) := by
  rw [one_withSign]
  change mul (infinite s) (finite t ⟨unit, representable_units.1⟩) = _
  rw [mul, if_neg (Nat.ne_of_gt unit_pos)]

/-- What a whole number leaves when it is divided by two, toward zero: nothing, or one with its own
sign. -/
theorem rem_two {s : Bool} {m : Magnitude} (whole : m.quanta % unit = 0) :
    (finite s m).rem (ofNat 2) =
      if m.quanta / unit % 2 = 1 then one.withSign s else zero s := by
  have remainder : m.quanta % (2 * unit) = m.quanta / unit % 2 * unit := by
    conv => lhs; rw [← Nat.div_mul_cancel (Nat.dvd_of_mod_eq_zero whole)]
    exact Nat.mul_mod_mul_right _ _ _
  rw [two_eq, rem, if_neg (Nat.ne_of_gt (Nat.mul_pos (by decide) unit_pos)), remainder]
  split
  · rename_i odd
    rw [odd, Nat.one_mul, one_withSign]
    exact ofQuanta_of_representable s representable_units.1
  · rename_i even
    have zero : m.quanta / unit % 2 = 0 := by omega
    rw [zero, Nat.zero_mul]
    exact ofQuanta_of_representable s representable_zero

/-- Rounded down instead, minus one becomes one: that is two less one. -/
theorem floorRem_two {s : Bool} {m : Magnitude} (whole : m.quanta % unit = 0) :
    (finite s m).floorRem (ofNat 2) = if m.quanta / unit % 2 = 1 then one else zero false := by
  have two : (ofNat 2).isBelowZero = false ∧ (ofNat 2).isNegative = false := by
    rw [two_eq]
    exact ⟨rfl, rfl⟩
  have sum : one.withSign true + ofNat 2 = one := by decide +kernel
  rw [floorRem, rem_two whole, two.1, two.2]
  split
  · simp only [isZero_one_withSign, isBelowZero_one_withSign, Bool.false_eq_true, if_false]
    cases s with
    | false => rw [if_pos rfl, one_withSign, one_eq]
    | true => rw [if_neg (by decide), sum]
  · rfl

section Powers

variable {s : Bool} {m : Magnitude} {x y : Binary64}

/-- Anything to the power zero is one. -/
theorem pow_of_isZero (x : Binary64) (h : y.isZero = true) : x.pow y = one := by
  unfold pow
  rw [h, Bool.true_or, if_pos rfl]

/-- One to any power is one. -/
theorem one_pow (y : Binary64) : one.pow y = one := by
  unfold pow
  rw [decide_eq_true (rfl : one = one), Bool.or_true, if_pos rfl]

/-- NaN raised to anything but a zero is NaN. -/
theorem nan_pow (h : y.isZero = false) : nan.pow y = nan := by
  have differ : nan ≠ one := ne_one_of_isFinite_eq_false rfl
  unfold pow
  rw [h, decide_eq_false differ, if_neg (by decide)]

/-- Anything but one raised to NaN is NaN. -/
theorem pow_nan (differ : x ≠ one) : x.pow nan = nan := by
  unfold pow
  rw [decide_eq_false differ, if_neg (by decide)]
  cases x <;> rfl

/-- An infinite base gives zero for a negative exponent, and an infinity otherwise. -/
theorem powAbs_none (y : Binary64) :
    powAbs none y = if y.isNegative then zero false else infinite false := rfl

/-- The power of an infinity has its sign if the exponent is odd. -/
theorem infinite_pow (s : Bool) (h : y.isZero = false) (number : y.isNaN = false) :
    (infinite s).pow y = (powAbs none y).withSign (s && y.isOddInteger) := by
  have differ : infinite s ≠ one := ne_one_of_isFinite_eq_false rfl
  unfold pow
  rw [h, decide_eq_false differ, if_neg (by decide)]
  cases y with
  | nan => cases number
  | infinite t => rfl
  | finite t n => rfl

/-- The power of any other number has its sign too if the exponent is odd; where the exponent is no
whole number, a negative number has none. -/
theorem finite_pow (h : y.isZero = false) (number : y.isNaN = false) (differ : finite s m ≠ one) :
    (finite s m).pow y =
      if s && m.quanta != 0 && y.isFinite && !y.isInteger then nan
      else (powAbs (some m.quanta) y).withSign (s && y.isOddInteger) := by
  unfold pow
  rw [h, decide_eq_false differ, if_neg (by decide)]
  cases y with
  | nan => cases number
  | infinite t => rfl
  | finite t n => rfl

/-- One has one for its powers without regard to signs, too. -/
theorem powAbs_unit (t : Bool) (n : Magnitude) : powAbs (some unit) (finite t n) = one := by
  have twos : unit.gcd limit = unit := by decide +kernel
  have exponent : (unit.log2 : Int) - 1074 = 0 := by decide +kernel
  have power : twoPow 0 = one := by decide +kernel
  have exact : exactPower? unit t n.quanta = some one := by
    simp only [exactPower?, twos, Nat.div_self unit_pos, exponent, if_true, Int.natAbs_zero,
      Nat.zero_mul, Nat.zero_mod, Nat.zero_div]
    split <;> exact congrArg some power
  rw [powAbs, if_neg (Nat.ne_of_gt unit_pos), powMagnitude, exact]

/-- A whole number is finite. -/
theorem isFinite_of_isInteger (whole : y.isInteger = true) : y.isFinite = true := by
  cases y with
  | nan => cases whole
  | infinite t => cases whole
  | finite t n => rfl

/-- Zero is a whole number, and even. -/
theorem isInteger_of_isZero (zero : y.isZero = true) :
    y.isInteger = true ∧ y.isOddInteger = false := by
  obtain ⟨t, n, rfl⟩ := exists_eq_finite (isFinite_of_isZero zero)
  rw [isInteger, isOddInteger, beq_iff_eq.1 zero, Nat.zero_mod, Nat.zero_div]
  exact ⟨rfl, rfl⟩

/-- **To a whole power a number has the power of its magnitude,** with its sign if the exponent is
odd. -/
theorem finite_pow_of_isInteger (s : Bool) (m : Magnitude) (h : y.isZero = false)
    (whole : y.isInteger = true) :
    (finite s m).pow y = (powAbs (some m.quanta) y).withSign (s && y.isOddInteger) := by
  obtain ⟨t, n, rfl⟩ := exists_eq_finite (isFinite_of_isInteger whole)
  by_cases eq : finite s m = one
  · rw [eq, one_pow]
    rw [one_eq] at eq
    cases eq
    rw [powAbs_unit, Bool.false_and, one_withSign, one_eq]
  · rw [finite_pow h rfl eq, whole, Bool.not_true, Bool.and_false]
    rfl

/-- A sign that counts in an odd number of factors. -/
theorem withSign_not_and (s odd : Bool) (x : Binary64) :
    x.withSign (!s && odd) =
      if odd then -x.withSign (s && odd) else x.withSign (s && odd) := by
  cases odd with
  | true => cases s <;> cases x <;> rfl
  | false => rw [Bool.and_false, Bool.and_false, if_neg Bool.false_ne_true]

/-- **The sign of the base is one of the power exactly if the exponent is odd.** -/
theorem neg_pow (x : Binary64) (whole : y.isInteger = true) :
    (-x).pow y = if y.isOddInteger then -x.pow y else x.pow y := by
  have number : y.isNaN = false := by
    obtain ⟨t, n, rfl⟩ := exists_eq_finite (isFinite_of_isInteger whole)
    rfl
  cases zero : y.isZero with
  | true =>
    rw [pow_of_isZero _ zero, pow_of_isZero _ zero, (isInteger_of_isZero zero).2,
      if_neg Bool.false_ne_true]
  | false =>
    cases x with
    | nan => rw [neg_nan, nan_pow zero, neg_nan, ite_self]
    | infinite s =>
      rw [neg_infinite, infinite_pow _ zero number, infinite_pow _ zero number]
      exact withSign_not_and s _ _
    | finite s m =>
      rw [neg_finite, finite_pow_of_isInteger _ m zero whole,
        finite_pow_of_isInteger _ m zero whole]
      exact withSign_not_and s _ _

/-- What is below zero is neither zero nor NaN, and is negative. -/
theorem of_isBelowZero (h : y.isBelowZero = true) :
    y.isZero = false ∧ y.isNaN = false ∧ y.isNegative = true := by
  obtain ⟨sign, nonzero⟩ := Bool.and_eq_true_iff.1 h
  refine ⟨by simpa using nonzero, ?_, sign⟩
  cases y with
  | nan => cases sign
  | infinite t => rfl
  | finite t n => rfl

/-- What is above zero is neither zero nor NaN, and is not negative. -/
theorem of_isAboveZero (h : y.isAboveZero = true) :
    y.isZero = false ∧ y.isNaN = false ∧ y.isNegative = false := by
  obtain ⟨nonzero, number, sign⟩ := of_isBelowZero h
  rw [isZero_neg] at nonzero
  refine ⟨nonzero, ?_⟩
  cases y with
  | nan => cases number
  | infinite t => exact ⟨rfl, by simpa [isNegative] using sign⟩
  | finite t n => exact ⟨rfl, by simpa [isNegative] using sign⟩

/-- To a power other than zero a zero is infinite or zero. -/
theorem powAbs_zero (number : y.isNaN = false) :
    powAbs (some 0) y = if y.isNegative then infinite false else zero false := by
  cases y with
  | nan => cases number
  | infinite t =>
    rw [powAbs, if_neg (Nat.ne_of_lt unit_pos), decide_eq_true unit_pos]
    cases t <;> rfl
  | finite t n =>
    rw [powAbs, if_pos rfl]
    rfl

/-- **A zero to a power other than zero** is infinite if the power is negative, and zero if it is
positive, with the sign of the zero if the exponent is odd.  No infinite exponent is. -/
theorem zero_pow (s : Bool) (nonzero : y.isZero = false) (number : y.isNaN = false) :
    (zero s).pow y =
      (if y.isNegative then infinite false else zero false).withSign (s && y.isOddInteger) := by
  have differ : finite s ⟨0, representable_zero⟩ ≠ one := ne_one_of_isZero rfl
  rw [zero, finite_pow nonzero number differ, powAbs_zero number, if_neg (by simp)]

/-- **To an infinite power** a number goes to zero or to infinity, unless it is one in size. -/
theorem finite_pow_infinite (s t : Bool) (m : Magnitude) :
    (finite s m).pow (infinite t) =
      if m.quanta = unit then one
      else if decide (m.quanta < unit) == t then infinite false else zero false := by
  by_cases eq : finite s m = one
  · rw [eq, one_pow, if_pos (quanta_eq_of_finite_eq (eq.trans one_eq))]
  · rw [finite_pow rfl rfl eq, if_neg (by simp [isFinite])]
    have odd : (s && (infinite t).isOddInteger) = false := Bool.and_false s
    rw [odd, powAbs]
    split
    · rw [one_withSign, one_eq]
    · split <;> rfl

/-- **A negative number has no power to a fraction.** -/
theorem pow_of_not_isInteger (below : x.isBelowZero = true) (hx : x.isFinite = true)
    (hy : y.isFinite = true) (fraction : y.isInteger = false) : x.pow y = nan := by
  obtain ⟨s, m, rfl⟩ := exists_eq_finite hx
  obtain ⟨t, n, rfl⟩ := exists_eq_finite hy
  have nonzero : (finite t n).isZero = false := by
    refine Bool.eq_false_iff.2 fun zero => ?_
    rw [(isInteger_of_isZero zero).1] at fraction
    cases fraction
  have sign : s = true := (Bool.and_eq_true_iff.1 below).1
  have base : (m.quanta != 0) = true := (Bool.and_eq_true_iff.1 below).2
  have differ : finite s m ≠ one := by
    rw [one_eq, sign]
    exact fun eq => by cases eq
  rw [finite_pow nonzero rfl differ, fraction, base, sign]
  rfl

/-- An infinity that has been given a sign is the infinity with that sign. -/
theorem withSign_eq_infinite (h : (x.withSign s).isInfinite = true) :
    x.withSign s = infinite s := by
  cases x with
  | nan => cases h
  | infinite t => rfl
  | finite t m => cases h

/-- **An infinite power has its sign from the base,** if the exponent is odd. -/
theorem finite_pow_eq_infinite (h : ((finite s m).pow y).isInfinite = true) :
    (finite s m).pow y = infinite (s && y.isOddInteger) := by
  have bounded : one.isInfinite = false := by
    rw [one_eq]
    rfl
  cases zero : y.isZero with
  | true =>
    rw [pow_of_isZero _ zero, bounded] at h
    cases h
  | false =>
    by_cases eq : finite s m = one
    · rw [eq, one_pow, bounded] at h
      cases h
    have number : y.isNaN = false := by
      cases y with
      | nan =>
        rw [pow_nan eq] at h
        cases h
      | infinite t => rfl
      | finite t n => rfl
    rw [finite_pow zero number eq] at h ⊢
    split at h
    · cases h
    · rename_i proper
      rw [if_neg proper]
      exact withSign_eq_infinite h

/-- A zero has a power to every finite exponent. -/
theorem isNaN_zero_pow (hx : x.isZero = true) (hy : y.isFinite = true) :
    (x.pow y).isNaN = false := by
  cases zero : y.isZero with
  | true =>
    rw [pow_of_isZero x zero, one_eq]
    rfl
  | false =>
    obtain ⟨s, m, rfl⟩ := exists_eq_finite (isFinite_of_isZero hx)
    obtain ⟨t, n, rfl⟩ := exists_eq_finite hy
    have base : m.quanta = 0 := beq_iff_eq.1 hx
    rw [finite_pow zero rfl (ne_one_of_isZero hx), base, powAbs, if_pos rfl, if_neg (by simp)]
    cases t <;> rfl

/-- **The powers that have a rule of their own are as listed.** -/
theorem SpecialPower.pow_eq {z : Binary64} (h : SpecialPower x y z) : x.pow y = z := by
  cases h with
  | zeroExponent x s => exact pow_of_isZero x rfl
  | oneBase y => exact one_pow y
  | nanBase nonzero => exact nan_pow nonzero
  | nanExponent differ => exact pow_nan differ
  | fraction below hx hy h => exact pow_of_not_isInteger below hx hy h
  | zeroBelow s below =>
    obtain ⟨nonzero, number, sign⟩ := of_isBelowZero below
    rw [zero_pow s nonzero number, sign]
    rfl
  | zeroAbove s above =>
    obtain ⟨nonzero, number, sign⟩ := of_isAboveZero above
    rw [zero_pow s nonzero number, sign]
    rfl
  | minusOne t =>
    rw [one_eq, neg_finite, finite_pow_infinite, if_pos rfl, one_eq]
  | small s t small =>
    rw [finite_pow_infinite, if_neg (Nat.ne_of_lt small), decide_eq_true small]
    cases t <;> rfl
  | large s t large =>
    rw [finite_pow_infinite, if_neg (Nat.ne_of_gt large), decide_eq_false (Nat.lt_asymm large)]
    cases t <;> rfl
  | infiniteBelow s below =>
    obtain ⟨nonzero, number, sign⟩ := of_isBelowZero below
    rw [infinite_pow s nonzero number, powAbs_none, sign]
    rfl
  | infiniteAbove s above =>
    obtain ⟨nonzero, number, sign⟩ := of_isAboveZero above
    rw [infinite_pow s nonzero number, powAbs_none, sign]
    rfl

end Powers

end Binary64

namespace Guarded

open Binary64

/-- **The remainder by two tells the odd numbers,** whatever their sign and size. -/
theorem isOdd_eq (x : Binary64) : isOdd x = x.isOddInteger := by
  cases x with
  | nan => rfl
  | infinite s => rfl
  | finite s m =>
    rw [isOdd, isInteger, isOddInteger]
    cases whole : m.quanta % unit == 0 with
    | false => rw [Bool.false_and, Bool.false_and]
    | true =>
      have same : one.same one = true := by
        rw [one_eq]
        exact same_self false _
      have differ : (Binary64.zero false).same one = false := by
        rw [one_eq]
        exact zero_same_mk representable_units.1 (Nat.ne_of_gt unit_pos)
      rw [floorRem_two (beq_iff_eq.1 whole), Bool.true_and, Bool.true_and]
      split
      · rename_i odd
        rw [same, odd]
        rfl
      · rename_i even
        rw [differ, beq_eq_false_iff_ne.2 even]

/-- **The guarded quotient is the quotient.** -/
theorem div_eq (x y : Binary64) : div x y = .ok (x / y) := by
  unfold div
  split
  · rename_i zero
    rw [div_of_isZero x zero, infinite_mul_one]
    split <;> rfl
  · rename_i nonzero
    exact if_neg nonzero

/-- **The guarded power is the power:** what stands in for a refusal is what was refused. -/
theorem pow_eq (x y : Binary64) : pow x y = .ok (x.pow y) := by
  rw [pow, Trapping.pow]
  cases refused : x.isFinite && y.isFinite && !(x.pow y).isFinite with
  | false => rfl
  | true =>
    simp only [Bool.and_eq_true, Bool.not_eq_true'] at refused
    obtain ⟨⟨hx, hy⟩, notFinite⟩ := refused
    obtain ⟨s, m, rfl⟩ := exists_eq_finite hx
    cases power : (finite s m).pow y with
    | finite t n =>
      rw [power] at notFinite
      cases notFinite
    | nan =>
      have nonzero : (finite s m).isZero = false := by
        refine Bool.eq_false_iff.2 fun zero => ?_
        have number := isNaN_zero_pow zero hy
        rw [power] at number
        cases number
      rw [nonzero]
      rfl
    | infinite t =>
      have sign : infinite t = infinite (s && isOdd y) := by
        rw [← power, isOdd_eq]
        exact finite_pow_eq_infinite (by rw [power]; rfl)
      rw [sign]
      cases zero : (finite s m).isZero with
      | false =>
        -- An overflow: the sign is that of a base below zero, which is not zero.
        have below : (finite s m).isBelowZero = s := by
          rw [isBelowZero, zero]
          exact Bool.and_true s
        rw [below]
        rfl
      | true =>
        -- The power of a zero: the sign is the sign bit of the zero.
        cases isOdd y with
        | false =>
          rw [Bool.and_false]
          rfl
        | true =>
          rw [Bool.and_true]
          rfl

/-- **The guarded quotient and power have a result for all operands, the one of IEEE 754.**  The
guarded power agrees with the power, which refuses nothing.  A zero divisor gives an infinity with
the product of the signs, or NaN; a zero base with a negative exponent an infinity, negative if the
zero is and the exponent is odd; a negative base with a fraction in the exponent NaN; and a power
too large for a double an infinity, negative if the base is and the exponent is odd.  So the sign of
either operand is a sign of the quotient, and that of the base one of the power exactly if the
exponent is odd. -/
theorem special_values :
    (∀ x y, ∃ z, div x y = .ok z ∧ IsQuotient x y z) ∧
    (∀ x y, pow x y = .ok (x.pow y) ∧ ∀ z, SpecialPower x y z → pow x y = .ok z) ∧
    (∀ x s, div x (.zero s) =
      .ok (if x.isZero || x.isNaN then .nan else .infinite (x.isNegative ^^ s))) ∧
    (∀ s y, y.isBelowZero = true → pow (.zero s) y = .ok (.infinite (s && y.isOddInteger))) ∧
    (∀ x y, x.isBelowZero = true → x.isFinite = true → y.isFinite = true → y.isInteger = false →
      pow x y = .ok .nan) ∧
    (∀ x y, x.isFinite = true → x.isZero = false → y.isFinite = true →
      (x.pow y).isInfinite = true →
        pow x y = .ok (.infinite (x.isBelowZero && y.isOddInteger))) ∧
    (∀ x y z, div x y = .ok z → div (-x) y = .ok (-z) ∧ div x (-y) = .ok (-z)) ∧
    ∀ x n z, n.isInteger = true → pow x n = .ok z →
      pow (-x) n = .ok (if n.isOddInteger then -z else z) := by
  refine ⟨fun x y => ⟨_, div_eq x y, isQuotient_div x y⟩,
    fun x y => ⟨pow_eq x y, fun z special => ?_⟩, fun x s => ?_, fun s y below => ?_,
    fun x y below hx hy fraction => ?_, fun x y hx nonzero _ large => ?_,
    fun x y z quotient => ?_, fun x n z whole power => ?_⟩
  · rw [pow_eq, special.pow_eq]
  · rw [div_eq, div_of_isZero x rfl]
    rfl
  · rw [pow_eq, (SpecialPower.zeroBelow s below).pow_eq]
  · rw [pow_eq, (SpecialPower.fraction below hx hy fraction).pow_eq]
  · obtain ⟨s, m, rfl⟩ := exists_eq_finite hx
    rw [pow_eq, finite_pow_eq_infinite large, isBelowZero, nonzero, Bool.not_false, Bool.and_true]
    rfl
  · rw [div_eq, Except.ok.injEq] at quotient
    rw [div_eq, div_eq, neg_div, div_neg, quotient]
    exact ⟨rfl, rfl⟩
  · rw [pow_eq, Except.ok.injEq] at power
    rw [pow_eq, neg_pow x whole, power]

/-- Minus ten to the power 401 is too large, a negative zero to the power minus three is infinite,
and minus eight has no power to a half. -/
theorem special_values_of_negative_bases :
    pow (-Binary64.ofNat 10) (.ofNat 401) = .ok (.infinite true) ∧
    pow (.zero true) (-Binary64.ofNat 3) = .ok (.infinite true) ∧
    pow (-Binary64.ofNat 8) (.ofBits 0x3FE0000000000000) = .ok .nan ∧
    div (-Binary64.one) (.zero true) = .ok (.infinite false) ∧
    pow (-Binary64.ofNat 2) (.ofNat 5) = .ok (-Binary64.ofNat 32) := by
  obtain ⟨-, agree, zeroDivisor, zeroBase, fraction, overflow, quotient, power⟩ := special_values
  have odd : (Binary64.ofNat 401).isOddInteger = true ∧ (-Binary64.ofNat 3).isOddInteger = true ∧
      (Binary64.ofNat 5).isOddInteger = true := by decide +kernel
  have below : (-Binary64.ofNat 10).isBelowZero = true := by decide +kernel
  have one : (Binary64.one.isZero || Binary64.one.isNaN) = false ∧
      Binary64.one.isNegative = false := by decide +kernel
  refine ⟨?_, ?_, ?_, ?_, ?_⟩
  · rw [overflow _ _ (by decide +kernel) (by decide +kernel) (by decide +kernel)
      (by decide +kernel), odd.1, below]
    rfl
  · rw [zeroBase _ _ (by decide +kernel), odd.2.1]
    rfl
  · exact fraction _ _ (by decide +kernel) (by decide +kernel) (by decide +kernel)
      (by decide +kernel)
  · rw [(quotient _ _ _ (zeroDivisor Binary64.one true)).1, one.1, one.2]
    rfl
  · have thirtyTwo : (Binary64.ofNat 2).pow (.ofNat 5) = .ofNat 32 := by decide +kernel
    rw [power (.ofNat 2) (.ofNat 5) (.ofNat 32) (by decide +kernel)
      ((agree _ _).1.trans (congrArg Except.ok thirtyTwo)), odd.2.2]
    rfl

end Guarded
end DeskCalculator
