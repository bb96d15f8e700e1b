/-
# Powers

`pow x y` is `x` to the power `y`, rounded correctly, with the special values that IEEE 754 gives:
anything to a zero power and one to any power are one, a zero to a negative power is infinite, and
a negative number has a power only for a whole exponent, whose oddness decides the sign.

The power of a positive magnitude is `exp (y * ln x)`, enclosed and settled. Powers that are
fractions of a power of two would not settle if they were doubles or halfway between two, so they
are found first. With `x = m * 2 ^ e` for an odd `m`:

* for `m = 1` the power is `2 ^ (e * y)`, where that exponent is whole;
* for `m ≥ 3` the exponent has to be positive, and `x` has to have an exact square root for every
  halving in `y`; a whole exponent above 64 leaves more digits than any double or midpoint has.
-/

import DeskCalculator.Binary64.Enclosure
import DeskCalculator.Binary64.Series

namespace DeskCalculator
namespace Binary64

/-- `2 ^ k` for a `k` of any size: far beyond the doubles it is an infinity or zero. -/
def twoPow (k : Int) : Binary64 :=
  if 1100 < k then .infinite false
  else if k < -1100 then zero false
  else ofScaled false 1 k

/-- The power `(m * 2 ^ e) ^ (n / unit)` for an odd `m` of at least three, if it is a whole
number times a power of two with few digits. A fractional exponent is doubled while the base has an
exact square root. -/
def dyadicPower? : Nat → Nat → Int → Nat → Option Binary64
  | 0, _, _, _ => none
  | fuel + 1, m, e, n =>
    if n % unit = 0 then
      let k := n / unit
      if k ≤ 64 then some (ofScaled false (Nat.pow m k) (e * k)) else none
    else
      let root := floorSqrt m
      if e % 2 = 0 ∧ root * root = m then dyadicPower? fuel root (e / 2) (2 * n) else none

/-- The power of `base` quanta to plus or minus `n` quanta, where it is exact. -/
def exactPower? (base : Nat) (negative : Bool) (n : Nat) : Option Binary64 :=
  let twos := base.gcd limit
  let m := base / twos
  let e := (twos.log2 : Int) - 1074
  if m = 1 then
    let exponent := e.natAbs * n
    if exponent % unit = 0 then
      let k : Int := (exponent / unit : Nat)
      some (twoPow (if (e < 0) != negative then -k else k))
    else none
  else if negative then none
  else dyadicPower? 64 m e n

/-- `exp (y * ln x)` for `x` of `base` quanta and `y` of plus or minus `n` quanta. -/
def enclosePower (base : Nat) (negative : Bool) (n places : Nat) : Enclosure :=
  let p := places + Series.slackBits
  let wide := p + (n.log2 + 4 - 1074) + 4
  let log := Series.ln wide base 1074
  let size := n * log.natAbs / Nat.pow 2 (1074 + wide - p)
  let t : Int := if (log < 0) != negative then -(size : Int) else size
  let ln2 : Int := Series.ln2 p
  let k := t / ln2
  let v := Series.exp p (t - k * ln2).toNat
  ⟨false, v - Series.slack, v + Series.slack, k - p⟩

/-- Whether `y * ln x` is beyond 1100 in size, so that its exponential is no finite double but an
infinity or zero; then whether it is positive. -/
def farPower? (base : Nat) (negative : Bool) (n : Nat) : Option Bool :=
  let log := Series.ln (64 + (n.log2 - 1074)) base 1074
  let size := n * log.natAbs / Nat.pow 2 (1074 + 64 + (n.log2 - 1074))
  if 1100 < size then some ((log < 0) == negative) else none

/-- The power of a positive magnitude to an exponent of plus or minus `n` quanta, neither zero. -/
def powMagnitude (base : Nat) (negative : Bool) (n : Nat) : Binary64 :=
  match exactPower? base negative n with
  | some x => x
  | none =>
    match farPower? base negative n with
    | some true => .infinite false
    | some false => zero false
    | none => settle (enclosePower base negative n) workingPlaces

/-- The magnitude of the power of a magnitude, `none` being an infinite one. -/
def powAbs (base : Option Nat) (y : Binary64) : Binary64 :=
  match base, y with
  | none, y => if y.isNegative then zero false else .infinite false
  | some base, .infinite negative =>
    if base = unit then one
    else if (base < unit) == negative then .infinite false
    else zero false
  | some base, .finite negative m =>
    if base = 0 then (if negative then .infinite false else zero false)
    else powMagnitude base negative m.quanta
  | _, .nan => .nan

/-- `x` to the power `y`. -/
def pow (x y : Binary64) : Binary64 :=
  if y.isZero || x = one then one
  else
    match x, y with
    | .nan, _ | _, .nan => .nan
    | .infinite negative, y => (powAbs none y).withSign (negative && y.isOddInteger)
    | .finite negative m, y =>
      if negative && m.quanta != 0 && y.isFinite && !y.isInteger then .nan
      else (powAbs (some m.quanta) y).withSign (negative && y.isOddInteger)

end Binary64
end DeskCalculator
