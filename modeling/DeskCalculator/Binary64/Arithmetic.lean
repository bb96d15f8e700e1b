/-
# Arithmetic

Sum, difference, product, quotient, remainder and square root of doubles: the exact result in
quanta, rounded once. Division by zero, `inf - inf` and the like have the values that IEEE 754
gives them, so no operation fails.

| operation | exact result in quanta |
| --- | --- |
| `n + m` | `n + m` |
| `n * m` | `n * m / unit` |
| `n / m` | `n * unit / m` |
| `n rem m` | `n % m`, which is representable, with the sign of the dividend |
| `√n` | `√(n * unit)` |
-/

import DeskCalculator.Binary64.Bits

namespace DeskCalculator
namespace Binary64

/-- The sum; an exact sum of zero is positive unless both operands are negative zeros. -/
def add : Binary64 → Binary64 → Binary64
  | .nan, _ | _, .nan => .nan
  | .infinite s, .infinite t => if s = t then .infinite s else .nan
  | .infinite s, .finite _ _ => .infinite s
  | .finite _ _, .infinite t => .infinite t
  | .finite s m, .finite t n =>
    let total := signedQuanta s m + signedQuanta t n
    if total = 0 then zero (s && t) else ofQuanta (total < 0) total.natAbs

instance : Add Binary64 := ⟨add⟩

/-- The difference is the sum with the other sign. -/
def sub (x y : Binary64) : Binary64 := x + -y

instance : Sub Binary64 := ⟨sub⟩

/-- The product; zero times infinity is NaN. -/
def mul : Binary64 → Binary64 → Binary64
  | .nan, _ | _, .nan => .nan
  | .infinite s, .infinite t => .infinite (s ^^ t)
  | .infinite s, .finite t n => if n.quanta = 0 then .nan else .infinite (s ^^ t)
  | .finite s m, .infinite t => if m.quanta = 0 then .nan else .infinite (s ^^ t)
  | .finite s m, .finite t n => ofRatio (s ^^ t) (m.quanta * n.quanta) unit

instance : Mul Binary64 := ⟨mul⟩

/-- The quotient: dividing a nonzero number by zero gives an infinity, and a zero NaN. -/
def div : Binary64 → Binary64 → Binary64
  | .nan, _ | _, .nan => .nan
  | .infinite _, .infinite _ => .nan
  | .infinite s, .finite t _ => .infinite (s ^^ t)
  | .finite s _, .infinite t => zero (s ^^ t)
  | .finite s m, .finite t n =>
    if n.quanta = 0 then
      if m.quanta = 0 then .nan else .infinite (s ^^ t)
    else
      ofRatio (s ^^ t) (m.quanta * unit) n.quanta

instance : Div Binary64 := ⟨div⟩

/-- The remainder of the quotient truncated toward zero, with the sign of the dividend. It needs
no rounding: it is a multiple of the finer of the two grids and below the divisor. -/
def rem : Binary64 → Binary64 → Binary64
  | .nan, _ | _, .nan => .nan
  | .infinite _, _ => .nan
  | x@(.finite _ _), .infinite _ => x
  | .finite s m, .finite _ n =>
    if n.quanta = 0 then .nan else ofQuanta s (m.quanta % n.quanta)

/-- The remainder of the quotient rounded down, with the sign of the divisor. -/
def floorRem (x y : Binary64) : Binary64 :=
  let r := x.rem y
  if r.isZero then zero y.isNegative
  else if r.isBelowZero = y.isBelowZero then r
  else r + y

/-- The integer part of the square root: double that of a quarter, and one more if it fits. -/
def floorSqrt (n : Nat) : Nat :=
  if h : n = 0 then 0
  else
    let r := 2 * floorSqrt (n / 4)
    if (r + 1) * (r + 1) ≤ n then r + 1 else r
  termination_by n
  decreasing_by omega

/-- The square root; that of `-0` is `-0`, that of any other negative number NaN. A root that is
not a whole number of half quanta is moved to the middle between two of them, which rounds
alike. -/
def sqrt : Binary64 → Binary64
  | .nan => .nan
  | .infinite negative => if negative then .nan else .infinite false
  | x@(.finite negative m) =>
    if m.quanta = 0 then x
    else if negative then .nan
    else
      let square := 4 * (m.quanta * unit)
      let root := floorSqrt square
      let sticky := if root * root = square then 0 else 1
      ofRatio false (2 * root + sticky) 4

/-- Finite and equal to a whole number. -/
def isInteger : Binary64 → Bool
  | .finite _ m => m.quanta % unit == 0
  | _ => false

/-- Finite and equal to an odd whole number. -/
def isOddInteger : Binary64 → Bool
  | .finite _ m => m.quanta % unit == 0 && m.quanta / unit % 2 == 1
  | _ => false

/-- The whole number toward zero; NaN and the infinities have none. -/
def truncate? : Binary64 → Option Int
  | .finite negative m =>
    let n : Int := (m.quanta / unit : Nat)
    some (if negative then -n else n)
  | _ => none

/-- Whether two numbers are equal as numbers: the zeros are one number, NaN differs from itself. -/
def same : Binary64 → Binary64 → Bool
  | .infinite s, .infinite t => s == t
  | .finite s m, .finite t n => signedQuanta s m == signedQuanta t n
  | _, _ => false

end Binary64
end DeskCalculator
