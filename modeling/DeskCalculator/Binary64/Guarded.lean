/-
# Operations that have a result for all operands

Each looks at its operands, or catches the trap of the operation below it, and puts the infinity or
NaN of IEEE 754 in the place of a refusal. So infinities and NaN can go through an expression, and
only its final result is judged.

The circular functions take degrees.
-/

import DeskCalculator.Binary64.Trapping

namespace DeskCalculator
namespace Guarded

/-- The quotient. A zero divisor gives the infinity with the sign of the quotient, or NaN. -/
def div (x y : Binary64) : Except Trap Binary64 :=
  if y.isZero then
    if x.isZero || x.isNaN then .ok .nan
    else .ok (.infinite x.isNegative * Binary64.one.withSign y.isNegative)
  else Trapping.div x y

/-- Whether a number is whole and leaves one when it is divided by two, rounding down. -/
def isOdd (x : Binary64) : Bool := x.isInteger && (x.floorRem (.ofNat 2)).same .one

/-- The power. One that is too large is an infinity, and so is that of a zero; any other refusal is
for a negative base with a fraction in the exponent. -/
def pow (x y : Binary64) : Except Trap Binary64 :=
  match Trapping.pow x y with
  | .error .overflow => .ok (.infinite (x.isBelowZero && isOdd y))
  | .error .domain =>
    if x.isZero then
      if isOdd y then .ok (Binary64.withSign x.isNegative (.infinite false))
      else .ok (.infinite false)
    else .ok .nan
  | outcome => outcome

/-- The remainder. -/
def rem (x y : Binary64) : Except Trap Binary64 :=
  match Trapping.rem x y with
  | .error .domain => .ok .nan
  | outcome => outcome

/-- A circular function of an angle in degrees, from the one of radians. -/
def circular (f : Binary64 → Except Trap Binary64) (x : Binary64) : Except Trap Binary64 :=
  if x.isInfinite then .ok .nan else f x.toRadians

/-- The square root. -/
def sqrt (x : Binary64) : Except Trap Binary64 :=
  if x.isBelowZero then .ok .nan else Trapping.sqrt x

/-- A logarithm of any number, from the one of the positive numbers. -/
def logarithm (f : Binary64 → Except Trap Binary64) (x : Binary64) : Except Trap Binary64 :=
  if x.isZero then .ok (.infinite true)
  else if x.isBelowZero then .ok .nan
  else f x

end Guarded
end DeskCalculator
