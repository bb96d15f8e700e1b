/-
# Operations that refuse operands

The operations as a platform offers them. They have the results of IEEE 754, but where an infinity
or NaN would come up that the operands do not bring along, most of them refuse the operands with a
*trap*.

| operation | refuses | trap |
| --- | --- | --- |
| `x / y` | a zero divisor | `zeroDivision` |
| `x ^ y` | finite operands of an infinite power, the base not being zero | `overflow` |
| | finite operands of any other power that is not finite | `domain` |
| `x rem y` | operands other than NaN whose remainder is NaN | `domain` |
| `√x` | what is below zero | `domain` |
| `ln x`, `log x` | zero and what is below it | `domain` |
| `sin x`, `cos x`, `tan x` | an infinity | `domain` |
-/

import DeskCalculator.Binary64.Circular
import DeskCalculator.Binary64.Logarithm
import DeskCalculator.Binary64.Power

namespace DeskCalculator

/-- Why an operation refuses its operands. -/
inductive Trap where
  | zeroDivision
  | overflow
  | domain
  deriving DecidableEq

namespace Trapping

/-- The quotient. -/
def div (x y : Binary64) : Except Trap Binary64 :=
  if y.isZero then .error .zeroDivision else .ok (x / y)

/-- The power. -/
def pow (x y : Binary64) : Except Trap Binary64 :=
  let z := x.pow y
  if x.isFinite && y.isFinite && !z.isFinite then
    if z.isInfinite && !x.isZero then .error .overflow else .error .domain
  else .ok z

/-- The remainder. -/
def rem (x y : Binary64) : Except Trap Binary64 :=
  let z := x.rem y
  if z.isNaN && !x.isNaN && !y.isNaN then .error .domain else .ok z

/-- A function that is not offered for some operands. -/
def restricted (refuses : Binary64 → Bool) (f : Binary64 → Binary64) (x : Binary64) :
    Except Trap Binary64 :=
  if refuses x then .error .domain else .ok (f x)

/-- The square root. -/
def sqrt : Binary64 → Except Trap Binary64 := restricted Binary64.isBelowZero .sqrt

/-- The natural logarithm. -/
def ln : Binary64 → Except Trap Binary64 := restricted (fun x => x.isZero || x.isBelowZero) .ln

/-- The decimal logarithm. -/
def log10 : Binary64 → Except Trap Binary64 :=
  restricted (fun x => x.isZero || x.isBelowZero) .log10

/-- The sine of an angle in radians. -/
def sin : Binary64 → Except Trap Binary64 := restricted Binary64.isInfinite .sin

/-- The cosine of an angle in radians. -/
def cos : Binary64 → Except Trap Binary64 := restricted Binary64.isInfinite .cos

/-- The tangent of an angle in radians. -/
def tan : Binary64 → Except Trap Binary64 := restricted Binary64.isInfinite .tan

end Trapping
end DeskCalculator
