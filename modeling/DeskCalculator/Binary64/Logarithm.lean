/-
# Logarithms

The natural and the decimal logarithm of a double, rounded correctly. The logarithm of a zero is
minus infinity, that of a negative number is NaN. Only `ln 1` and the decimal logarithms of the
powers of ten that are doubles, up to `10 ^ 22`, are themselves doubles; they are answered exactly.
-/

import DeskCalculator.Binary64.Enclosure
import DeskCalculator.Binary64.Series

namespace DeskCalculator
namespace Binary64

/-- The natural logarithm. -/
def ln : Binary64 → Binary64
  | .nan => .nan
  | .infinite negative => if negative then .nan else .infinite false
  | .finite negative m =>
    if m.quanta = 0 then .infinite true
    else if negative then .nan
    else if m.quanta = unit then zero false
    else
      settle (fun p =>
        let places := p + Series.slackBits
        .around (Series.ln places m.quanta 1074) Series.slack places) workingPlaces

/-- The exponent of a power of ten that is a double and at least one. -/
def powerOfTen? (n : Nat) : Option Nat :=
  (List.range 23).find? fun k => n == Nat.pow 10 k * unit

/-- The decimal logarithm. -/
def log10 : Binary64 → Binary64
  | .nan => .nan
  | .infinite negative => if negative then .nan else .infinite false
  | .finite negative m =>
    if m.quanta = 0 then .infinite true
    else if negative then .nan
    else
      match powerOfTen? m.quanta with
      | some k => ofNat k
      | none =>
        settle (fun p =>
          let places := p + Series.slackBits
          .quotient (Series.ln places m.quanta 1074) (Series.ln10 places) Series.slack places)
          workingPlaces

end Binary64
end DeskCalculator
