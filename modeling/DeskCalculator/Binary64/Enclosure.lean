/-
# Rounding a number known only between two bounds

The sine of a double is no quotient of whole numbers, but it can be enclosed between two of them as
tightly as one likes. Where both bounds round to one double, so does the number between them, since
rounding is monotone. `settle` asks for tighter and tighter enclosures until that happens. A number
that is itself a double, or halfway between two, would never settle: the callers answer those
exactly before they come here.
-/

import DeskCalculator.Binary64.Arithmetic

namespace DeskCalculator
namespace Binary64

/-- A number other than zero whose magnitude lies between `low * 2 ^ exponent` and
`high * 2 ^ exponent`. -/
structure Enclosure where
  negative : Bool
  low : Nat
  high : Nat
  exponent : Int

/-- The double nearest to `m * 2 ^ e`. -/
def ofScaled (negative : Bool) (m : Nat) (e : Int) : Binary64 :=
  ofRatio negative (m * Nat.pow 2 (e + 1074).toNat) (Nat.pow 2 (-(e + 1074)).toNat)

namespace Enclosure

/-- The lower bound, rounded. -/
def lowest (b : Enclosure) : Binary64 := ofScaled b.negative b.low b.exponent

/-- The double that every number between the bounds rounds to, if there is one. -/
def rounded? (b : Enclosure) : Option Binary64 :=
  let x := b.lowest
  if ofScaled b.negative b.high b.exponent = x then some x else none

/-- All numbers within `slack` of `v`, in units of `2 ^ -places`. -/
def around (v : Int) (slack places : Nat) : Enclosure :=
  ⟨v < 0, v.natAbs - slack, v.natAbs + slack, -places⟩

/-- All quotients of a number within `slack` of `a` and one within `slack` of `b`, in units of
`2 ^ -places`. Where `b` may be zero the upper bound is below the lower one, and nothing
settles. -/
def quotient (a b : Int) (slack places : Nat) : Enclosure :=
  let scale := Nat.pow 2 places
  { negative := (a < 0) != (b < 0)
    low := (a.natAbs - slack) * scale / (b.natAbs + slack)
    high := if b.natAbs ≤ slack then 0 else (a.natAbs + slack) * scale / (b.natAbs - slack) + 1
    exponent := -places }

end Enclosure

/-- The numbers of binary places worked with, one after the other. The functions of the calculator
settle at the first or second one for every double known to be hard. -/
def workingPlaces : List Nat := [128, 256, 512, 1024, 2048, 4096]

/-- The double nearest to the number that `enclose` encloses at every number of places; the bound
of the last try stands in where none is tight enough. -/
def settle (enclose : Nat → Enclosure) : List Nat → Binary64
  | [] => zero false
  | [places] => (enclose places).lowest
  | places :: more =>
    match (enclose places).rounded? with
    | some x => x
    | none => settle enclose more

end Binary64
end DeskCalculator
