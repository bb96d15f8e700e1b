/-
# Written forms of a double

Both forms have the digits of the shortest decimal that reads back.

| form | `10 ^ 16` | `0.00001` | one | zeros |
| --- | --- | --- | --- | --- |
| `plain`: what the display shows | `10000000000000000` | `0.00001` | `1` | `0` |
| `literal`: what files, logs and trees show | `1e+16` | `1e-05` | `1.0` | `0.0`, `-0.0` |

The plain form can be typed back in: it is never in exponent notation.
-/

import DeskCalculator.Decimal.Shortest

namespace DeskCalculator
namespace Decimal

/-- All digits in place around the decimal point, without a point in a whole number. -/
def positional (d : Decimal) : List Char :=
  let digits := d.digits
  let places := (-d.exponent).toNat
  if places = 0 then
    digits ++ List.replicate d.exponent.toNat '0'
  else if places < digits.length then
    digits.take (digits.length - places) ++ '.' :: digits.drop (digits.length - places)
  else
    '0' :: '.' :: (List.replicate (places - digits.length) '0' ++ digits)

/-- The exponent of the first digit. -/
def leading (d : Decimal) : Int := d.digits.length - 1 + d.exponent

/-- The first digit, the others behind a point, and the first one's exponent with its sign and two
digits or more. -/
def scientific (d : Decimal) : List Char :=
  let exponent := Nat.toDigits 10 d.leading.natAbs
  let padded := if exponent.length < 2 then '0' :: exponent else exponent
  let rest := d.digits.tail
  d.digits.take 1 ++ (if rest.isEmpty then [] else '.' :: rest) ++
    'e' :: (if d.leading < 0 then '-' else '+') :: padded

/-- Positional from `10 ^ -4` up to `10 ^ 16`, where a whole number shows `.0`, and scientific
elsewhere. -/
def literal (d : Decimal) : List Char :=
  if -4 ≤ d.leading ∧ d.leading < 16 then
    d.positional ++ (if 0 ≤ d.exponent then ['.', '0'] else [])
  else
    d.scientific

end Decimal

namespace Binary64

/-- A minus sign for a negative number. -/
def signText (negative : Bool) : List Char := if negative then ['-'] else []

/-- A finite double as the display shows it: positional, both zeros being `0`. -/
def plain (negative : Bool) (m : Magnitude) : String :=
  if m.quanta = 0 then "0"
  else .ofList (signText negative ++ (Decimal.shortest m).positional)

/-- A double as files, logs and trees show it. -/
def literal : Binary64 → String
  | .nan => "nan"
  | .infinite negative => .ofList (signText negative ++ ['i', 'n', 'f'])
  | .finite negative m =>
    .ofList (signText negative ++
      if m.quanta = 0 then ['0', '.', '0'] else (Decimal.shortest m).literal)

end Binary64
end DeskCalculator
