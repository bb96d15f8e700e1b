/-
# Reading a number

The number that a literal shows, rounded to the nearest double. A literal of the expression
language is a run of digits with at most one point; written numbers in general may have an exponent
and more, which `ofWritten?` takes in.

| text | reads as |
| --- | --- |
| `12`, `1.5`, `.5`, `5.` | the decimal it shows |
| `1e5`, `1.5E-3` | the decimal it shows |
| `-1`, `+1`, ` 1 `, `1_000`, `٣` | the number without sign, blanks and underscores, in ASCII digits |
| `inf`, `-Infinity`, `nan` in either case | an infinity, NaN |
-/

import DeskCalculator.Decimal.Basic
import DeskCalculator.Text.WholeNumber

namespace DeskCalculator
namespace Decimal

/-- Digits before and behind the point, times a power of ten. -/
def ofParts (whole fraction : List Char) (exponent : Int) : Decimal :=
  ⟨Nat.ofDigitChars 10 (whole ++ fraction) 0, exponent - fraction.length⟩

/-- The exponent behind the digits of a number: nothing, or `e`, a sign or none, and digits. -/
def exponent? : List Char → Option Int
  | [] => some 0
  | c :: rest =>
    let (negative, digits) := Text.splitSign rest
    if (c = 'e' ∨ c = 'E') ∧ digits ≠ [] ∧ digits.all Char.isDigit then
      let n : Int := (Nat.ofDigitChars 10 digits 0 : Nat)
      some (if negative then -n else n)
    else none

/-- The number that a text without a sign shows: digits with at most one point among them, and an
exponent or none. -/
def ofText? (cs : List Char) : Option Decimal :=
  let whole := cs.takeWhile Char.isDigit
  match cs.dropWhile Char.isDigit with
  | '.' :: rest =>
    let fraction := rest.takeWhile Char.isDigit
    if whole = [] ∧ fraction = [] then none
    else (exponent? (rest.dropWhile Char.isDigit)).map (ofParts whole fraction)
  | rest => if whole = [] then none else (exponent? rest).map (ofParts whole [])

end Decimal

namespace Text

/-- A text without its underscores, each of which has to stand between two digits. -/
def dropUnderscores? (behindDigit : Bool) : List Char → Option (List Char)
  | [] => some []
  | '_' :: c :: rest =>
    if behindDigit && c.isDigit then (dropUnderscores? true rest).map (c :: ·) else none
  | c :: rest => if c = '_' then none else (dropUnderscores? c.isDigit rest).map (c :: ·)

/-- The digits of every script as ASCII digits. -/
def plainDigits (cs : List Char) : List Char :=
  cs.map fun c =>
    match digit? c with
    | some d => Nat.digitChar d
    | none => c

end Text

namespace Binary64

/-- The number that a text with a sign, blanks around it, underscores or digits of other scripts
shows, or that it names. -/
def ofWritten? (cs : List Char) : Option Binary64 := do
  let (negative, rest) := Text.splitSign (← Text.dropUnderscores? false
    (Text.plainDigits (Text.trimMargin cs)))
  let word := String.ofList (rest.map Char.toLower)
  if word = "inf" ∨ word = "infinity" then return .infinite negative
  else if word = "nan" then return .nan
  else return (← Decimal.ofText? rest).nearest negative

/-- The number that a text shows, rounded. -/
def ofText? (s : String) : Option Binary64 :=
  match Decimal.ofText? s.toList with
  | some d => some (d.nearest false)
  | none => ofWritten? s.toList

end Binary64
end DeskCalculator
