/-
# Whole numbers as people write them

`[blanks] [+ or -] digits [blanks]`, the digits of any script, with single underscores allowed
between two digits. The record separators U+001C to U+001F are no blanks here.

There may be at most 4300 digits, leading zeros included. A text with more of them is too long,
whatever stands behind them.
-/

import DeskCalculator.Text.Blank
import DeskCalculator.Text.Digit

namespace DeskCalculator
namespace Text

/-- A blank that may surround a number. -/
def isMargin (c : Char) : Bool := isBlank c && !(0x1C ≤ c.toNat && c.toNat ≤ 0x1F)

/-- A text without the margins at its two ends. -/
def trimMargin (cs : List Char) : List Char :=
  ((cs.dropWhile isMargin).reverse.dropWhile isMargin).reverse

/-- A sign in front, if there is one, and whether it is a minus. -/
def splitSign : List Char → Bool × List Char
  | '-' :: rest => (true, rest)
  | '+' :: rest => (false, rest)
  | rest => (false, rest)

/-- The most digits that are read. -/
def maxDigits : Nat := 4300

/-- Why a text shows no whole number. -/
inductive NotWhole where
  | malformed
  /-- It has so many digits, more than are read. -/
  | tooLong (digits : Nat)
  deriving DecidableEq

/-- The digits behind another digit. -/
def moreDigits? : List Char → Option (List Nat)
  | [] => some []
  | '_' :: c :: rest => do
    let d ← digit? c
    return d :: (← moreDigits? rest)
  | c :: rest => do
    let d ← digit? c
    return d :: (← moreDigits? rest)

/-- One digit or more, with single underscores between them. -/
def digits? : List Char → Option (List Nat)
  | [] => none
  | c :: rest => do
    let d ← digit? c
    return d :: (← moreDigits? rest)

/-- The number that digits show. -/
def ofDigits (digits : List Nat) : Nat := digits.foldl (fun total d => 10 * total + d) 0

/-- Whether a character can stand inside a written number. -/
def isDigitOrJoint (c : Char) : Bool := c == '_' || (digit? c).isSome

/-- The whole number that a text shows. -/
def wholeNumber (s : String) : Except NotWhole Int :=
  let (negative, cs) := splitSign (trimMargin s.toList)
  match digits? (cs.takeWhile isDigitOrJoint) with
  | none => .error .malformed
  | some digits =>
    if maxDigits < digits.length then .error (.tooLong digits.length)
    else if cs.all isDigitOrJoint then
      .ok (if negative then -(ofDigits digits : Int) else ofDigits digits)
    else .error .malformed

/-- The whole number that a text shows, if it shows one. -/
def wholeNumber? (s : String) : Option Int := (wholeNumber s).toOption

end Text
end DeskCalculator
