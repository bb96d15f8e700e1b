/-
# Reading JSON

The strict grammar, and the names `NaN`, `Infinity` and `-Infinity` as numbers. The last of several
values of one key counts. A number without fraction and exponent is a whole one, of at most 4300
digits; any other is rounded to a double. Control characters cannot stand in a text by themselves.
Of two escapes that are the two halves of a character above U+FFFF the character is made; half of
one alone is kept as it is.

Every container that is open takes one of the nested calls that a reading may make, and the reading
stops at the bracket for which none is left: `room` says how many containers may still be opened.

The recursion itself goes down a bound on the steps. A container costs two of them, one for itself
and one for its first item, so `2 n + 1` are enough for `n` characters.
-/

import DeskCalculator.Decimal.Reader
import DeskCalculator.Settings.Value

namespace DeskCalculator
namespace Settings
namespace Json

/-- Why a text shows no value: the first thing in it that cannot be read. -/
inductive Unreadable where
  | malformed
  /-- A whole number with more digits than are read. -/
  | numberTooLong
  /-- A container inside more containers than there is room for. -/
  | tooNested
  deriving DecidableEq

/-- A part that has to be there. -/
def required {α : Type} : Option α → Except Unreadable α
  | some a => .ok a
  | none => .error .malformed

/-- The blanks that may stand between the parts of a value. -/
def isBlank (c : Char) : Bool := c == ' ' || c == '\t' || c == '\n' || c == '\r'

/-- A text without the blanks in front. -/
def skipBlanks (cs : List Char) : List Char := cs.dropWhile isBlank

/-- The value of a hexadecimal digit. -/
def hexDigit? (c : Char) : Option Nat :=
  let n := c.toNat
  if c.isDigit then some (n - 48)
  else if 'a' ≤ c ∧ c ≤ 'f' then some (n - 87)
  else if 'A' ≤ c ∧ c ≤ 'F' then some (n - 55)
  else none

/-- The value of four hexadecimal digits. -/
def unit? (a b c d : Char) : Option Nat := do
  return (((← hexDigit? a) * 16 + (← hexDigit? b)) * 16 + (← hexDigit? c)) * 16 + (← hexDigit? d)

/-- The character that a letter behind a backslash stands for. -/
def simpleEscape? : Char → Option Char
  | '"' => some '"'
  | '\\' => some '\\'
  | '/' => some '/'
  | 'b' => some '\x08'
  | 'f' => some '\x0c'
  | 'n' => some '\n'
  | 'r' => some '\r'
  | 't' => some '\t'
  | _ => none

/-- The code points of a text up to its closing quote, every escape giving one, and what is behind
it. -/
def points? : List Char → Option (List CodePoint × List Char)
  | [] => none
  | '"' :: rest => some ([], rest)
  | '\\' :: 'u' :: a :: b :: c :: d :: rest => do
    let n ← unit? a b c d
    let (ps, rest) ← points? rest
    return (.ofNat 0x110000 n :: ps, rest)
  | '\\' :: c :: rest => do
    let c ← simpleEscape? c
    let (ps, rest) ← points? rest
    return (.ofChar c :: ps, rest)
  | c :: rest =>
    if c.toNat < 0x20 then none
    else do
      let (ps, rest) ← points? rest
      return (.ofChar c :: ps, rest)

/-- A text behind its opening quote. -/
def text? (cs : List Char) : Option (CodeText × List Char) := do
  let (ps, rest) ← points? cs
  return (⟨CodePoint.join ps⟩, rest)

/-- The digits in front of a point: one zero, or a run that begins with another digit. -/
def whole? : List Char → Option (List Char × List Char)
  | '0' :: rest => some (['0'], rest)
  | cs =>
    let digits := cs.takeWhile Char.isDigit
    if digits = [] then none else some (digits, cs.dropWhile Char.isDigit)

/-- The digits behind a point, if both are there. -/
def fraction (cs : List Char) : List Char × List Char :=
  match cs with
  | '.' :: rest =>
    let digits := rest.takeWhile Char.isDigit
    if digits = [] then ([], cs) else (digits, rest.dropWhile Char.isDigit)
  | _ => ([], cs)

/-- The exponent behind an `e`, if both are there. -/
def exponent (cs : List Char) : Option Int × List Char :=
  match cs with
  | c :: rest =>
    let (negative, behind) := Text.splitSign rest
    let digits := behind.takeWhile Char.isDigit
    if (c = 'e' ∨ c = 'E') ∧ digits ≠ [] then
      let n : Int := (Nat.ofDigitChars 10 digits 0 : Nat)
      (some (if negative then -n else n), behind.dropWhile Char.isDigit)
    else (none, cs)
  | [] => (none, [])

/-- A whole number, unless it is too long. -/
def integer (negative : Bool) (digits : List Char) : Except Unreadable Value :=
  if Text.maxDigits < digits.length then .error .numberTooLong
  else
    let n : Int := (Nat.ofDigitChars 10 digits 0 : Nat)
    .ok (.integer (if negative then -n else n))

/-- A number without its sign. -/
def magnitude (negative : Bool) (cs : List Char) : Except Unreadable (Value × List Char) := do
  let (digits, rest) ← required (whole? cs)
  let (decimals, rest) := fraction rest
  match decimals, exponent rest with
  | [], (none, rest) => return (← integer negative digits, rest)
  | decimals, (power, rest) =>
    return (.number ((Decimal.ofParts digits decimals (power.getD 0)).nearest negative), rest)

/-- A value that is neither a text nor a container. -/
def scalar : List Char → Except Unreadable (Value × List Char)
  | 'n' :: 'u' :: 'l' :: 'l' :: rest => .ok (.null, rest)
  | 't' :: 'r' :: 'u' :: 'e' :: rest => .ok (.bool true, rest)
  | 'f' :: 'a' :: 'l' :: 's' :: 'e' :: rest => .ok (.bool false, rest)
  | 'N' :: 'a' :: 'N' :: rest => .ok (.number .nan, rest)
  | 'I' :: 'n' :: 'f' :: 'i' :: 'n' :: 'i' :: 't' :: 'y' :: rest =>
    .ok (.number (.infinite false), rest)
  | '-' :: 'I' :: 'n' :: 'f' :: 'i' :: 'n' :: 'i' :: 't' :: 'y' :: rest =>
    .ok (.number (.infinite true), rest)
  | '-' :: rest => magnitude true rest
  | cs => magnitude false cs

mutual

/-- A value, without blanks in front, and what is behind it. -/
def value : Nat → Nat → List Char → Except Unreadable (Value × List Char)
  | _, 0, _ => .error .malformed
  | _, _ + 1, '"' :: rest => do
    let (s, rest) ← required (text? rest)
    return (.text s, rest)
  | 0, _ + 1, '[' :: _ => .error .tooNested
  | room + 1, bound + 1, '[' :: rest => do
    match skipBlanks rest with
    | ']' :: rest => return (.list [], rest)
    | rest =>
      let (vs, rest) ← items room bound rest
      return (.list vs, rest)
  | 0, _ + 1, '{' :: _ => .error .tooNested
  | room + 1, bound + 1, '{' :: rest => do
    match skipBlanks rest with
    | '}' :: rest => return (.dictionary [], rest)
    | rest =>
      let (pairs, rest) ← entries room bound rest
      return (.dictionary (Dictionary.ofEntries pairs), rest)
  | _, _ + 1, cs => scalar cs

/-- One item or more, and the bracket behind them. -/
def items (room : Nat) : Nat → List Char → Except Unreadable (List Value × List Char)
  | 0, _ => .error .malformed
  | bound + 1, cs => do
    let (v, rest) ← value room bound cs
    match skipBlanks rest with
    | ']' :: rest => return ([v], rest)
    | ',' :: rest =>
      let (vs, rest) ← items room bound (skipBlanks rest)
      return (v :: vs, rest)
    | _ => .error .malformed

/-- One entry or more, and the brace behind them. -/
def entries (room : Nat) : Nat → List Char → Except Unreadable (List (CodeText × Value) × List Char)
  | 0, _ => .error .malformed
  | bound + 1, '"' :: cs => do
    let (k, rest) ← required (text? cs)
    match skipBlanks rest with
    | ':' :: rest =>
      let (v, rest) ← value room bound (skipBlanks rest)
      match skipBlanks rest with
      | '}' :: rest => return ([(k, v)], rest)
      | ',' :: rest =>
        let (more, rest) ← entries room bound (skipBlanks rest)
        return ((k, v) :: more, rest)
      | _ => .error .malformed
    | _ => .error .malformed
  | _ + 1, _ => .error .malformed

end

/-- The value that a whole text shows, with room for so many containers inside the outermost one. -/
def read (room : Nat) (cs : List Char) : Except Unreadable Value := do
  let (v, rest) ← value (room + 1) (2 * cs.length + 1) (skipBlanks cs)
  if (skipBlanks rest).isEmpty then return v else .error .malformed

end Json
end Settings
end DeskCalculator
