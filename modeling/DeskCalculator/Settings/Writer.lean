/-
# Writing JSON

The written form of a value: four blanks of indentation for every level, one item or entry on a
line, nothing between the brackets of an empty container, and ASCII throughout: a character beyond
it is written as one `\u` escape with four lower-case digits, or as two above U+FFFF.

Writing goes piece by piece. A value that cannot be written stops it, and what stands before that
value is written already. That is a foreign value, a whole number of more than 4300 digits, or one
that stands too deep: every container that is open takes one of the nested calls that the writing
may make, and `calls` says how many of them are left.

What cannot be taken apart is one piece with what stands in front of it in a list: the bracket or
the comma, and the line break behind them.
-/

import DeskCalculator.Settings.Value
import DeskCalculator.Text.WholeNumber

namespace DeskCalculator
namespace Settings

/-- Why a value cannot be written. -/
inductive Unwritable where
  | foreign
  /-- A whole number with more digits than are written. -/
  | numberTooLong
  /-- A value inside more containers than there are calls for. -/
  | tooNested
  deriving DecidableEq

/-- What has been written, and what stopped the writing, if anything did. -/
structure Written where
  text : List Char
  obstacle : Option Unwritable

namespace Written

/-- A text that could be written. -/
def ofText (text : List Char) : Written := ⟨text, none⟩

/-- Writes one thing behind another, unless the first one stopped. -/
def append (a b : Written) : Written :=
  match a.obstacle with
  | none => ⟨a.text ++ b.text, b.obstacle⟩
  | some _ => a

instance : Append Written := ⟨append⟩

/-- A line break and the indentation of a level. -/
def newline (level : Nat) : List Char := '\n' :: List.replicate (4 * level) ' '

/-- Writes something that takes so many nested calls, if there are so many. -/
def needing (needed calls : Nat) (w : Written) : Written :=
  if calls < needed then ⟨[], some .tooNested⟩ else w

/-- What is written for an item or an entry, and whether it is one piece with what stands in front
of it. -/
structure Part where
  isPiece : Bool
  written : Written

/-- Writes a part with what stands in front of it. A piece that stops takes that with it. -/
def Part.behind (front : List Char) (p : Part) : Written :=
  if p.isPiece ∧ p.written.obstacle ≠ none then p.written else ofText front ++ p.written

/-- Parts behind the first one, each on a line of its own behind a comma. -/
def following (level : Nat) : List Part → Written
  | [] => ofText []
  | p :: rest => p.behind (',' :: newline level) ++ following level rest

/-- Parts between brackets, one level further in than the brackets. -/
def enclosed (opening closing : Char) (calls level : Nat) : List Part → Written
  | [] => ofText [opening, closing]
  | p :: rest =>
    needing 2 calls (p.behind (opening :: newline (level + 1)) ++
      (following (level + 1) rest ++ ofText (newline level ++ [closing])))

end Written

namespace Json

/-- A UTF-16 unit as an escape. -/
def unitEscape (n : Nat) : List Char := '\\' :: 'u' :: Text.hex 4 n

/-- A character inside a written text. -/
def escapedChar (c : Char) : List Char :=
  if c = '"' ∨ c = '\\' then ['\\', c]
  else if c = '\n' then ['\\', 'n']
  else if c = '\r' then ['\\', 'r']
  else if c = '\t' then ['\\', 't']
  else if c = '\x08' then ['\\', 'b']
  else if c = '\x0c' then ['\\', 'f']
  else
    let n := c.toNat
    if 0x20 ≤ n ∧ n ≤ 0x7E then [c]
    else if n < 0x10000 then unitEscape n
    else unitEscape (0xD800 + (n - 0x10000) / 0x400) ++ unitEscape (0xDC00 + (n - 0x10000) % 0x400)

/-- A code point inside a written text: half of a character is one escape. -/
def escaped (p : CodePoint) : List Char :=
  match p.char? with
  | some c => escapedChar c
  | none => unitEscape p.val

/-- A text between double quotes. -/
def quoted (s : CodeText) : List Char := '"' :: (s.points.flatMap escaped ++ ['"'])

/-- A whole number, unless it is too long. -/
def wholeNumber (i : Int) : Written :=
  if Text.maxDigits < (Nat.toDigits 10 i.natAbs).length then ⟨[], some .numberTooLong⟩
  else .ofText (toString i).toList

/-- A number: the shortest digits, and names for what JSON itself has no form for. -/
def number : Binary64 → List Char
  | .nan => ['N', 'a', 'N']
  | .infinite negative => Binary64.signText negative ++ ['I', 'n', 'f', 'i', 'n', 'i', 't', 'y']
  | x => x.literal.toList

/-- Whether a value can be taken apart no further, and is of a kind that can be written. -/
def isPlain : Value → Bool
  | .null | .bool _ | .integer _ | .number _ | .text _ => true
  | .list _ | .dictionary _ | .foreign => false

mutual

/-- A value at a level of indentation. -/
def write (calls level : Nat) : Value → Written
  | .null => .ofText ['n', 'u', 'l', 'l']
  | .bool b => .ofText (if b then ['t', 'r', 'u', 'e'] else ['f', 'a', 'l', 's', 'e'])
  | .integer i => wholeNumber i
  | .number x => .needing 2 calls (.ofText (number x))
  | .text s => .ofText (quoted s)
  | .list items => .enclosed '[' ']' calls level (writeItems (calls - 1) (level + 1) items)
  | .dictionary entries =>
    .enclosed '{' '}' calls level (writeEntries (calls - 1) (level + 1) entries)
  | .foreign => .needing 3 calls ⟨[], some .foreign⟩

/-- The items of a list. -/
def writeItems (calls level : Nat) : List Value → List Written.Part
  | [] => []
  | v :: rest => ⟨isPlain v, write calls level v⟩ :: writeItems calls level rest

/-- The entries of a dictionary: key, colon and value, all of them apart. -/
def writeEntries (calls level : Nat) : List (CodeText × Value) → List Written.Part
  | [] => []
  | (k, v) :: rest =>
    ⟨false, .ofText (quoted k ++ [':', ' ']) ++ write calls level v⟩ ::
      writeEntries calls level rest

end

end Json
end Settings
end DeskCalculator
