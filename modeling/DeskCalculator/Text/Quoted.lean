/-
# Quoted text

A text between quotes in which every character shows: single quotes, or double ones around a text
that holds single quotes and no double ones. The quote, the backslash, the line and tab characters
and everything that is not printable are escaped, so that a log line or an error message stays one
line.

| character | written |
| --- | --- |
| the quote, `\` | behind a backslash |
| tab, line feed, carriage return | `\t`, `\n`, `\r` |
| other characters that are not printable | `\x` and 2, `\u` and 4 or `\U` and 8 hexadecimal digits |
-/

import DeskCalculator.Text.Printable

namespace DeskCalculator
namespace Text

/-- `n` in lower-case hexadecimal with at least `width` digits. -/
def hex (width n : Nat) : List Char :=
  let digits := Nat.toDigits 16 n
  List.replicate (width - digits.length) '0' ++ digits

/-- A character inside the given quotes. -/
def escaped (quote c : Char) : List Char :=
  if c = quote ∨ c = '\\' then ['\\', c]
  else if c = '\t' then ['\\', 't']
  else if c = '\n' then ['\\', 'n']
  else if c = '\r' then ['\\', 'r']
  else if isPrintable c then [c]
  else if c.toNat < 0x100 then '\\' :: 'x' :: hex 2 c.toNat
  else if c.toNat < 0x10000 then '\\' :: 'u' :: hex 4 c.toNat
  else '\\' :: 'U' :: hex 8 c.toNat

/-- The quotes that a text is put between. -/
def quoteFor (cs : List Char) : Char :=
  if cs.contains '\'' && !cs.contains '"' then '"' else '\''

/-- A text between quotes. -/
def quoted (s : String) : String :=
  let quote := quoteFor s.toList
  .ofList (quote :: (s.toList.flatMap (escaped quote) ++ [quote]))

/-- What stands for a text that is absent. -/
def absent : String := "None"

end Text
end DeskCalculator
