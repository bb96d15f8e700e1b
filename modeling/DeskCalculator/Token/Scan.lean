/-
# From text to tokens

`sanitize` replaces the typographic operator signs and drops all blanks, `validate` refuses
code points outside the alphabet, and `Token.scan` cuts the text into tokens: the maximal runs of
digits and points, the maximal runs of letters, and single characters. The pieces in order are the
whole text, and a token's position is the length of the pieces before it.
-/

import DeskCalculator.Fault
import DeskCalculator.Text.Blank
import DeskCalculator.Token.Basic

namespace DeskCalculator

/-- The plain sign for an operator sign of print. -/
def plainSign (c : Char) : Char :=
  match c with
  | '×' => '*'
  | '÷' => '/'
  | '−' => '-'
  | c => c

/-- A text with plain operator signs and without blanks. -/
def sanitize (text : CodeText) : CodeText :=
  ⟨(text.points.filter (!·.isIn Text.isBlank)).map (·.mapChar plainSign)⟩

/-- The characters that `validate` lets pass, as one class of signs and ranges. The scanner does not
use it: it has classes of its own. -/
def isAdmitted (c : Char) : Bool :=
  ('0' ≤ c && c ≤ '9') || ['+', '-', '*', '/', '^', '(', ')', '.', ',', '%'].contains c ||
    ('A' ≤ c && c ≤ 'Z') || ('a' ≤ c && c ≤ 'z')

/-- Refuses the first code point outside the alphabet. -/
def validate (text : CodeText) : Except Failure Unit :=
  match text.points.findIdx? (!·.isIn isAdmitted) with
  | none => .ok ()
  | some i =>
    match text.points[i]? with
    | some p => (Fault.invalidCharacter p i).raise
    | none => .ok ()

namespace Token

/-- Neighbours that belong to one token. -/
def joins (a b : CodePoint) : Bool :=
  (a.isIn isNumeric && b.isIn isNumeric) || (a.isIn isLetter && b.isIn isLetter)

/-- The pieces of a text: its maximal runs of numeric characters and of letters, and the other
code points one by one. -/
def pieces (ps : List CodePoint) : List (List CodePoint) := ps.splitBy joins

/-- Each piece with the length of all before it. -/
def locate (position : Nat) : List (List CodePoint) → List (Nat × List CodePoint)
  | [] => []
  | piece :: rest => (position, piece) :: locate (position + piece.length) rest

/-- The token that a piece is. A number has at most one point, and at least one digit. -/
def ofPiece : Nat × List CodePoint → Except Failure Token
  | (position, piece) =>
    match piece with
    | [] => .ok ⟨.comma, "", position⟩
    | p :: _ =>
      let text := (CodeText.mk piece).shown
      if p.isIn isNumeric then
        if 2 ≤ piece.count (.ofChar '.') then (Fault.repeatedPoint position).raise
        else if piece = [.ofChar '.'] then (Fault.lonePoint position).raise
        else .ok ⟨.number, text, position⟩
      else if p.isIn isLetter then .ok ⟨.identifier, text, position⟩
      else
        match p.char?.bind symbol? with
        | some kind => .ok ⟨kind, text, position⟩
        | none => (Fault.invalidCharacter p position).raise

/-- The tokens of a text. -/
def scan (text : CodeText) : Except Failure (List Token) :=
  (locate 0 (pieces text.points)).mapM ofPiece

end Token
end DeskCalculator
