/-
# Tokens

The alphabet of expressions and the tokens made of it. A character belongs to a number, to a name,
or is a token by itself; every other character is outside the alphabet.
-/

import DeskCalculator.Text.Quoted

namespace DeskCalculator

/-- What a token is. -/
inductive Token.Kind where
  | number
  | identifier
  | operator
  | opening
  | closing
  | comma
  deriving DecidableEq

/-- A piece of an expression text, and where it begins. -/
structure Token where
  kind : Token.Kind
  text : String
  position : Int
  deriving DecidableEq

namespace Token

/-- The name of a kind. -/
def Kind.name : Kind → String
  | .number => "NUMBER"
  | .identifier => "IDENTIFIER"
  | .operator => "OPERATOR"
  | .opening => "LPAREN"
  | .closing => "RPAREN"
  | .comma => "COMMA"

/-- All kinds. -/
def Kind.all : List Kind := [.number, .identifier, .operator, .opening, .closing, .comma]

/-- The kind with a name. -/
def Kind.ofName? (name : String) : Option Kind := all.find? (·.name == name)

/-- How the log shows a token. -/
def shown (t : Token) : String :=
  "Token(kind=" ++ Text.quoted t.kind.name ++ ", text=" ++ Text.quoted t.text ++
    ", position=" ++ toString t.position ++ ")"

/-- A character of a number. -/
def isNumeric (c : Char) : Bool := c.isDigit || c == '.'

/-- A character of a name. -/
def isLetter (c : Char) : Bool := c.isAlpha

/-- The operators that an expression can have. -/
def operators : List Char := ['+', '-', '*', '/', '^', '%']

/-- The kind of a character that is a token by itself. -/
def symbol? (c : Char) : Option Kind :=
  if operators.contains c then some .operator
  else if c = '(' then some .opening
  else if c = ')' then some .closing
  else if c = ',' then some .comma
  else none

end Token
end DeskCalculator
