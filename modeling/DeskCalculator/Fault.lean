/-
# What can be wrong with an expression

Every fault has a four-digit code, a family and a message that names the place. A code is also the
key of a general explanation, and its first digit that of a category; both stand in the box that
the window shows.

| codes | family |
| --- | --- |
| 3030 | a character outside the alphabet |
| 3008, 3031 | a malformed number |
| 3032 | an unknown name |
| 3009, 3217 | an unmatched parenthesis |
| 3011, 3023, 3027, 3029, 3034, 3036 | the grammar |
| 3033 | input behind the expression |
| 3035 | a result that is not a finite number |
-/

import DeskCalculator.Binary64.Trapping
import DeskCalculator.Decimal.Notation
import DeskCalculator.Text.CodePoint

namespace DeskCalculator

/-- What is wrong with an expression. A position counts characters of the sanitized text. -/
inductive Fault where
  /-- A code point outside the alphabet. -/
  | invalidCharacter (p : CodePoint) (position : Int)
  /-- A run of digits with two points or more. -/
  | repeatedPoint (position : Int)
  /-- A point without any digit. -/
  | lonePoint (position : Int)
  | unknownName (name : String)
  /-- A constant with a parenthesis behind it. -/
  | constantCalled (name : String)
  /-- A function without a parenthesis behind it. -/
  | missingOpening (function : String)
  /-- The parenthesis of a call is still open at the end. -/
  | unclosedCall (function : String)
  /-- A parenthesis that groups is still open at the end. -/
  | unclosedGroup (position : Int)
  /-- A token where only a closing parenthesis could stand. -/
  | expectedClosing (text : String) (position : Int)
  /-- A token where an operand has to begin. -/
  | unexpectedToken (text : String) (position : Int)
  /-- The end where an operand has to begin. -/
  | missingNumber
  /-- The end behind a binary operator. -/
  | missingOperand (operator : String) (position : Int)
  | tooDeep
  /-- A token behind a complete expression. -/
  | trailingInput (text : String) (position : Int)
  /-- An infinity or NaN as the result of the whole expression. -/
  | notFinite (value : Binary64)
  deriving DecidableEq

namespace Fault

/-- The kinds of faults. -/
inductive Family where
  | invalidCharacter
  | malformedNumber
  | unknownIdentifier
  | unmatchedParenthesis
  | grammar
  | trailingInput
  | domain
  deriving DecidableEq

/-- The kind of a fault. -/
def family : Fault → Family
  | .invalidCharacter _ _ => .invalidCharacter
  | .repeatedPoint _ | .lonePoint _ => .malformedNumber
  | .unknownName _ => .unknownIdentifier
  | .unclosedCall _ | .unclosedGroup _ => .unmatchedParenthesis
  | .constantCalled _ | .missingOpening _ | .expectedClosing _ _ | .unexpectedToken _ _
  | .missingNumber | .missingOperand _ _ | .tooDeep => .grammar
  | .trailingInput _ _ => .trailingInput
  | .notFinite _ => .domain

/-- The code of a fault: the category, then the number of the explanation. -/
def code : Fault → String
  | .repeatedPoint _ => "3008"
  | .unclosedGroup _ => "3009"
  | .expectedClosing _ _ | .unexpectedToken _ _ => "3011"
  | .missingOpening _ => "3023"
  | .missingNumber => "3027"
  | .missingOperand _ _ => "3029"
  | .invalidCharacter _ _ => "3030"
  | .lonePoint _ => "3031"
  | .unknownName _ => "3032"
  | .trailingInput _ _ => "3033"
  | .tooDeep => "3034"
  | .notFinite _ => "3035"
  | .constantCalled _ => "3036"
  | .unclosedCall _ => "3217"

/-- What is wrong, and where. -/
def message : Fault → String
  | .invalidCharacter p position =>
    s!"Invalid character {(CodeText.mk [p]).quoted} at position {position}"
  | .repeatedPoint position => s!"More than one '.' in the number at position {position}"
  | .lonePoint position => s!"Number without digits at position {position}"
  | .unknownName name => s!"Unknown identifier: '{name}'"
  | .constantCalled name => s!"Constant '{name}' cannot be called"
  | .missingOpening function => s!"Missing '(' after function '{function}'"
  | .unclosedCall function => s!"Missing ')' after function '{function}'"
  | .unclosedGroup position => s!"Missing ')' for '(' at position {position}"
  | .expectedClosing text position =>
    s!"Unexpected token '{text}' at position {position}, expected ')'"
  | .unexpectedToken text position => s!"Unexpected token '{text}' at position {position}"
  | .missingNumber => "Missing Number."
  | .missingOperand operator position =>
    s!"Missing Number after '{operator}' at position {position}"
  | .tooDeep => "Expression is nested too deeply."
  | .trailingInput text position =>
    s!"Unexpected '{text}' at position {position} after the expression"
  | .notFinite value => s!"Result is not a finite number: {value.literal}"

/-- The general explanation of every code. -/
def explanations : List (String × String) := [
  ("3008", "More than one '.' in one number."),
  ("3009", "Missing ')'. "),
  ("3011", "Unexpected Token: "),
  ("3023", "Missing '(' after function: "),
  ("3027", "Missing Number."),
  ("3029", "Missing Number after operator: "),
  ("3030", "Invalid character: "),
  ("3031", "Number without digits."),
  ("3032", "Unknown identifier: "),
  ("3033", "Unexpected input after the expression: "),
  ("3034", "Expression is nested too deeply."),
  ("3035", "Result is not a finite number."),
  ("3036", "Constant used as a function: "),
  ("3217", "Missing ')' after function"),
  ("4501", "Not all Settings could be saved: "),
  ("9999", "Unexpected Error: ")]

/-- The category of every first digit. -/
def categories : List (String × String) := [
  ("1", "Missing Files"),
  ("3", "Calculator Error"),
  ("4", "UI Error"),
  ("5", "Configuration Error"),
  ("9", "Unexpected Error")]

/-- The general explanation of a code, if it is one. -/
def explanation? (code : String) : Option String := explanations.lookup code

/-- The category of a first digit, if it is one. -/
def category? (digit : String) : Option String := categories.lookup digit

/-- The general explanation of a fault. -/
def explanation (f : Fault) : String := (explanation? f.code).getD "Unknown error"

/-- The category of a fault, by the first digit of its code. -/
def category (f : Fault) : String :=
  (category? (.ofList (f.code.toList.take 1))).getD "Calculation error"

/-- Every code is explained. -/
theorem isSome_explanation?_code (f : Fault) : (explanation? f.code).isSome = true := by
  cases f <;> rfl

/-- Every fault is one of calculating. -/
theorem category_eq (f : Fault) : f.category = "Calculator Error" := by
  have h : String.ofList (f.code.toList.take 1) = "3" := by cases f <;> simp [code]
  rw [category, h]
  rfl

end Fault

/-- What an evaluation has no answer to. Tokens or trees put together by hand run into names,
operators and number texts that the scanner and the parser never let through; the guards of the
operations are there to keep all traps away. -/
inductive Misuse where
  | unknownConstant (name : String)
  | unknownFunction (name : String)
  | unknownOperator (operator : String)
  | unreadableNumber (text : String)
  | trapped (trap : Trap)
  deriving DecidableEq

/-- Why an action of the calculator did not end as it should. -/
inductive Failure where
  /-- A fault of an expression, and the text that was asked for, once it is known. -/
  | fault (fault : Fault) (equation : Option CodeText)
  | misuse (misuse : Misuse)
  /-- A history limit that is an infinity has no whole number. -/
  | infiniteLimit
  /-- A settings file that is not UTF-8. -/
  | notUtf8
  /-- A whole number with more digits than a settings file may have in it. -/
  | numberTooLong
  /-- A settings file that is a folder. -/
  | isFolder
  /-- A settings file that may not be read. -/
  | noPermission
  /-- More containers inside each other than a reading or a writing has room for. -/
  | tooNested
  deriving DecidableEq

namespace Failure

/-- Names the text that was asked for in a fault. -/
def withEquation (equation : Option CodeText) : Failure → Failure
  | .fault f _ => .fault f equation
  | failure => failure

end Failure

/-- Stops at a fault. -/
def Fault.raise {α : Type} (f : Fault) : Except Failure α := .error (.fault f none)

end DeskCalculator
