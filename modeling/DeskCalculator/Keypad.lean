/-
# The keypad

The keys in the order in which they are laid out, row by row. Most of them put a text behind the
input; the digits and the backspace key repeat while they are held down.

The percent key has nothing to do with the remainder operator: it puts a factor of a hundredth
behind the text, whatever the text is.
-/

import DeskCalculator.Text.CodePoint

namespace DeskCalculator

/-- A key of the keypad. -/
inductive Key where
  | settings
  | clipboard
  | clear
  | backspace
  | percent
  | sine
  | cosine
  | tangent
  | opening
  | closing
  | root
  | decimalLog
  | naturalLog
  | digit (d : Fin 10)
  | divide
  | times
  | minus
  | plus
  | power
  | modulo
  | pi
  | euler
  | point
  | equals
  deriving DecidableEq

namespace Key

/-- The keys in their order. -/
def all : List Key := [
  .settings, .clipboard, .clear, .backspace, .percent,
  .sine, .cosine, .tangent, .opening, .closing,
  .root, .digit 7, .digit 8, .digit 9, .divide,
  .decimalLog, .digit 4, .digit 5, .digit 6, .times,
  .naturalLog, .digit 1, .digit 2, .digit 3, .minus,
  .pi, .euler, .digit 0, .point, .plus,
  .power, .modulo, .equals]

/-- What stands on a key. -/
def label : Key → String
  | .settings => "⚙"
  | .clipboard => "📋"
  | .clear => "C"
  | .backspace => "<"
  | .percent => "%"
  | .sine => "sin"
  | .cosine => "cos"
  | .tangent => "tan"
  | .opening => "("
  | .closing => ")"
  | .root => "√"
  | .decimalLog => "log"
  | .naturalLog => "ln"
  | .digit d => toString d.val
  | .divide => "÷"
  | .times => "×"
  | .minus => "−"
  | .plus => "+"
  | .power => "xʸ"
  | .modulo => "mod"
  | .pi => "π"
  | .euler => "e"
  | .point => "."
  | .equals => "="

/-- What stands on the clipboard key while Shift is held: a click will copy. -/
def copyLabel : String := "📑"

/-- The key with a label. -/
def ofLabel? (label : String) : Option Key := all.find? (·.label == label)

/-- A key is found by its label. -/
theorem ofLabel?_label (k : Key) : ofLabel? k.label = some k := by
  cases k with
  | digit d => revert d; decide +kernel
  | _ => decide +kernel

/-- The text that a key puts behind the input, if it does. -/
def inserted? : Key → Option String
  | .settings | .clipboard | .clear | .backspace | .percent | .equals => none
  | .sine => some "sin("
  | .cosine => some "cos("
  | .tangent => some "tan("
  | .root => some "sqrt("
  | .decimalLog => some "log("
  | .naturalLog => some "ln("
  | .power => some "^"
  | .modulo => some "%"
  | .pi => some "pi"
  | k => some k.label

/-- Keys that repeat while they are held down. -/
def repeats : Key → Bool
  | .digit _ | .backspace => true
  | _ => false

end Key

/-- The text with a factor of a hundredth behind it. -/
def appendPercent (text : CodeText) : CodeText := text ++ "*0.01"

/-- The text without its last code point. -/
def dropLastPoint (text : CodeText) : CodeText := ⟨text.points.dropLast⟩

end DeskCalculator
