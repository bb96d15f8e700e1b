/-
# Message boxes

A box for a fault of the calculation names its category, code and explanation, and in small print
the message and the text that was asked for. The settings dialog has boxes of a title and a text.
-/

import DeskCalculator.Fault

namespace DeskCalculator
namespace Window

/-- A message box. -/
structure Box where
  title : String
  text : String
  /-- The small print, if there is any. -/
  info : Option CodeText
  deriving DecidableEq

namespace Box

/-- The box for a fault of the calculation. -/
def ofFault (f : Fault) (equation : Option CodeText) : Box where
  title := f.category
  text := "Error " ++ f.code ++ ": " ++ f.explanation
  info := some (("Details: " ++ f.message ++ "\nEquation: " : String) ++ equation.getD Text.absent)

/-- The box for a field of the settings dialog that cannot be read. -/
def invalidInput (key reason : String) : Box where
  title := "Invalid Input:"
  text := "Error in input for '" ++ key ++ "':\n\n" ++ reason ++ "\n\nPlease correct your input."
  info := none

/-- The box for settings that could not be saved. -/
def notSaved : Box where
  title := "Error"
  text := "Error 4501: " ++ (Fault.explanation? "4501").getD "" ++ "config.json"
  info := none

end Box
end Window
end DeskCalculator
