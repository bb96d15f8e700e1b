/-
# Colours

The style sheets of the window and its parts, dark or light. The equals key stands out in both.
-/

namespace DeskCalculator
namespace Window

/-- The style sheets of the window's parts. -/
structure Appearance where
  window : String
  display : String
  equals : String
  /-- All keys but the equals key. -/
  keys : String
  deriving DecidableEq

namespace Appearance

/-- White on black, or the colours of the system. -/
def ofDark (dark : Bool) : Appearance where
  window := if dark then "background-color: #121212; color: white;" else ""
  display :=
    if dark then "background-color: #121212; color: white; font-weight: bold;"
    else "font-weight: bold;"
  equals := "background-color: #007bff; color: white; font-weight: bold;"
  keys :=
    if dark then "background-color: #121212; color: white; font-weight: bold;"
    else "font-weight: normal;"

/-- The style sheet of a message box. -/
def messageBox (dark : Bool) : String :=
  if dark then
    "QMessageBox \x7b background-color: #121212; color: white; \x7d " ++
    "QLabel \x7b color: white; \x7d " ++
    "QPushButton \x7b background-color: #2e2e2e; color: white; border: 1px solid #444444; " ++
    "padding: 5px 15px; \x7d " ++
    "QPushButton:hover \x7b background-color: #444444; \x7d"
  else ""

end Appearance
end Window
end DeskCalculator
