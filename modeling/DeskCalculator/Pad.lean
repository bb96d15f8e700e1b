/-
# A pad

A calculator without a window: a text, the history, and the limit that the history is kept to. A
step that fails changes nothing.
-/

import DeskCalculator.History
import DeskCalculator.Keypad

namespace DeskCalculator

/-- The state of a pad. -/
structure Pad where
  text : CodeText
  history : History
  limit : Settings.Value

namespace Pad

/-- What can be done with a pad. -/
inductive Step where
  | append (s : CodeText)
  | clear
  | percent
  | backspace
  | submit
  /-- Takes the expression of the entry at an index, if there is one. -/
  | replay (index : Nat)
  | setLimit (v : Settings.Value)
  | add (e : Entry)

/-- An empty pad. -/
def blank (limit : Settings.Value) : Pad := ⟨"", [], limit⟩

/-- What the display shows for the text. -/
def shown (p : Pad) : String := preview (some p.text)

/-- The pad after a step. -/
def step (p : Pad) : Step → Except Failure Pad
  | .append s => .ok { p with text := p.text ++ s }
  | .clear => .ok { p with text := "" }
  | .percent => .ok { p with text := appendPercent p.text }
  | .backspace => .ok { p with text := dropLastPoint p.text }
  | .submit => do
    let (text, history) ← p.history.submit (some p.text) p.limit
    return { p with text, history }
  | .replay index =>
    match p.history[index]? with
    | some e => .ok { p with text := e.replay.1.getD "" }
    | none => .ok p
  | .setLimit limit => .ok { p with limit }
  | .add e => do return { p with history := ← p.history.add e p.limit }

end Pad
end DeskCalculator
