/-
# The window

The input line, the display with the preview of the input, the keypad, and the list of the history.
Two surroundings belong to a session: the clipboard with the state of the Shift key, and the
settings files.

* Setting the input to a different text shows the preview of that text.
* Submitting puts the result in the place of the input and records the pair; a fault is shown in a
  box and leaves the input and the history alone.
* A key that repeats fires once when it is clicked, unless it has fired while it was held: first
  after half a second, then every tenth of a second.
* With Shift held the clipboard key copies the display, otherwise it pastes behind the input.

An action that fails keeps what it had changed before.
-/

import DeskCalculator.Keypad
import DeskCalculator.Window.Appearance
import DeskCalculator.Window.Dialog

namespace DeskCalculator
namespace Window

open Settings (Dictionary Store)

/-- The timer that repeats a held key. -/
structure Timer where
  running : Bool
  /-- In milliseconds. -/
  interval : Nat
  deriving DecidableEq

/-- How long a key is held before it repeats. -/
def initialDelay : Nat := 500

/-- How often a held key repeats. -/
def repeatInterval : Nat := 100

/-- A window and its surroundings. -/
structure Session where
  input : CodeText
  display : String
  history : History
  /-- The entries behind the rows of the history list. -/
  rows : History
  timer : Timer
  /-- Whether the key pressed last has fired while it was held. -/
  wasHeld : Bool
  heldKey : Option Key
  /-- Whether the window has seen Shift go down, and not up again. -/
  shiftHeld : Bool
  settings : Dictionary
  appearance : Appearance
  clipboard : CodeText
  /-- Whether the keyboard reports Shift as down. -/
  shiftDown : Bool
  store : Store
  debugging : Bool
  /-- The message boxes since the last action began. -/
  boxes : List Box
  /-- The log since the last action began. -/
  log : List Log.Record

/-- A session after an action, and why the action stopped, if it did. -/
abbrev Result := Session × Option Failure

namespace Session

/-- Adds records to the log. -/
def note (records : List Log.Record) (s : Session) : Session :=
  { s with log := s.log ++ Log.kept s.debugging records }

/-- Shows a message box. -/
def showBox (b : Box) (s : Session) : Session := { s with boxes := s.boxes ++ [b] }

/-- Shows the preview of the input. -/
def showPreview (s : Session) : Session :=
  { s.note (trace (some s.input)) with display := preview (some s.input) }

/-- Sets the input, and shows the preview if that changes it. -/
def setInput (text : CodeText) (s : Session) : Session :=
  if s.input = text then s else showPreview { s with input := text }

/-- Replaces the history and the rows of its list. -/
def setHistory (h : History) (s : Session) : Session := { s with history := h, rows := h }

/-- Submits the input. -/
def submit (s : Session) : Result :=
  let text := s.input
  let outcome := s.history.submit (some text) (Settings.setting s.settings "history_limit")
  let s := s.note (trace (some text) ++ History.submitted (some text) outcome)
  match outcome with
  | .ok (result, history) => ((s.setHistory history).setInput result, none)
  | .error (.fault f equation) =>
    let warning := "Evaluation failed for " ++ text.quoted ++ ": " ++ f.message ++
      " (code " ++ f.code ++ ")"
    ((s.note [⟨.warning, warning⟩]).showBox (.ofFault f equation), none)
  | .error failure => (s, some failure)

/-- Copies the display or pastes behind the input. Pasting submits if that is set. -/
def useClipboard (s : Session) : Result :=
  if s.shiftHeld || s.shiftDown then
    let copied := "Copied " ++ Text.quoted s.display ++ " to the clipboard"
    ({ s.note [⟨.info, copied⟩] with clipboard := s.display }, none)
  else if s.clipboard = "" then (s, none)
  else
    let s := s.setInput (s.input ++ s.clipboard)
    if (Settings.setting s.settings "after_paste_enter").isTrue then s.submit else (s, none)

/-- What a session with the settings dialog shows: the dialog as it was opened, and after each
attempt how it was closed, if it was. -/
structure DialogReport where
  dialog : Dialog
  closings : List (Option Closing)

/-- Opens the settings dialog and goes through attempts to change settings. Unless a save failed,
the settings are then loaded again and applied to the log, the colours and the history. There is no
report if the dialog could not be opened. -/
def openSettings (attempts : List Dialog.Attempt) (s : Session) :
    Result × Option DialogReport :=
  match Dialog.load s.store with
  | .error failure => ((s, some failure), none)
  | .ok dialog =>
    let outcome := dialog.run s.store attempts
    let s := { s.note outcome.log with
      store := outcome.store, boxes := s.boxes ++ outcome.boxes }
    let result : Result :=
      match outcome.failure, s.store.settings with
      | some failure, _ | none, .error failure => (s, some failure)
      | none, .ok settings =>
        let s := { s with
          settings
          debugging := (Settings.setting settings "debug").isTruthy
          appearance := .ofDark (Settings.isDark settings) }
        match History.limit (Settings.setting settings "history_limit") with
        | .error failure => (s, some failure)
        | .ok limit => (s.setHistory (s.history.take limit), none)
    (result, some ⟨dialog, outcome.closings⟩)

/-- What a key does. -/
def activate (key : Key) (s : Session) : Result :=
  match key with
  | .equals => s.submit
  | .clear => (s.setInput "", none)
  | .backspace => (s.setInput (dropLastPoint s.input), none)
  | .percent => (s.setInput (appendPercent s.input), none)
  | .clipboard => s.useClipboard
  | .settings => (s.openSettings []).1
  | key => (s.setInput (s.input ++ key.inserted?.getD ""), none)

/-- A key goes down: one that repeats starts the timer. -/
def keyPressed (key : Key) (s : Session) : Session :=
  if key.repeats then
    { s with wasHeld := false, heldKey := some key, timer := ⟨true, initialDelay⟩ }
  else s

/-- A key comes up: one that repeats stops the timer. -/
def keyReleased (key : Key) (s : Session) : Session :=
  if key.repeats then { s with heldKey := none, timer := { s.timer with running := false } } else s

/-- A key is clicked. One that repeats has done its work already if it has fired while held. -/
def keyClicked (key : Key) (s : Session) : Result :=
  if key.repeats && s.wasHeld then (s, none) else s.activate key

/-- The timer fires. -/
def tick (s : Session) : Result :=
  let interval := if s.timer.interval = initialDelay then repeatInterval else s.timer.interval
  let s := { s with wasHeld := true, timer := { s.timer with interval } }
  match s.heldKey with
  | some key => s.activate key
  | none => (s, none)

/-- Takes an entry of the list back: its expression becomes the input, its preview the display. -/
def replay (index : Nat) (s : Session) : Session :=
  match s.rows[index]? with
  | some e =>
    let (expression, shown) := e.replay
    { s.note (trace expression) with input := expression.getD "", display := shown }
  | none => s

/-- Forgets the history. -/
def clearHistory (s : Session) : Session := (s.setHistory []).note [⟨.info, "History cleared"⟩]

/-- The label of the clipboard key. -/
def clipboardLabel (s : Session) : String :=
  if s.shiftHeld then Key.copyLabel else Key.clipboard.label

/-- Opens a window on the settings files: an empty input and no history. -/
def start (debugging : Bool) (store : Store) : Except Failure Session := do
  let settings ← store.settings
  return showPreview {
    input := ""
    display := "0"
    history := []
    rows := []
    timer := ⟨false, 0⟩
    wasHeld := false
    heldKey := none
    shiftHeld := false
    settings
    appearance := .ofDark (Settings.isDark settings)
    clipboard := ""
    shiftDown := false
    store
    debugging
    boxes := []
    log := [] }

end Session

/-- What can happen to a window. -/
inductive Action where
  | pressed (key : Key)
  | released (key : Key)
  | clicked (key : Key)
  | tick
  | type (text : CodeText)
  | enter
  /-- The window sees Shift go down or up. -/
  | shift (down : Bool)
  /-- What the keyboard reports of Shift changes. -/
  | keyboardShift (down : Bool)
  | setClipboard (text : CodeText)
  | replay (index : Nat)
  | clearHistory
  | settings (attempts : List Dialog.Attempt)
  /-- The settings file is replaced by something else. -/
  | writeConfig (file : Settings.File)
  /-- The settings file gets out of reach. -/
  | unreach

namespace Session

/-- Does what an action says. -/
def perform (a : Action) (s : Session) : Result :=
  match a with
  | .pressed key => (s.keyPressed key, none)
  | .released key => (s.keyReleased key, none)
  | .clicked key => s.keyClicked key
  | .tick => s.tick
  | .type text => (s.setInput text, none)
  | .enter => s.submit
  | .shift down => ({ s with shiftHeld := down }, none)
  | .keyboardShift down => ({ s with shiftDown := down }, none)
  | .setClipboard text => ({ s with clipboard := text }, none)
  | .replay index => (s.replay index, none)
  | .clearHistory => (s.clearHistory, none)
  | .settings attempts => (s.openSettings attempts).1
  | .writeConfig file => ({ s with store := { s.store with config := file } }, none)
  | .unreach => ({ s with store := { s.store with reachable := false } }, none)

/-- The session with boxes and log beginning anew. -/
def fresh (s : Session) : Session := { s with boxes := [], log := [] }

/-- The events of a key that is pressed and let go at once. -/
def click (key : Key) : List Action :=
  if key.repeats then [.pressed key, .released key, .clicked key] else [.clicked key]

/-- Performs one action after another, up to the first failure. -/
def performAll (s : Session) : List Action → Result
  | [] => (s, none)
  | a :: rest =>
    match s.perform a with
    | (s, none) => s.performAll rest
    | stopped => stopped

end Session
end Window
end DeskCalculator
