/-
# The settings dialog

A check box for every setting that is on or off, a field for every whole number; a setting of
another kind has no widget and is kept as it is. A field shows the present value as a hint, and a
field left blank leaves the setting alone.

Pressing OK goes through the widgets in order and puts what they hold into the dialog's settings,
up to the first field that cannot be read: a box names it, and the dialog stays open with what it
has taken over so far. Behind the last widget the settings are saved; the dialog stays open if they
could not be.
-/

import DeskCalculator.History
import DeskCalculator.Settings.Store
import DeskCalculator.Window.Box

namespace DeskCalculator
namespace Window

open Settings (Value Dictionary Store)

/-- A widget of the dialog. -/
inductive Widget where
  | checkbox (label : Value) (checked : Bool)
  | field (label : String) (placeholder : String) (text : String)

/-- What a user does to a widget. -/
inductive Edit where
  | check (on : Bool)
  | write (text : String)

/-- The buttons that close the dialog. -/
inductive Button where
  | ok
  | cancel
  deriving DecidableEq

/-- How the dialog was closed. -/
inductive Closing where
  | accepted
  | rejected
  deriving DecidableEq

/-- The settings dialog: the settings as they would be saved, and the widgets by key. -/
structure Dialog where
  settings : Dictionary
  widgets : List (CodeText × Widget)

namespace Widget

/-- The widget for a setting, if it has one. -/
def ofValue? (description : Value) : Value → Option Widget
  | .bool b => some (.checkbox description b)
  | .integer i =>
    some (.field (description.label ++ " (1-" ++ toString History.maxEntries ++ "):")
      (toString i) "")
  | _ => none

/-- The widget after an edit; a check box cannot be written into, nor a field checked. -/
def edit : Widget → Edit → Widget
  | .checkbox label _, .check on => .checkbox label on
  | .field label placeholder _, .write text => .field label placeholder text
  | w, _ => w

end Widget

namespace Dialog

/-- The dialog for settings and their descriptions; a key without a description describes
itself. -/
def ofSettings (settings descriptions : Dictionary) : Dialog where
  settings
  widgets := settings.filterMap fun (key, value) =>
    (Widget.ofValue? ((descriptions.find? key).getD (.text key)) value).map (key, ·)

/-- Opens the dialog on what the files hold. -/
def load (s : Store) : Except Failure Dialog := do
  return .ofSettings (← s.settings) (← s.descriptions)

/-- Whether the dialog has the dark colours, for its whole life those of the settings that it was
opened with. -/
def isDark (d : Dialog) : Bool := Settings.isDark d.settings

/-- The labels in front of the fields. -/
def labels (d : Dialog) : List String :=
  d.widgets.filterMap fun (_, w) =>
    match w with
    | .field label _ _ => some label
    | .checkbox _ _ => none

/-- Edits the widget of a key. -/
def edit (d : Dialog) (key : CodeText) (e : Edit) : Dialog :=
  { d with widgets := d.widgets.map fun (k, w) => (k, if k = key then w.edit e else w) }

/-- What is wrong with a text that is no whole number: the text in quotes, of which at most 200
characters are shown, or how long it is. -/
def reason (text : String) : Text.NotWhole → String
  | .malformed =>
    "invalid literal for int() with base 10: " ++ .ofList ((Text.quoted text).toList.take 200)
  | .tooLong digits =>
    "Exceeds the limit (" ++ toString Text.maxDigits ++
      " digits) for integer string conversion: value has " ++ toString digits ++
      " digits; use sys.set_int_max_str_digits() to increase the limit"

/-- The whole number in a field, or what is wrong with the text. The history limit has a range. -/
def fieldValue (key : CodeText) (text : String) : Except String Int :=
  match Text.wholeNumber text with
  | .error cause => .error (reason text cause)
  | .ok i =>
    if key = "history_limit" ∧ ¬(1 ≤ i ∧ i ≤ History.maxEntries) then
      .error ("'" ++ toString i ++ "' is out of range 1-" ++ toString History.maxEntries ++ ".")
    else .ok i

/-- Puts what the widgets hold into the settings, up to the first field that cannot be read; then
also that field's key and what is wrong with it. -/
def collect (settings : Dictionary) :
    List (CodeText × Widget) → Dictionary × Option (CodeText × String)
  | [] => (settings, none)
  | (key, .checkbox _ checked) :: rest => collect (settings.insert key (.bool checked)) rest
  | (key, .field _ _ text) :: rest =>
    let entered : String := .ofList (Text.trimBlank text.toList)
    if entered = "" then collect settings rest
    else
      match fieldValue key entered with
      | .ok i => collect (settings.insert key (.integer i)) rest
      | .error reason => (settings, some (key, reason))

/-- What pressing a button leads to. -/
structure Press where
  dialog : Dialog
  store : Store
  closing : Option Closing
  boxes : List Box
  log : List Log.Record
  failure : Option Failure

/-- Whether a save went through: what counts as saved is not empty then. -/
def isSaved : Value → Bool
  | .dictionary [] => false
  | _ => true

/-- Presses a button. -/
def press (d : Dialog) (s : Store) : Button → Press
  | .cancel => ⟨d, s, some .rejected, [], [], none⟩
  | .ok =>
    match collect d.settings d.widgets with
    | (settings, some (key, reason)) =>
      ⟨{ d with settings }, s, none, [.invalidInput key.shown reason],
        [⟨.warning, "Invalid input for " ++ key.shown ++ ": " ++ reason⟩], none⟩
    | (settings, none) =>
      match s.save (.dictionary settings) with
      | (.error failure, store) => ⟨{ d with settings }, store, none, [], [], some failure⟩
      | (.ok saved, store) =>
        if isSaved saved then ⟨{ d with settings }, store, some .accepted, [], [], none⟩
        else ⟨{ d with settings }, store, none, [.notSaved], [], none⟩

/-- Edits of widgets by key, and the button pressed behind them. -/
structure Attempt where
  edits : List (CodeText × Edit)
  button : Button

/-- What a whole session with the dialog leads to. -/
structure Outcome where
  store : Store
  /-- After each attempt, how the dialog was closed, if it was. -/
  closings : List (Option Closing)
  boxes : List Box
  log : List Log.Record
  failure : Option Failure

/-- Goes through attempts until the dialog is closed, a save fails or none are left. -/
def run (d : Dialog) (s : Store) : List Attempt → Outcome
  | [] => ⟨s, [], [], [], none⟩
  | a :: rest =>
    let d := a.edits.foldl (fun d (key, e) => d.edit key e) d
    let p := d.press s a.button
    match p.closing, p.failure with
    | some closing, failure => ⟨p.store, [some closing], p.boxes, p.log, failure⟩
    | none, some failure => ⟨p.store, [none], p.boxes, p.log, some failure⟩
    | none, none =>
      let later := p.dialog.run p.store rest
      { later with
        closings := none :: later.closings, boxes := p.boxes ++ later.boxes,
        log := p.log ++ later.log }

end Dialog
end Window
end DeskCalculator
