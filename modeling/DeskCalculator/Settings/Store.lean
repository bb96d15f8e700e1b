/-
# The settings files

Two files: the settings themselves and the descriptions that the settings dialog shows. What a file
does not give has a default, and a file that is missing or does not hold a JSON object gives
nothing. A folder in a file's place, a file that may not be read, bytes that are not UTF-8, a whole
number that is too long and containers that are nested too deeply are failures.

Saving replaces the settings file. A value that cannot be written leaves what was written before
it; a file that cannot be opened stays as it is. In both cases nothing counts as saved, but a whole
number that is too long and too deep a nesting are failures here too.

Three things are taken for granted. A file that may be written may be read as well. A file that has
been opened can be written to its end: the disk has room for the settings. And all readings and
writings find the same number of nested calls left to them.
-/

import DeskCalculator.Fault
import DeskCalculator.Settings.Parser
import DeskCalculator.Settings.Writer

namespace DeskCalculator
namespace Settings

/-- What is found under the name of a file. -/
inductive File where
  | missing
  | folder
  | bytes (content : ByteArray)
  /-- A file that may be read but not written. -/
  | readOnly (content : ByteArray)
  /-- A file that may be neither read nor written. -/
  | denied

namespace File

/-- A file with a text in UTF-8. -/
def ofText (s : String) : File := .bytes s.toUTF8

/-- The bytes of a file, if it can be read. -/
def content? : File → Except Failure (Option ByteArray)
  | .missing => .ok none
  | .folder => .error .isFolder
  | .denied => .error .noPermission
  | .bytes content | .readOnly content => .ok (some content)

/-- Whether a file can be opened for writing. -/
def isWritable : File → Bool
  | .missing | .bytes _ => true
  | .folder | .readOnly _ | .denied => false

/-- The text of a file, if it is one. -/
def text? (f : File) : Option String :=
  match f.content? with
  | .ok (some content) => String.fromUTF8? content
  | _ => none

/-- The dictionary that a text shows, if it shows one. -/
def dictionaryIn (room : Nat) (s : String) : Except Failure (Option Dictionary) :=
  match Json.read room s.toList with
  | .ok (.dictionary entries) => .ok (some entries)
  | .error .numberTooLong => .error .numberTooLong
  | .error .tooNested => .error .tooNested
  | .ok _ | .error .malformed => .ok none

/-- The dictionary in a file; none where it is missing or holds something else. -/
def dictionary? (room : Nat) (f : File) : Except Failure (Option Dictionary) := do
  match ← f.content? with
  | none => return none
  | some content =>
    match String.fromUTF8? content with
    | none => .error .notUtf8
    | some s => dictionaryIn room s

/-- The dictionary in a file over the defaults. -/
def load (room : Nat) (defaults : Dictionary) (f : File) : Except Failure Dictionary := do
  return defaults.update ((← f.dictionary? room).getD [])

end File

/-- The settings that a file may leave out. -/
def defaults : Dictionary := [
  ("darkmode", .bool false),
  ("after_paste_enter", .bool false),
  ("debug", .bool false),
  ("history_limit", .integer 10)]

/-- The descriptions that a file may leave out. -/
def defaultDescriptions : Dictionary := [
  ("darkmode", .text "Dark mode"),
  ("after_paste_enter", .text "Calculate right after pasting"),
  ("debug", .text "Debug logging"),
  ("history_limit", .text "History entries")]

/-- The value of a setting that has a default. -/
def setting (d : Dictionary) (key : CodeText) : Value :=
  (d.find? key).getD ((defaults.find? key).getD .null)

/-- Whether the dark colours are on. -/
def isDark (d : Dictionary) : Bool := (setting d "darkmode").isTrue

/-- The two settings files. While the settings file is out of reach it can be neither read nor
written. -/
structure Store where
  config : File
  strings : File
  reachable : Bool
  /-- For how many containers inside the outermost one the limit on nested calls leaves room when a
  file is read. -/
  room : Nat

namespace Store

/-- The room that a limit of 1000 nested calls leaves when the files are read from the main
function. -/
def usualRoom : Nat := 990

/-- The nested calls that are left when the settings are written: for the outermost container, and
four more than for reading since fewer functions are under way. -/
def calls (s : Store) : Nat := s.room + 5

/-- The settings file as it is found. -/
def settingsFile (s : Store) : File := if s.reachable then s.config else .missing

/-- All settings. -/
def settings (s : Store) : Except Failure Dictionary := s.settingsFile.load s.room defaults

/-- All descriptions. -/
def descriptions (s : Store) : Except Failure Dictionary :=
  s.strings.load s.room defaultDescriptions

/-- The answer to a question for one key, or with `all` for the whole dictionary. What is no key at
all is absent. -/
def pick (absent : Value) (key : Option String) (d : Dictionary) : Value :=
  match key with
  | none => absent
  | some key => if key = "all" then .dictionary d else (d.find? key).getD absent

/-- The value of one setting; zero for a key that is not there. -/
def setting (s : Store) (key : Option String) : Except Failure Value :=
  s.settings.map (pick (.integer 0) key)

/-- The description of one setting; empty for a key that is not there. -/
def description (s : Store) (key : Option String) : Except Failure Value :=
  s.descriptions.map (pick (.text "") key)

/-- Writes a value to the settings file. What counts as saved is the value, or an empty dictionary
if it could not be written. -/
def save (v : Value) (s : Store) : Except Failure Value × Store :=
  if s.reachable && s.config.isWritable then
    let written := Json.write s.calls 0 v
    let saved := match written.obstacle with
      | none => .ok v
      | some .foreign => .ok (.dictionary [])
      | some .numberTooLong => .error .numberTooLong
      | some .tooNested => .error .tooNested
    (saved, { s with config := .ofText (.ofList written.text) })
  else (.ok (.dictionary []), s)

/-- Loads all settings, changes some and saves them. -/
def change (changes : Dictionary) (s : Store) : Except Failure Value × Store :=
  match s.settings with
  | .ok settings => s.save (.dictionary (settings.update changes))
  | .error failure => (.error failure, s)

end Store
end Settings
end DeskCalculator
