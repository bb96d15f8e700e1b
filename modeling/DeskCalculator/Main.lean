/-
# The command line

A desk calculator in a terminal. It loads the settings from the current folder and then takes one
expression a line, which is typed into the window and submitted; the display answers, and message
boxes are printed. The log goes to the standard error.

With `--check` it only looks for the required files and ends with status 1 if some are missing.
-/

import DeskCalculator.Startup

namespace DeskCalculator
namespace CommandLine

open Settings (File Store)
open Window (Session)

/-- What is found under a name in the current folder. -/
def find (name : String) : IO File := do
  try
    return .bytes (← IO.FS.readBinFile name)
  catch
    | .noFileOrDirectory _ _ _ => return .missing
    | .permissionDenied _ _ _ => return .denied
    | _ => return .folder

/-- Whether something can be read under a name. -/
def isFound (name : String) : IO Bool := do
  match ← find name with
  | .bytes _ => return true
  | _ => return false

/-- Prints records of the log. -/
def report (records : List Log.Record) : IO Unit := do
  for r in records do
    IO.eprintln r.shown

/-- Looks for the required files. -/
def check : IO UInt32 := do
  let paths := Startup.required.map fun (folder, name) => folder ++ name
  let present ← paths.filterM isFound
  match Startup.check (Startup.isThere present) with
  | none => return 0
  | some record =>
    report [record]
    return 1

/-- Shows what has come of an action. -/
def display (s : Session) : IO Unit := do
  report s.log
  for box in s.boxes do
    IO.println (box.title ++ ": " ++ box.text)
    IO.println ((box.info.map CodeText.shown).getD "")
  if s.boxes.isEmpty then
    IO.println s.display

/-- Submits one line after another until the input ends or an action fails. -/
partial def converse (input : IO.FS.Stream) (s : Session) : IO UInt32 := do
  let line ← input.getLine
  if line.isEmpty then return 0
  match s.fresh.performAll [.type line.trimAscii.toString, .enter] with
  | (s, none) =>
    display s
    converse input s
  | (s, some _) =>
    display s
    return 1

/-- Starts the calculator. -/
def run : IO UInt32 := do
  let store : Store := ⟨← find "config.json", ← find "ui_strings.json", true, Store.usualRoom⟩
  let started := Startup.start store
  report started.log
  match started.window with
  | .ok s => converse (← IO.getStdin) s
  | .error _ => return 1

end CommandLine
end DeskCalculator

/-- Starts the calculator, or only checks the files. -/
def main (args : List String) : IO UInt32 :=
  if args.contains "--check" then DeskCalculator.CommandLine.check
  else DeskCalculator.CommandLine.run
