/-
# Starting up

Starting needs a number of files in their places, and then loads the settings, sets up the log and
opens the window. Settings that cannot be loaded end it before anything is logged.
-/

import DeskCalculator.Window.Session

namespace DeskCalculator
namespace Startup

open Settings (Store)

/-- The files that have to be there: the folder, and the name in it. -/
def required : List (String × String) := [
  ("Calculator/", "UI.py"),
  ("Calculator/", "MathEngine.py"),
  ("Calculator/", "ScientificEngine.py"),
  ("Calculator/", "History.py"),
  ("Calculator/", "config_manager.py"),
  ("Calculator/", "error.py"),
  ("", "config.json"),
  ("", "ui_strings.json")]

/-- The names along a path. -/
def steps (path : String) : List String :=
  (path.splitOn "/").filter fun name => name ≠ "" ∧ name ≠ "."

/-- Whether there is something at a path where only these files are: one of them, or a folder on the
way to one. -/
def isThere (files : List String) (path : String) : Bool :=
  files.any fun file => (steps path).isPrefixOf (steps file)

/-- The names of the required files that are not present. -/
def missing (isPresent : String → Bool) : List String :=
  (required.filter fun (folder, name) => !isPresent (folder ++ name)).map (·.2)

/-- What is logged about missing files; nothing if none are. -/
def check (isPresent : String → Bool) : Option Log.Record :=
  match missing isPresent with
  | [] => none
  | names =>
    some ⟨.error, "The following files are missing or in the wrong location: " ++
      ", ".intercalate names⟩

/-- A start: the window, or why there is none. -/
structure Started where
  window : Except Failure Window.Session
  debugging : Bool
  log : List Log.Record

/-- Loads the settings and opens the window. -/
def start (store : Store) : Started :=
  match store.settings with
  | .error failure => ⟨.error failure, false, []⟩
  | .ok settings =>
    let debugging := (Settings.setting settings "debug").isTruthy
    let loaded : Log.Record :=
      ⟨.info, "Config loaded: " ++ (Settings.Value.dictionary settings).shown⟩
    match Window.Session.start debugging store with
    | .error failure => ⟨.error failure, debugging, [loaded]⟩
    | .ok window => ⟨.ok window, debugging, loaded :: window.log⟩

end Startup
end DeskCalculator
