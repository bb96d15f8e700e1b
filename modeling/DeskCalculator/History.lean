/-
# The history

The pairs of an expression and its result that were recorded last, the newest first. How many are
kept is a setting between 1 and 10; a setting of any other kind is read as a whole number if it can
be, and 10 stands in where it cannot. Only an infinity is neither: it fails.
-/

import DeskCalculator.Calculation
import DeskCalculator.Settings.Value
import DeskCalculator.Text.WholeNumber

namespace DeskCalculator

/-- A recorded calculation. -/
structure Entry where
  /-- The text that was asked for, if there was one. -/
  expression : Option CodeText
  result : String
  deriving DecidableEq

/-- Recorded calculations, the newest first. -/
abbrev History := List Entry

/-- What the preview shows for a text that has no value. -/
def errorText : String := "Error"

/-- What the display shows while a text is being typed. -/
def preview (text : Option CodeText) : String :=
  match calculate text with
  | .ok result => result
  | .error _ => errorText

namespace Entry

/-- An entry as a row of the history list. -/
def row (e : Entry) : CodeText := e.expression.getD Text.absent ++ (" = " ++ e.result : String)

/-- What comes back when an entry is chosen: its expression, and the preview of that. -/
def replay (e : Entry) : Option CodeText × String := (e.expression, preview e.expression)

end Entry

namespace History

/-- The most entries that are ever kept. -/
def maxEntries : Nat := 10

/-- A number of entries, moved into the range from 1 to `maxEntries`. -/
def clamp (i : Int) : Nat := (max 1 (min i maxEntries)).toNat

/-- A clamped limit is one that a history can have. -/
theorem clamp_bounds (i : Int) : 1 ≤ clamp i ∧ clamp i ≤ maxEntries := by
  unfold clamp maxEntries; omega

/-- The number of entries that a setting asks for. -/
def limit : Settings.Value → Except Failure Nat
  | .bool b => .ok (clamp (if b then 1 else 0))
  | .integer i => .ok (clamp i)
  | .number (.infinite _) => .error .infiniteLimit
  | .number x => .ok ((x.truncate?.map clamp).getD maxEntries)
  | .text s => .ok (((s.toString?.bind Text.wholeNumber?).map clamp).getD maxEntries)
  | _ => .ok maxEntries

/-- The limit where none is set. -/
def defaultLimit : Settings.Value := .integer maxEntries

/-- Puts an entry in front and drops what is beyond the limit. -/
def add (e : Entry) (setting : Settings.Value) (h : History) : Except Failure History := do
  return (e :: h).take (← limit setting)

/-- Calculates a text and records it: the result, which replaces the text, and the history with
the pair in front. -/
def submit (text : Option CodeText) (setting : Settings.Value) (h : History) :
    Except Failure (String × History) := do
  let result ← calculate text
  return (result, ← h.add ⟨text, result⟩ setting)

/-- What the log says about a submission. -/
def submitted (text : Option CodeText) : Except Failure (String × History) → List Log.Record
  | .ok (result, h) =>
    [⟨.info, "Submitted " ++ CodeText.quotedOrAbsent text ++ " = " ++ result ++ " (" ++
      toString h.length ++ " in history)"⟩]
  | .error _ => []

/-- A setting that asks for a number of entries asks for one to ten. -/
theorem limit_bounds {setting : Settings.Value} {n : Nat} (h : limit setting = .ok n) :
    1 ≤ n ∧ n ≤ maxEntries := by
  unfold limit at h
  split at h
  · cases h; exact clamp_bounds _
  · cases h; exact clamp_bounds _
  · cases h
  · rename_i x _
    cases h
    cases x.truncate? with
    | none => exact ⟨by decide, Nat.le_refl _⟩
    | some i => exact clamp_bounds i
  · rename_i s
    cases h
    cases s.toString?.bind Text.wholeNumber? with
    | none => exact ⟨by decide, Nat.le_refl _⟩
    | some i => exact clamp_bounds i
  · cases h; exact ⟨by decide, Nat.le_refl _⟩

/-- Only an infinity asks for no number of entries. -/
theorem eq_infiniteLimit_of_limit {setting : Settings.Value} {failure : Failure}
    (h : limit setting = .error failure) : failure = .infiniteLimit := by
  unfold limit at h
  split at h <;> cases h
  rfl

variable {e : Entry} {setting : Settings.Value} {h : History}

/-- Adding an entry puts it in front and cuts what is beyond the limit. -/
theorem add_of_limit {n : Nat} (hl : limit setting = .ok n) :
    h.add e setting = .ok ((e :: h).take n) := by
  rw [add, hl]
  rfl

/-- An entry is not added under a limit that fails. -/
theorem add_of_limit_error {failure : Failure} (hl : limit setting = .error failure) :
    h.add e setting = .error failure := by
  rw [add, hl]
  rfl

/-- Submitting a text that has a value adds the pair of both. -/
theorem submit_of_calculate {text : Option CodeText} {result : String}
    (calculated : calculate text = .ok result) :
    h.submit text setting = h.add ⟨text, result⟩ setting >>= fun h' => .ok (result, h') := by
  rw [submit, calculated]
  rfl

/-- What cannot be calculated is not submitted. -/
theorem submit_of_calculate_error {text : Option CodeText} {failure : Failure}
    (calculated : calculate text = .error failure) : h.submit text setting = .error failure := by
  rw [submit, calculated]
  rfl

/-- **A recording keeps between one and ten entries.** -/
theorem length_add {h' : History}
    (eq : h.add e setting = .ok h') : h'.length ≤ maxEntries ∧ h' ≠ [] := by
  cases hl : limit setting with
  | error => rw [add_of_limit_error hl] at eq; cases eq
  | ok n =>
    rw [add_of_limit hl] at eq
    cases eq
    obtain ⟨low, high⟩ := limit_bounds hl
    refine ⟨Nat.le_trans (List.length_take_le _ _) high, ?_⟩
    obtain ⟨k, rfl⟩ := Nat.exists_eq_add_of_le low
    rw [Nat.add_comm 1 k, List.take_succ_cons]
    exact List.cons_ne_nil _ _

end History
end DeskCalculator
