/-
# Sessions that can come about

A session comes about by opening a window and by any actions after that, in any order; an action
that stops half-way leaves what it had done (`Reachable`).  The input, the display, the history and
its list are set in several places, some of which set two of them at once, so that they agree is a
property of whole sessions: the display always shows the preview of the input, and the list the
entries of the history (`Reachable.inStep`).
-/

import DeskCalculator.Proofs.Except
import DeskCalculator.Window.Session

namespace DeskCalculator
namespace Window

/-- A session that can come about. -/
inductive Reachable : Session → Prop where
  | start {debugging : Bool} {store : Settings.Store} {s : Session}
      (opened : Session.start debugging store = .ok s) : Reachable s
  | perform {s : Session} (h : Reachable s) (a : Action) : Reachable (s.perform a).1
  | fresh {s : Session} (h : Reachable s) : Reachable s.fresh

namespace Session

/-- The display shows the preview of the input, the list the history. -/
structure InStep (s : Session) : Prop where
  display : s.display = preview (some s.input)
  rows : s.rows = s.history

/-- No text has the preview of the empty one. -/
theorem preview_getD (text : Option CodeText) : preview text = preview (some (text.getD "")) := by
  cases text with
  | some text => rfl
  | none => decide +kernel

variable {s : Session}

/-- A record in the log is not shown. -/
theorem InStep.note (h : s.InStep) (records : List Log.Record) : (s.note records).InStep :=
  ⟨h.display, h.rows⟩

/-- A box covers neither the display nor the list. -/
theorem InStep.showBox (h : s.InStep) (b : Box) : (s.showBox b).InStep := ⟨h.display, h.rows⟩

/-- Setting the history sets the list with it. -/
theorem InStep.setHistory (h : s.InStep) (entries : History) : (s.setHistory entries).InStep :=
  ⟨h.display, rfl⟩

/-- Setting the input keeps the display in step: it is refreshed unless the input is the same. -/
theorem InStep.setInput (h : s.InStep) (text : CodeText) : (s.setInput text).InStep := by
  unfold Session.setInput
  split
  · exact h
  · exact ⟨rfl, h.rows⟩

/-- Submitting keeps the session in step: what it does is setting the history and the input. -/
theorem InStep.submit (h : s.InStep) : s.submit.1.InStep := by
  unfold Session.submit
  simp only []
  split
  · exact ((h.note _).setHistory _).setInput _
  · exact ((h.note _).note _).showBox _
  · exact h.note _

/-- The clipboard keeps it in step, as pasting sets the input. -/
theorem InStep.useClipboard (h : s.InStep) : s.useClipboard.1.InStep := by
  unfold Session.useClipboard
  split
  · exact ⟨h.display, h.rows⟩
  · split
    · exact h
    · simp only []
      split
      · exact (h.setInput _).submit
      · exact h.setInput _

/-- The settings dialog keeps it in step, as the cut history is listed again. -/
theorem InStep.openSettings (h : s.InStep) (attempts : List Dialog.Attempt) :
    (s.openSettings attempts).1.1.InStep := by
  unfold Session.openSettings
  split
  · exact h
  · simp only []
    split
    · exact ⟨h.display, h.rows⟩
    · exact ⟨h.display, h.rows⟩
    · split
      · exact ⟨h.display, h.rows⟩
      · exact ⟨h.display, rfl⟩

/-- Every key keeps it in step. -/
theorem InStep.activate (h : s.InStep) (key : Key) : (s.activate key).1.InStep := by
  unfold Session.activate
  split
  · exact h.submit
  · exact h.setInput _
  · exact h.setInput _
  · exact h.setInput _
  · exact h.useClipboard
  · exact h.openSettings []
  · exact h.setInput _

/-- Pressing a key shows nothing new. -/
theorem InStep.keyPressed (h : s.InStep) (key : Key) : (s.keyPressed key).InStep := by
  unfold Session.keyPressed
  split
  · exact ⟨h.display, h.rows⟩
  · exact h

/-- Releasing a key shows nothing new. -/
theorem InStep.keyReleased (h : s.InStep) (key : Key) : (s.keyReleased key).InStep := by
  unfold Session.keyReleased
  split
  · exact ⟨h.display, h.rows⟩
  · exact h

/-- A click keeps the session in step as the key does. -/
theorem InStep.keyClicked (h : s.InStep) (key : Key) : (s.keyClicked key).1.InStep := by
  unfold Session.keyClicked
  split
  · exact h
  · exact h.activate key

/-- A tick keeps the session in step as the held key does. -/
theorem InStep.tick (h : s.InStep) : s.tick.1.InStep := by
  unfold Session.tick
  simp only []
  split
  · refine InStep.activate ?_ _
    exact ⟨h.display, h.rows⟩
  · exact ⟨h.display, h.rows⟩

/-- Taking an entry back sets the input and the display at once, to what belongs together. -/
theorem InStep.replay (h : s.InStep) (index : Nat) : (s.replay index).InStep := by
  unfold Session.replay
  split
  · exact ⟨preview_getD _, h.rows⟩
  · exact h

/-- Forgetting the history empties the list. -/
theorem InStep.clearHistory (h : s.InStep) : s.clearHistory.InStep := (h.setHistory []).note _

/-- **Every action keeps a session in step**, also one that stops half-way. -/
theorem InStep.perform (h : s.InStep) (a : Action) : (s.perform a).1.InStep := by
  cases a with
  | pressed key => exact h.keyPressed key
  | released key => exact h.keyReleased key
  | clicked key => exact h.keyClicked key
  | tick => exact h.tick
  | type text => exact h.setInput text
  | enter => exact h.submit
  | shift down => exact ⟨h.display, h.rows⟩
  | keyboardShift down => exact ⟨h.display, h.rows⟩
  | setClipboard text => exact ⟨h.display, h.rows⟩
  | replay index => exact h.replay index
  | clearHistory => exact h.clearHistory
  | settings attempts => exact h.openSettings attempts
  | writeConfig file => exact ⟨h.display, h.rows⟩
  | unreach => exact ⟨h.display, h.rows⟩

/-- A window that has just been opened is in step. -/
theorem inStep_start {debugging : Bool} {store : Settings.Store}
    (h : start debugging store = .ok s) : s.InStep := by
  obtain ⟨settings, -, h⟩ := bind_eq_ok.1 h
  cases h
  exact ⟨rfl, rfl⟩

end Session

/-- **In every session that can come about, the display shows the preview of the input and the list
shows the history.** -/
theorem Reachable.inStep {s : Session} (h : Reachable s) : s.InStep := by
  induction h with
  | start opened => exact Session.inStep_start opened
  | perform _ a ih => exact ih.perform a
  | fresh _ ih => exact ⟨ih.display, ih.rows⟩

end Window
end DeskCalculator
