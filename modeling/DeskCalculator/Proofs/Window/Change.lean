/-
# What an action changes

Of all that happens to a window, little touches what it keeps: the history, the settings and the
colours.  An action leaves the three alone, or puts one calculation in front of the history, or
forgets the history, or loads the settings again, with the colours that go with them; the history
is then cut to the new limit, unless the new settings have none and the action stops there
(`Change`).  Whatever holds of these three in every session is a case analysis over that
(`change_perform`).
-/

import DeskCalculator.Proofs.Window.Submission

namespace DeskCalculator
namespace Window

/-- What an action does to the history, the settings and the colours. -/
inductive Change (s s' : Session) : Prop where
  | kept (history : s'.history = s.history) (settings : s'.settings = s.settings)
      (appearance : s'.appearance = s.appearance)
  /-- A calculation is put in front. -/
  | recorded (text : CodeText) (result : String) (n : Nat)
      (calculated : calculate (some text) = .ok result) (limit : s.historyLimit = .ok n)
      (history : s'.history = (⟨some text, result⟩ :: s.history).take n)
      (settings : s'.settings = s.settings) (appearance : s'.appearance = s.appearance)
  | cleared (history : s'.history = []) (settings : s'.settings = s.settings)
      (appearance : s'.appearance = s.appearance)
  /-- The settings are loaded again, and have a limit. -/
  | applied (n : Nat) (limit : s'.historyLimit = .ok n)
      (history : s'.history = s.history.take n)
      (appearance : s'.appearance = .ofDark (Settings.isDark s'.settings))
  /-- The settings are loaded again, and have no limit. -/
  | stopped (failure : Failure) (limit : s'.historyLimit = .error failure)
      (history : s'.history = s.history)
      (appearance : s'.appearance = .ofDark (Settings.isDark s'.settings))

/-- What went before may have changed something else. -/
theorem Change.of_kept {s t s' : Session} (h : Change t s') (history : t.history = s.history)
    (settings : t.settings = s.settings) (appearance : t.appearance = s.appearance) :
    Change s s' := by
  have limit : t.historyLimit = s.historyLimit := by
    rw [Session.historyLimit, Session.historyLimit, settings]
  cases h with
  | kept history' settings' appearance' =>
    exact .kept (history'.trans history) (settings'.trans settings) (appearance'.trans appearance)
  | recorded text result n calculated limit' history' settings' appearance' =>
    refine .recorded text result n calculated (limit ▸ limit') ?_ (settings'.trans settings)
      (appearance'.trans appearance)
    rw [history', history]
  | cleared history' settings' appearance' =>
    exact .cleared history' (settings'.trans settings) (appearance'.trans appearance)
  | applied n limit' history' appearance' =>
    exact .applied n limit' (by rw [history', history]) appearance'
  | stopped failure limit' history' appearance' =>
    exact .stopped failure limit' (history'.trans history) appearance'

namespace Session

variable (s : Session)

/-- A new input leaves the colours. -/
@[simp] theorem setInput_appearance (text : CodeText) :
    (s.setInput text).appearance = s.appearance := by
  unfold setInput
  split <;> rfl

/-- A new input keeps the three. -/
theorem change_setInput (text : CodeText) : Change s (s.setInput text) :=
  .kept (setInput_history text) (setInput_settings text) (s.setInput_appearance text)

/-- A result that cannot be recorded leaves a trace in the log only. -/
theorem submit_of_limit {result : String} {failure : Failure}
    (h : calculate (some s.input) = .ok result) (limit : s.historyLimit = .error failure) :
    ∃ records, s.submit = (s.note records, some failure) := by
  obtain rfl := History.eq_infiniteLimit_of_limit limit
  have outcome : s.history.submit (some s.input) (Settings.setting s.settings "history_limit") =
      .error .infiniteLimit := by
    rw [historyLimit] at limit
    rw [History.submit_of_calculate h, History.add_of_limit_error limit]
    rfl
  unfold submit
  simp only [outcome]
  exact ⟨_, rfl⟩

/-- Submitting puts a calculation in front, or keeps the three where it fails. -/
theorem change_submit : Change s s.submit.1 := by
  rcases calculate_cases (some s.input) with ⟨result, hr⟩ | ⟨f, hf⟩
  · cases limit : s.historyLimit with
    | ok n =>
      obtain ⟨records, hs⟩ := s.exists_submit_of_ok hr limit
      rw [hs]
      refine .recorded s.input result n hr limit ?_ ?_ ?_
      · rw [setInput_history]
        rfl
      · rw [setInput_settings]
        rfl
      · rw [setInput_appearance]
        rfl
    | error failure =>
      obtain ⟨records, hs⟩ := s.submit_of_limit hr limit
      rw [hs]
      exact .kept rfl rfl rfl
  · obtain ⟨log, hs⟩ := s.submit_of_error hf
    rw [hs]
    exact .kept rfl rfl rfl

/-- Copying keeps the three; pasting does what submitting the longer input does, if it submits. -/
theorem change_useClipboard : Change s s.useClipboard.1 := by
  unfold useClipboard
  split
  · exact .kept rfl rfl rfl
  · split
    · exact .kept rfl rfl rfl
    · simp only []
      split
      · exact (change_submit _).of_kept (setInput_history _) (setInput_settings _)
          (s.setInput_appearance _)
      · exact s.change_setInput _

/-- Behind the settings dialog the settings are loaded again, unless it could not be opened or a
save failed. -/
theorem change_openSettings (attempts : List Dialog.Attempt) :
    Change s (s.openSettings attempts).1.1 := by
  unfold openSettings
  split
  · exact .kept rfl rfl rfl
  · simp only []
    split
    · exact .kept rfl rfl rfl
    · exact .kept rfl rfl rfl
    · split
      · rename_i failure limit
        exact .stopped failure limit rfl rfl
      · rename_i n limit
        exact .applied n limit rfl rfl

/-- A key submits, uses the clipboard, opens the settings, or sets the input. -/
theorem change_activate (key : Key) : Change s (s.activate key).1 := by
  unfold activate
  split
  · exact s.change_submit
  · exact s.change_setInput _
  · exact s.change_setInput _
  · exact s.change_setInput _
  · exact s.change_useClipboard
  · exact s.change_openSettings []
  · exact s.change_setInput _

/-- Pressing a key only starts the timer. -/
theorem change_keyPressed (key : Key) : Change s (s.keyPressed key) := by
  unfold keyPressed
  split <;> exact .kept rfl rfl rfl

/-- Releasing a key only stops the timer. -/
theorem change_keyReleased (key : Key) : Change s (s.keyReleased key) := by
  unfold keyReleased
  split <;> exact .kept rfl rfl rfl

/-- Taking an entry back sets the input and the display only. -/
theorem change_replay (index : Nat) : Change s (s.replay index) := by
  unfold replay
  split <;> exact .kept rfl rfl rfl

/-- A click activates the key, unless it has fired while held. -/
theorem change_keyClicked (key : Key) : Change s (s.keyClicked key).1 := by
  unfold keyClicked
  split
  · exact .kept rfl rfl rfl
  · exact s.change_activate key

/-- A tick activates the held key. -/
theorem change_tick : Change s s.tick.1 := by
  unfold tick
  simp only []
  split
  · exact (change_activate _ _).of_kept rfl rfl rfl
  · exact .kept rfl rfl rfl

/-- **Every action changes the history, the settings and the colours in one of five ways**, also one
that stops half-way. -/
theorem change_perform (a : Action) : Change s (s.perform a).1 := by
  cases a with
  | pressed key => exact s.change_keyPressed key
  | released key => exact s.change_keyReleased key
  | clicked key => exact s.change_keyClicked key
  | tick => exact s.change_tick
  | type text => exact s.change_setInput text
  | enter => exact s.change_submit
  | shift down => exact .kept rfl rfl rfl
  | keyboardShift down => exact .kept rfl rfl rfl
  | setClipboard text => exact .kept rfl rfl rfl
  | replay index => exact s.change_replay index
  | clearHistory => exact .cleared rfl rfl rfl
  | settings attempts => exact s.change_openSettings attempts
  | writeConfig file => exact .kept rfl rfl rfl
  | unreach => exact .kept rfl rfl rfl

end Session
end Window
end DeskCalculator
