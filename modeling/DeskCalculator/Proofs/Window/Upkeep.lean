/-
# What a window keeps in order

Four things hold of a window whatever has been done with it, and also if the last action stopped
half-way (`display_rows_history_appearance`): the display shows the preview of the input, the list
shows the history, the history is no longer than it may be, and the colours are those of the
settings.  The first two are `Reachable.inStep`; the others follow from what an action can change
at all (`Upkeep.change`).

The limit needs care: settings can be loaded whose limit is no number, and then the history stays as
long as it was.  So at most ten entries is an invariant of its own, and as many as the limit says
holds wherever there is one.
-/

import DeskCalculator.Proofs.Window.Change

namespace DeskCalculator
namespace Window

/-- The history holds results, and no more of them than it may; the colours are those of the
settings. -/
structure Upkeep (s : Session) : Prop where
  calculated : ∀ e ∈ s.history, ∃ text,
    e.expression = some text ∧ calculate (some text) = .ok e.result
  most : s.history.length ≤ History.maxEntries
  limited : ∀ n, s.historyLimit = .ok n → s.history.length ≤ n
  appearance : s.appearance = .ofDark (Settings.isDark s.settings)

variable {s s' : Session}

/-- **Whatever an action changes, the window is kept in order.** -/
theorem Upkeep.change (h : Upkeep s) (c : Change s s') : Upkeep s' := by
  cases c with
  | kept history settings appearance =>
    refine ⟨?_, ?_, ?_, ?_⟩
    · rw [history]
      exact h.calculated
    · rw [history]
      exact h.most
    · rw [history, Session.historyLimit, settings]
      exact h.limited
    · rw [appearance, settings]
      exact h.appearance
  | recorded text result n calculated limit history settings appearance =>
    have bounds := History.limit_bounds limit
    have short : s'.history.length ≤ n := by
      rw [history]
      exact List.length_take_le _ _
    refine ⟨fun e he => ?_, Nat.le_trans short bounds.2, fun m limit' => ?_, ?_⟩
    · rw [history] at he
      rcases List.mem_cons.1 (List.mem_of_mem_take he) with rfl | he
      · exact ⟨text, rfl, calculated⟩
      · exact h.calculated e he
    · rw [Session.historyLimit, settings, ← Session.historyLimit, limit] at limit'
      obtain rfl := Except.ok.inj limit'
      exact short
    · rw [appearance, settings]
      exact h.appearance
  | cleared history settings appearance =>
    have empty : s'.history.length = 0 := by rw [history, List.length_nil]
    refine ⟨fun e he => ?_, ?_, fun n _ => ?_, ?_⟩
    · rw [history] at he
      exact absurd he List.not_mem_nil
    · omega
    · omega
    · rw [appearance, settings]
      exact h.appearance
  | applied n limit history appearance =>
    have short : s'.history.length ≤ n := by
      rw [history]
      exact List.length_take_le _ _
    have bounds := History.limit_bounds limit
    refine ⟨fun e he => ?_, Nat.le_trans short bounds.2, fun m limit' => ?_, appearance⟩
    · rw [history] at he
      exact h.calculated e (List.mem_of_mem_take he)
    · rw [limit] at limit'
      obtain rfl := Except.ok.inj limit'
      exact short
  | stopped failure limit history appearance =>
    refine ⟨?_, ?_, fun n limit' => ?_, appearance⟩
    · rw [history]
      exact h.calculated
    · rw [history]
      exact h.most
    · rw [limit] at limit'
      cases limit'

/-- A window that has just been opened is in order. -/
theorem upkeep_start {debugging : Bool} {store : Settings.Store}
    (h : Session.start debugging store = .ok s) : Upkeep s := by
  obtain ⟨settings, -, h⟩ := bind_eq_ok.1 h
  cases h
  exact ⟨fun e he => absurd he List.not_mem_nil, Nat.zero_le _, fun n _ => Nat.zero_le n, rfl⟩

/-- **Every session that can come about is in order.** -/
theorem Reachable.upkeep (h : Reachable s) : Upkeep s := by
  induction h with
  | start opened => exact upkeep_start opened
  | perform _ a ih => exact ih.change (Session.change_perform _ a)
  | fresh _ ih => exact ⟨ih.calculated, ih.most, ih.limited, ih.appearance⟩

/-- **In every session that can come about, four things hold.**  The display shows the preview of
the input; the rows of the list are the history in order, each an entry under the label
`expression = result`; the history has at most ten entries, and at most as many as its limit says
where the settings have one; the window, the display and the keys have the colours that the
settings ask for, white on black or those of the system, and the equals key is blue in both. -/
theorem display_rows_history_appearance (h : Reachable s) :
    s.display = preview (some s.input) ∧
    (s.rows = s.history ∧ ∀ e ∈ s.rows, ∃ text, e.expression = some text ∧
      e.row = text ++ (" = " ++ e.result : String)) ∧
    (s.history.length ≤ 10 ∧
      ∀ n, History.limit (Settings.setting s.settings "history_limit") = .ok n →
        s.history.length ≤ n) ∧
    s.appearance = .ofDark (Settings.isDark s.settings) ∧
    (Settings.isDark s.settings = true →
      s.appearance.window = "background-color: #121212; color: white;" ∧
      s.appearance.display = "background-color: #121212; color: white; font-weight: bold;" ∧
      s.appearance.keys = "background-color: #121212; color: white; font-weight: bold;") ∧
    (Settings.isDark s.settings = false →
      s.appearance.window = "" ∧ s.appearance.display = "font-weight: bold;" ∧
      s.appearance.keys = "font-weight: normal;") ∧
    s.appearance.equals = "background-color: #007bff; color: white; font-weight: bold;" := by
  have inStep := h.inStep
  have upkeep := h.upkeep
  refine ⟨inStep.display, ⟨inStep.rows, fun e he => ?_⟩, ⟨upkeep.most, upkeep.limited⟩,
    upkeep.appearance, fun dark => ?_, fun light => ?_, ?_⟩
  · rw [inStep.rows] at he
    obtain ⟨text, expression, -⟩ := upkeep.calculated e he
    refine ⟨text, expression, ?_⟩
    rw [Entry.row, expression]
    rfl
  · rw [upkeep.appearance, dark]
    exact ⟨rfl, rfl, rfl⟩
  · rw [upkeep.appearance, light]
    exact ⟨rfl, rfl, rfl⟩
  · rw [upkeep.appearance]
    rfl

/-- A third is recorded, then settings are loaded that are dark and have an infinity for their
limit: the action stops, and the window is in order. -/
theorem display_rows_of_infinite_limit : ∃ s : Session, Reachable s ∧
    History.limit (Settings.setting s.settings "history_limit") = .error .infiniteLimit ∧
    s.display = "0.3333333333333333" ∧ s.rows = [⟨some "1/3", "0.3333333333333333"⟩] ∧
    s.appearance = .ofDark true ∧
    s.appearance.window = "background-color: #121212; color: white;" := by
  let infinite : Settings.File := .ofText "\x7b\"darkmode\": true, \"history_limit\": 1e999\x7d"
  obtain ⟨opened, ho⟩ :
      ∃ s, Session.start false ⟨.missing, .missing, true, Settings.Store.usualRoom⟩ = .ok s :=
    ⟨_, rfl⟩
  let recorded := ((opened.perform (.type "1/3")).1.perform .enter).1
  let s := ((recorded.perform (.writeConfig infinite)).1.perform (.settings [])).1
  have reachable : Reachable s :=
    .perform (.perform (.perform (.perform (.start ho) _) _) _) _
  obtain ⟨limit, shown, entries, dark⟩ :
      History.limit (Settings.setting s.settings "history_limit") = .error .infiniteLimit ∧
      preview (some s.input) = "0.3333333333333333" ∧
      s.history = [⟨some "1/3", "0.3333333333333333"⟩] ∧ Settings.isDark s.settings = true := by
    cases ho
    decide +kernel
  obtain ⟨display, ⟨rows, -⟩, -, appearance, texts, -⟩ := display_rows_history_appearance reachable
  rw [shown] at display
  rw [entries] at rows
  rw [dark] at appearance
  exact ⟨s, reachable, limit, display, rows, appearance, (texts dark).1⟩

end Window
end DeskCalculator
