/-
# Taking an entry back

An entry of the history is a promise: its expression has the value that stands beside it.  Entries
are put into the history when an input is submitted, are cut off when the settings change and are
forgotten all at once, but none is ever changed, so the promise is kept in every session that can
come about.

That is what makes taking an entry back work (`replay_shows_result`).  The expression becomes the
input and its preview is put on the display directly, past the usual refresh; what is shown is the
recorded result, and submitting records the same pair again.
-/

import DeskCalculator.Proofs.Window.Upkeep

namespace DeskCalculator
namespace Window

namespace Session

variable {s : Session} {index : Nat} {e : Entry} {text : CodeText}

/-- Taking an entry back sets the input and the display, and leaves a trace in the log. -/
theorem exists_perform_replay (row : s.rows[index]? = some e)
    (expression : e.expression = some text) (calculated : calculate (some text) = .ok e.result) :
    ∃ records, s.perform (.replay index) =
      ({ s.note records with input := text, display := e.result }, none) := by
  refine ⟨trace (some text), ?_⟩
  have replayed : e.replay = (some text, e.result) := by
    rw [Entry.replay, expression, preview_of_ok calculated]
  rw [perform, replay, row]
  simp only [replayed, Option.getD_some]

/-- **An input that has a result is recorded with it**, and both the input and the display read the
result then. -/
theorem exists_submit_of_inStep {result : String} {n : Nat} (inStep : s.InStep)
    (h : calculate (some s.input) = .ok result) (limit : s.historyLimit = .ok n) :
    ∃ s', s.submit = (s', none) ∧ s'.input = result ∧ s'.display = result ∧
      s'.history = (⟨some s.input, result⟩ :: s.history).take n ∧ s'.rows = s'.history := by
  obtain ⟨-, settled⟩ := settled_submit inStep h limit
  obtain ⟨records, submitted⟩ := s.exists_submit_of_ok h limit
  rw [submitted] at settled ⊢
  refine ⟨_, rfl, settled.input, settled.display, ?_, settled.inStep.rows⟩
  rw [setInput_history]
  rfl

end Session

/-- **Every entry tells the truth, so taking it back shows what was recorded.**  In every session
that can come about, each entry of the history has an expression, and calculating that gives the
result beside it.  Whatever the input, the settings and the limit have become, choosing a row of the
list makes the expression of its entry the input and its result the display, which is never
`Error`, and leaves the history, its list and the settings alone; if the settings have a limit,
submitting then puts the same pair in front of the history once more. -/
theorem replay_shows_result {s : Session} (reachable : Reachable s) :
    (∀ e ∈ s.history, ∃ text, e.expression = some text ∧ calculate (some text) = .ok e.result) ∧
    s.rows = s.history ∧
    ∀ (index : Nat) (e : Entry), s.rows[index]? = some e →
      ∃ s', s.perform (.replay index) = (s', none) ∧
        some s'.input = e.expression ∧ s'.display = e.result ∧ s'.display ≠ errorText ∧
        s'.history = s.history ∧ s'.rows = s.rows ∧ s'.settings = s.settings ∧
        ∀ n, History.limit (Settings.setting s'.settings "history_limit") = .ok n →
          ∀ a : Action, a.Submits → ∃ s'', s'.perform a = (s'', none) ∧
            s''.input = e.result ∧ s''.display = e.result ∧
            s''.history = (e :: s.history).take n ∧ s''.history.head? = some e ∧
            s''.rows = s''.history := by
  have upkeep := reachable.upkeep
  have inStep := reachable.inStep
  refine ⟨upkeep.calculated, inStep.rows, fun index e row => ?_⟩
  have recorded : e ∈ s.history := by
    rw [← inStep.rows]
    exact List.mem_of_getElem? row
  obtain ⟨text, expression, calculated⟩ := upkeep.calculated e recorded
  obtain ⟨records, replayed⟩ := s.exists_perform_replay row expression calculated
  have inStep' := inStep.perform (.replay index)
  rw [replayed] at inStep' ⊢
  have shown : e.result ≠ errorText := by
    obtain ⟨negative, m, plain⟩ := exists_plain_of_calculate calculated
    rw [plain]
    exact Binary64.plain_ne_errorText negative m
  refine ⟨_, rfl, expression.symm, rfl, shown, rfl, rfl, rfl, fun n limit a submits => ?_⟩
  obtain ⟨s'', submitted, input, display, history, rows⟩ :=
    Session.exists_submit_of_inStep inStep' calculated limit
  have again : s''.history = (e :: s.history).take n := by
    rw [history, ← expression]
    rfl
  refine ⟨s'', (submits.perform _).trans submitted, input, display, again, ?_, rows⟩
  have low : 1 ≤ n := (History.limit_bounds limit).1
  rw [again, List.head?_take, if_neg (by omega), List.head?_cons]

/-- Two results are recorded, the limit is set to two, and the input is left unfinished: the older
row still shows a third, and is recorded again in the place of what is cut. -/
theorem replay_third_of_unfinished : ∃ s s' s'' : Session, Reachable s ∧ s.display = "Error" ∧
    s.rows[1]? = some ⟨some "1/3", "0.3333333333333333"⟩ ∧
    s.perform (.replay 1) = (s', none) ∧ s'.display = "0.3333333333333333" ∧
    s'.perform (.clicked .equals) = (s'', none) ∧
    s''.history = [⟨some "1/3", "0.3333333333333333"⟩, ⟨some "2^10", "1024"⟩] := by
  let two : Settings.File := .ofText "\x7b\"darkmode\": true, \"history_limit\": 2\x7d"
  obtain ⟨opened, ho⟩ :
      ∃ s, Session.start false ⟨.missing, .missing, true, Settings.Store.usualRoom⟩ = .ok s :=
    ⟨_, rfl⟩
  let third := ((opened.perform (.type "1/3")).1.perform .enter).1
  let power := ((third.perform (.type "2^10")).1.perform .enter).1
  let cut := ((power.perform (.writeConfig two)).1.perform (.settings [])).1
  let s := (cut.perform (.type "(((")).1
  have reachable : Reachable s :=
    .perform (.perform (.perform (.perform (.perform (.perform (.perform (.start ho) _) _) _) _) _)
      _) _
  obtain ⟨display, row, limit, entries⟩ : s.display = "Error" ∧
      s.rows[1]? = some ⟨some "1/3", "0.3333333333333333"⟩ ∧
      History.limit (Settings.setting s.settings "history_limit") = .ok 2 ∧
      (⟨some "1/3", "0.3333333333333333"⟩ :: s.history).take 2 =
        [⟨some "1/3", "0.3333333333333333"⟩, ⟨some "2^10", "1024"⟩] := by
    cases ho
    decide +kernel
  obtain ⟨s', replayed, -, shown, -, -, -, settings, submitted⟩ :=
    (replay_shows_result reachable).2.2 1 _ row
  rw [settings] at submitted
  obtain ⟨s'', again, -, -, history, -⟩ := submitted 2 limit (.clicked .equals) (.inr rfl)
  rw [entries] at history
  exact ⟨s, s', s'', reachable, display, row, replayed, shown, again, history⟩

end Window
end DeskCalculator
