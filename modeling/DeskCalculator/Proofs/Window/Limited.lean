/-
# What a bad limit can make fail

Whatever the settings file gives as the limit of the history, recording, submitting and applying the
settings ask for it in one place each, and fail for it exactly if it is an infinity
(`fails_iff_isInfinite`).  JSON has a name for it, and a number that is too large is read as one, so
a settings file can hold it (`settings_and_submit_of_infinite_limit`).
-/

import DeskCalculator.Proofs.History.Limit
import DeskCalculator.Proofs.Window.Change

namespace DeskCalculator
namespace Window

open Settings (Value Dictionary)

/-- A limit fails if it is an infinity, and otherwise it is a number. -/
theorem exists_limit_iff {v : Value} : (∃ n, History.limit v = .ok n) ↔ ¬v.IsInfinite := by
  rcases History.limit_cases v with ⟨infinite, failed⟩ | ⟨finite, n, limit, -⟩
  · refine ⟨fun ⟨n, limit⟩ => ?_, fun finite => absurd infinite finite⟩
    rw [failed] at limit
    cases limit
  · exact ⟨fun _ => finite, fun _ => ⟨n, limit⟩⟩

/-- An entry can be added exactly under a limit that is no infinity. -/
theorem exists_add_iff {v : Value} (e : Entry) (h : History) :
    (∃ h', h.add e v = .ok h') ↔ ¬v.IsInfinite := by
  rw [← exists_limit_iff]
  constructor
  · rintro ⟨h', added⟩
    cases limit : History.limit v with
    | ok n => exact ⟨n, rfl⟩
    | error failure =>
      rw [History.add_of_limit_error limit] at added
      cases added
  · rintro ⟨n, limit⟩
    exact ⟨_, History.add_of_limit limit⟩

/-- What can be calculated can be submitted exactly under a limit that is no infinity. -/
theorem exists_submit_iff {v : Value} {text : Option CodeText} {result : String}
    (calculated : calculate text = .ok result) (h : History) :
    (∃ outcome, h.submit text v = .ok outcome) ↔ ¬v.IsInfinite := by
  rw [← exists_add_iff ⟨text, result⟩ h, History.submit_of_calculate calculated]
  constructor
  · rintro ⟨outcome, submitted⟩
    obtain ⟨h', added, -⟩ := bind_eq_ok.1 submitted
    exact ⟨h', added⟩
  · rintro ⟨h', added⟩
    exact ⟨_, bind_eq_ok.2 ⟨h', added, rfl⟩⟩

namespace Session

/-- **A window fails to submit only a text that has a value, and only for an infinite limit.** -/
theorem submit_failure_iff (s : Session) (failure : Failure) :
    s.submit.2 = some failure ↔
      failure = .infiniteLimit ∧ (Settings.setting s.settings "history_limit").IsInfinite ∧
        ∃ result, calculate (some s.input) = .ok result := by
  rcases calculate_cases (some s.input) with ⟨result, hr⟩ | ⟨f, hf⟩
  · rcases History.limit_cases (Settings.setting s.settings "history_limit") with
      ⟨infinite, failed⟩ | ⟨finite, n, limit, -⟩
    · obtain ⟨records, hs⟩ := s.submit_of_limit hr failed
      rw [hs]
      exact ⟨fun h => ⟨(Option.some.inj h).symm, infinite, result, hr⟩,
        fun h => congrArg some h.1.symm⟩
    · obtain ⟨records, hs⟩ := s.exists_submit_of_ok hr limit
      rw [hs]
      exact ⟨nofun, fun h => absurd h.2.1 finite⟩
  · obtain ⟨log, hs⟩ := s.submit_of_error hf
    rw [hs]
    refine ⟨nofun, fun ⟨_, _, result, hr⟩ => ?_⟩
    rw [hf] at hr
    cases hr

/-- **Settings that have been loaded again are applied, unless their limit is infinite.** -/
theorem openSettings_failure {s : Session} {attempts : List Dialog.Attempt} {dialog : Dialog}
    {settings : Dictionary} (opened : Dialog.load s.store = .ok dialog)
    (ran : (dialog.run s.store attempts).failure = none)
    (loaded : (dialog.run s.store attempts).store.settings = .ok settings) :
    (s.openSettings attempts).1.2 = none ↔
      ¬(Settings.setting settings "history_limit").IsInfinite := by
  unfold openSettings
  simp only [opened, ran, loaded]
  rcases History.limit_cases (Settings.setting settings "history_limit") with
    ⟨infinite, failed⟩ | ⟨finite, n, limit, -⟩
  · rw [failed]
    exact ⟨nofun, fun finite => absurd infinite finite⟩
  · rw [limit]
    exact ⟨fun _ => finite, fun _ => rfl⟩

end Session

/-- **Only an infinity makes a limit fail.**  Any other value asks for one to ten entries: for the
whole number that it stands for, moved into the range, or for ten if it stands for none.  So an
entry can be added under every limit that is no infinity; submitting fails for nothing but an
infinite limit, and settings that have been loaded again are applied unless they have one. -/
theorem fails_iff_isInfinite (v : Value) :
    ((v.IsInfinite ∧ History.limit v = .error .infiniteLimit) ∨
      (¬v.IsInfinite ∧ ∃ n, History.limit v = .ok n ∧ 1 ≤ n ∧ n ≤ 10 ∧
        (∀ i, v.StandsFor i → (n : Int) = max 1 (min i 10)) ∧
        ((∀ i, ¬v.StandsFor i) → n = 10))) ∧
    (∀ (e : Entry) (h : History), (∃ h', h.add e v = .ok h') ↔ ¬v.IsInfinite) ∧
    (∀ (text : Option CodeText) (result : String) (h : History),
      calculate text = .ok result → ((∃ outcome, h.submit text v = .ok outcome) ↔ ¬v.IsInfinite)) ∧
    (∀ (s : Session) (failure : Failure), Settings.setting s.settings "history_limit" = v →
      (s.submit.2 = some failure ↔
        failure = .infiniteLimit ∧ v.IsInfinite ∧
          ∃ result, calculate (some s.input) = .ok result)) ∧
    ∀ (s : Session) (attempts : List Dialog.Attempt) (dialog : Dialog) (settings : Dictionary),
      Dialog.load s.store = .ok dialog → (dialog.run s.store attempts).failure = none →
      (dialog.run s.store attempts).store.settings = .ok settings →
      Settings.setting settings "history_limit" = v →
        ((s.openSettings attempts).1.2 = none ↔ ¬v.IsInfinite) := by
  refine ⟨History.limit_cases v, exists_add_iff, fun text result h calculated =>
    exists_submit_iff calculated h, ?_, ?_⟩
  · rintro s failure rfl
    exact s.submit_failure_iff failure
  · rintro s attempts dialog settings opened ran loaded rfl
    exact Session.openSettings_failure opened ran loaded

/-- A text with a margin, an underscore and digits of two scripts stands for minus thirty-one, which
is moved to one; NaN stands for nothing.  An entry can be added under both limits. -/
theorem limit_of_text_and_nan :
    Value.StandsFor (.text " -٣_1") (-31) ∧ History.limit (.text " -٣_1") = .ok 1 ∧
      History.limit (.number .nan) = .ok 10 ∧ calculate (some "1/4") = .ok "0.25" ∧
      ∃ outcome, History.submit (some "1/4") (.number .nan) [] = .ok outcome := by
  have stands : Value.StandsFor (.text " -٣_1") (-31) :=
    .text (Text.wholeNumber_eq_ok_iff.1 (by decide +kernel))
  have finite : ¬(Value.number .nan).IsInfinite := fun ⟨_, h⟩ => by cases h
  have quarter : calculate (some "1/4") = .ok "0.25" := by decide +kernel
  obtain ⟨limit, -, submits, -⟩ := fails_iff_isInfinite (.number .nan)
  refine ⟨stands, ?_, ?_, quarter, (submits _ _ _ quarter).2 finite⟩
  · obtain ⟨⟨_, h⟩, -⟩ | ⟨-, n, limit, -, -, moved, -⟩ := (fails_iff_isInfinite (.text " -٣_1")).1
    · cases h
    · have := moved _ stands
      rw [limit]
      congr 1
      omega
  · obtain ⟨infinite, -⟩ | ⟨-, n, limit, -, -, -, most⟩ := limit
    · exact absurd infinite finite
    · rw [limit, most fun i h => by cases h]

/-- **A settings file can hold an infinite limit:** applying the settings fails then, and so does
submitting a text that has a value. -/
theorem settings_and_submit_of_infinite_limit : ∃ s : Session, Reachable s ∧
    s.store.config = .ofText "\x7b\"history_limit\": Infinity\x7d" ∧
    (s.perform (.settings [])).2 = some .infiniteLimit ∧
    History.limit (Settings.setting (s.perform (.settings [])).1.settings "history_limit") =
      .error .infiniteLimit ∧
    calculate (some s.input) = .ok "1" ∧
    ((s.perform (.settings [])).1.perform .enter).2 = some .infiniteLimit := by
  obtain ⟨opened, ho⟩ :
      ∃ s, Session.start false ⟨.missing, .missing, true, Settings.Store.usualRoom⟩ = .ok s :=
    ⟨_, rfl⟩
  let infinite : Settings.File := .ofText "\x7b\"history_limit\": Infinity\x7d"
  let s := ((opened.perform (.type "1")).1.perform (.writeConfig infinite)).1
  refine ⟨s, .perform (.perform (.start ho) _) _, rfl, ?_⟩
  cases ho
  decide +kernel

end Window
end DeskCalculator
