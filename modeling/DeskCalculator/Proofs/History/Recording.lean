/-
# A history passed from call to call

Two calls record a pair: submitting a text, and adding a pair that is there already.  Each comes
with a limit of its own, so the history can be cut to a few entries by one call and grow again with
the next ones.  What is cut is gone: the history is at any time the newest part of all that has been
recorded, without a gap and in order (`history_prefix_recorded`).

A call either puts its pair in front and cuts what is beyond its limit, or changes nothing at all
(`Journal.step_cases`); which of the two, and with which pair, does not depend on the history.
-/

import DeskCalculator.History
import Mathlib.Data.List.Induction

namespace DeskCalculator

/-- A call that records a pair, if it succeeds, and the setting that it takes the limit from. -/
inductive Recording where
  /-- A text is calculated. -/
  | submit (text : Option CodeText) (setting : Settings.Value)
  /-- A pair is recorded as it is. -/
  | add (e : Entry) (setting : Settings.Value)

namespace Recording

/-- The setting that a call takes the limit from. -/
def setting : Recording → Settings.Value
  | .submit _ setting => setting
  | .add _ setting => setting

/-- The pair that a call is about: the raw text with what calculating it gives, or the pair that is
handed over.  A text that has no value is about none. -/
inductive Gives : Recording → Entry → Prop where
  | submit {text : Option CodeText} {setting : Settings.Value} {result : String}
      (calculated : calculate text = .ok result) : Gives (.submit text setting) ⟨text, result⟩
  | add {e : Entry} {setting : Settings.Value} : Gives (.add e setting) e

/-- A call fails if there is no pair to record, or no limit to cut the history to. -/
def Fails (c : Recording) : Prop :=
  (∀ e, ¬ c.Gives e) ∨ History.limit c.setting = .error .infiniteLimit

end Recording

/-- What is passed from call to call: the input text and the history, and beside them all pairs that
have been recorded so far, the newest first. -/
structure Journal where
  input : CodeText
  history : History
  recorded : List Entry

namespace Journal

/-- Nothing has been recorded yet. -/
def blank : Journal := ⟨"", [], []⟩

/-- The journal after a call: what the call returns, or the journal as it was if the call fails. -/
def step (j : Journal) : Recording → Journal
  | .submit text setting =>
    match j.history.submit text setting with
    | .ok (result, history) => ⟨result, history, ⟨text, result⟩ :: j.recorded⟩
    | .error _ => j
  | .add e setting =>
    match j.history.add e setting with
    | .ok history => { j with history, recorded := e :: j.recorded }
    | .error _ => j

/-- The journal after one call after another, from the start. -/
def run (calls : List Recording) : Journal := calls.foldl step blank

/-- A run with one call more makes that call last. -/
theorem run_append (calls : List Recording) (c : Recording) :
    run (calls ++ [c]) = (run calls).step c := by
  rw [run, List.foldl_append]
  rfl

end Journal

namespace Journal

variable {j : Journal} {c : Recording}

/-- A call that has a pair and a limit records the pair and cuts the history to the limit. -/
theorem step_of_gives {e : Entry} {n : Nat} (gives : c.Gives e)
    (limit : History.limit c.setting = .ok n) :
    (j.step c).history = (e :: j.history).take n ∧ (j.step c).recorded = e :: j.recorded := by
  cases gives with
  | @submit text setting result calculated =>
    have outcome : j.history.submit text setting =
        .ok (result, (⟨text, result⟩ :: j.history).take n) := by
      rw [Recording.setting] at limit
      rw [History.submit_of_calculate calculated, History.add_of_limit limit]
      rfl
    rw [step, outcome]
    exact ⟨rfl, rfl⟩
  | @add _ setting =>
    have outcome : j.history.add e setting = .ok ((e :: j.history).take n) :=
      History.add_of_limit limit
    rw [step, outcome]
    exact ⟨rfl, rfl⟩

/-- A call that fails changes nothing. -/
theorem step_of_fails (fails : c.Fails) : j.step c = j := by
  cases c with
  | submit text setting =>
    have outcome : ∃ failure, j.history.submit text setting = .error failure := by
      cases calculated : calculate text with
      | error failure => exact ⟨failure, History.submit_of_calculate_error calculated⟩
      | ok result =>
        rcases fails with none | limit
        · exact absurd (.submit calculated) (none ⟨text, result⟩)
        · refine ⟨.infiniteLimit, ?_⟩
          rw [Recording.setting] at limit
          rw [History.submit_of_calculate calculated, History.add_of_limit_error limit]
          rfl
    obtain ⟨failure, outcome⟩ := outcome
    rw [step, outcome]
  | add e setting =>
    rcases fails with none | limit
    · exact absurd .add (none e)
    · have outcome : j.history.add e setting = .error .infiniteLimit :=
        History.add_of_limit_error limit
      rw [step, outcome]

/-- **A call fails and changes nothing, or it has a pair and a limit, and then it records the pair
and cuts the history to the limit.** -/
theorem step_cases (j : Journal) (c : Recording) :
    (c.Fails ∧ j.step c = j) ∨
      ∃ e n, c.Gives e ∧ History.limit c.setting = .ok n ∧
        (j.step c).history = (e :: j.history).take n ∧ (j.step c).recorded = e :: j.recorded := by
  by_cases fails : c.Fails
  · exact .inl ⟨fails, step_of_fails fails⟩
  · obtain ⟨some, limited⟩ := not_or.1 fails
    obtain ⟨e, gives⟩ := not_forall_not.1 some
    right
    cases limit : History.limit c.setting with
    | error failure =>
      obtain rfl := History.eq_infiniteLimit_of_limit limit
      exact absurd limit limited
    | ok n => exact ⟨e, n, gives, rfl, step_of_gives gives limit⟩

/-- A call keeps the history the newest part of what has been recorded. -/
theorem prefix_step (h : j.history <+: j.recorded) (c : Recording) :
    (j.step c).history <+: (j.step c).recorded := by
  rcases j.step_cases c with ⟨-, kept⟩ | ⟨e, n, -, -, history, recorded⟩
  · rw [kept]
    exact h
  · rw [history, recorded]
    exact (List.take_prefix n _).trans ((List.prefix_cons_inj e).2 h)

/-- **After any calls, the history is the newest part of what has been recorded.** -/
theorem prefix_run (calls : List Recording) : (run calls).history <+: (run calls).recorded := by
  induction calls using List.reverseRecOn with
  | nil => exact List.prefix_rfl
  | append_singleton calls c ih =>
    rw [run_append]
    exact prefix_step ih c

end Journal

/-- **The history is the newest part of all that has been recorded, and every recording makes it one
entry longer, up to its limit.**  After any calls the history is a prefix of the list of all
recorded pairs, the newest first.  A further call fails and leaves the input, the history and that
list as they are; or it puts one pair in front of the list, a raw text with what calculating it
gives or the pair handed over, and the history has one entry more or as many as the limit of this
call, whichever is less, which is never none and never more than ten. -/
theorem history_prefix_recorded (calls : List Recording) :
    (Journal.run calls).history <+: (Journal.run calls).recorded ∧
    ∀ c : Recording,
      (c.Fails ∧ Journal.run (calls ++ [c]) = Journal.run calls) ∨
      ∃ e n, c.Gives e ∧ History.limit c.setting = .ok n ∧
        (Journal.run (calls ++ [c])).recorded = e :: (Journal.run calls).recorded ∧
        (Journal.run (calls ++ [c])).history.head? = some e ∧
        (Journal.run (calls ++ [c])).history.length =
          min ((Journal.run calls).history.length + 1) n ∧
        1 ≤ (Journal.run (calls ++ [c])).history.length ∧
        (Journal.run (calls ++ [c])).history.length ≤ 10 := by
  refine ⟨Journal.prefix_run calls, fun c => ?_⟩
  rw [Journal.run_append]
  rcases (Journal.run calls).step_cases c with failed | ⟨e, n, gives, limit, history, recorded⟩
  · exact .inl failed
  · right
    obtain ⟨low, high⟩ : 1 ≤ n ∧ n ≤ 10 := History.limit_bounds limit
    have length : ((Journal.run calls).step c).history.length =
        min ((Journal.run calls).history.length + 1) n := by
      rw [history, List.length_take, List.length_cons, Nat.min_comm]
    have head : ((Journal.run calls).step c).history.head? = some e := by
      rw [history, List.head?_take, if_neg (by omega)]
      rfl
    exact ⟨e, n, gives, limit, recorded, head, length, by omega, by omega⟩

/-- The limit goes down and up again: what was cut does not come back, and the calls in between that
fail, on a quotient that is not finite and on an infinite limit, leave the history alone. -/
example : (Journal.run [.add ⟨some "1", "1"⟩ (.integer 3), .add ⟨some "2", "2"⟩ (.integer 3),
    .submit (some "2+1") (.integer 1), .submit (some "1/0") (.integer 3),
    .add ⟨some "4", "4"⟩ (.number (.infinite false)),
    .submit (some "2*2") (.text "3")]).history = [⟨some "2*2", "4"⟩, ⟨some "2+1", "3"⟩] := by
  decide +kernel

end DeskCalculator
