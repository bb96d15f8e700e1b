/-
# Submitting the input

In a session that can come about, the display tells what submitting will do.  If it shows that the
input has no value, submitting shows one box with the fault and changes nothing else
(`submit_of_error`).  Otherwise what is displayed becomes the input, and the pair of both goes in
front of the history (`exists_submit_of_ok`).  Since a result is a fixed point of calculating, the
session has *settled* then: submitting again leaves the input and the display as they are
(`Settled.performAll`).
-/

import DeskCalculator.Proofs.Evaluation.RoundTrip
import DeskCalculator.Proofs.Window.Reachable

namespace DeskCalculator

/-- No number is shown as the word that stands for a failure. -/
theorem Binary64.plain_ne_errorText (negative : Bool) (m : Magnitude) :
    plain negative m ≠ errorText := by
  unfold plain
  split
  · decide
  · intro h
    have letter : 'r' ∈ signText negative ++ (Decimal.shortest m).positional := by
      have h := congrArg String.toList h
      rw [String.toList_ofList] at h
      rw [h]
      decide
    rcases List.mem_append.1 letter with h | h
    · cases negative with
      | false => cases h
      | true => exact absurd (List.mem_singleton.1 h) (by decide)
    · exact absurd ((Decimal.isLiteral_positional _).numeric _ h) (by decide)

/-- The preview of a text that has a value is that value. -/
theorem preview_of_ok {text : Option CodeText} {result : String}
    (h : calculate text = .ok result) : preview text = result := by
  rw [preview, h]

/-- **The preview is the result of the calculation, or it shows that there is a fault.** -/
theorem calculate_of_preview (text : Option CodeText) :
    (preview text = errorText ∧ ∃ f, calculate text = .error (.fault f text)) ∨
      (preview text ≠ errorText ∧ calculate text = .ok (preview text)) := by
  rcases calculate_cases text with ⟨result, hr⟩ | ⟨f, hf⟩
  · right
    rw [preview_of_ok hr]
    obtain ⟨negative, m, rfl⟩ := exists_plain_of_calculate hr
    exact ⟨Binary64.plain_ne_errorText negative m, hr⟩
  · left
    refine ⟨?_, f, hf⟩
    rw [preview, hf]

namespace Window

namespace Session

variable {s : Session}

/-- The input line holds what it has been given. -/
@[simp] theorem setInput_input (text : CodeText) : (s.setInput text).input = text := by
  unfold setInput
  split
  · assumption
  · rfl

/-- A new input leaves the history. -/
@[simp] theorem setInput_history (text : CodeText) :
    (s.setInput text).history = s.history := by
  unfold setInput
  split <;> rfl

/-- A new input leaves the settings. -/
@[simp] theorem setInput_settings (text : CodeText) :
    (s.setInput text).settings = s.settings := by
  unfold setInput
  split <;> rfl

/-- A new input opens no box. -/
@[simp] theorem setInput_boxes (text : CodeText) : (s.setInput text).boxes = s.boxes := by
  unfold setInput
  split <;> rfl

/-- The limit that the settings of a session put on its history, if they do. -/
def historyLimit (s : Session) : Except Failure Nat :=
  History.limit (Settings.setting s.settings "history_limit")

/-- **A fault is shown in a box, and only the log is changed besides.** -/
theorem submit_of_error {f : Fault}
    (h : calculate (some s.input) = .error (.fault f (some s.input))) :
    ∃ log, s.submit =
      ({ s with boxes := s.boxes ++ [.ofFault f (some s.input)], log := log }, none) := by
  have outcome (setting : Settings.Value) :
      s.history.submit (some s.input) setting = .error (.fault f (some s.input)) :=
    History.submit_of_calculate_error h
  unfold submit
  simp only [outcome]
  exact ⟨_, rfl⟩

/-- **A result becomes the input, and goes into the history together with the input before.** -/
theorem exists_submit_of_ok {result : String} {n : Nat}
    (h : calculate (some s.input) = .ok result) (limit : s.historyLimit = .ok n) :
    ∃ records, s.submit =
      (((s.note records).setHistory ((⟨some s.input, result⟩ :: s.history).take n)).setInput result,
        none) := by
  have outcome : s.history.submit (some s.input) (Settings.setting s.settings "history_limit") =
      .ok (result, (⟨some s.input, result⟩ :: s.history).take n) := by
    rw [historyLimit] at limit
    rw [History.submit_of_calculate h, History.add_of_limit limit]
    rfl
  unfold submit
  simp only [outcome]
  exact ⟨_, rfl⟩

end Session

/-- The two ways to submit the input. -/
def Action.Submits (a : Action) : Prop := a = .enter ∨ a = .clicked .equals

/-- Such an action submits, whichever it is. -/
theorem Action.Submits.perform {a : Action} (h : a.Submits) (s : Session) :
    s.perform a = s.submit := by
  rcases h with rfl | rfl <;> rfl

/-- A session whose input is its own result. -/
structure Settled (result : String) (s : Session) : Prop where
  input : s.input = result
  inStep : s.InStep
  result : calculate (some (result : CodeText)) = .ok result
  limit : ∃ n, s.historyLimit = .ok n

/-- A session that has settled displays its input. -/
theorem Settled.display {result : String} {s : Session} (h : Settled result s) :
    s.display = result := by
  rw [h.inStep.display, h.input]
  exact preview_of_ok h.result

/-- A session whose input has a result settles on it when it submits. -/
theorem settled_submit {s : Session} {result : String} {n : Nat} (inStep : s.InStep)
    (h : calculate (some s.input) = .ok result) (limit : s.historyLimit = .ok n) :
    s.submit.2 = none ∧ Settled result s.submit.1 := by
  have inStep' := inStep.submit
  obtain ⟨records, hs⟩ := s.exists_submit_of_ok h limit
  rw [hs] at inStep' ⊢
  refine ⟨rfl, Session.setInput_input _, inStep', calculate_result h, n, ?_⟩
  rw [Session.historyLimit, Session.setInput_settings]
  exact limit

/-- **A settled session stays settled however often it submits.** -/
theorem Settled.performAll {result : String} : ∀ (more : List Action) {s : Session},
    Settled result s → (∀ a ∈ more, a.Submits) →
    ∃ s', s.performAll more = (s', none) ∧ Settled result s'
  | [], s, h, _ => ⟨s, rfl, h⟩
  | a :: more, s, h, submits => by
      obtain ⟨n, limit⟩ := h.limit
      have hr := h.result
      rw [← h.input] at hr
      obtain ⟨done, settled⟩ := settled_submit h.inStep hr limit
      obtain ⟨s', hs', settled'⟩ := Settled.performAll more settled
        fun b hb => submits b (List.mem_cons_of_mem _ hb)
      refine ⟨s', ?_, settled'⟩
      rw [Session.performAll, (submits a List.mem_cons_self).perform]
      cases hp : s.submit with
      | mk next failure =>
        rw [hp] at done hs'
        obtain rfl : failure = none := done
        exact hs'

/-- **Submitting does one of two things, and the display says which.**  If it reads `Error`, the
input, the display, the history and its list stay as they are, and one box appears, for the fault
that calculating the input ends with: its text has the code of the fault and what the code means,
and its small print the message and the input.  Otherwise what is displayed becomes the input and
stays displayed, the pair of both goes in front of the history, which is cut to its limit, no box
appears, and submitting again any number of times leaves the input and the display alone. -/
theorem submit_error_or_settles {s : Session} (reachable : Reachable s) {n : Nat}
    (limit : History.limit (Settings.setting s.settings "history_limit") = .ok n)
    {a : Action} (submits : a.Submits) :
    ∃ s', s.perform a = (s', none) ∧
      ((s.display = errorText ∧ s'.input = s.input ∧ s'.display = s.display ∧
          s'.history = s.history ∧ s'.rows = s.rows ∧
          ∃ f box, calculate (some s.input) = .error (.fault f (some s.input)) ∧
            s'.boxes = s.boxes ++ [box] ∧ box = .ofFault f (some s.input) ∧
            box.title = "Calculator Error" ∧
            box.text = "Error " ++ f.code ++ ": " ++ f.explanation ∧
            box.info = some (("Details: " ++ f.message ++ "\nEquation: " : String) ++ s.input)) ∨
        (s.display ≠ errorText ∧ s'.input = s.display ∧ s'.display = s.display ∧
          s'.history = (⟨some s.input, s.display⟩ :: s.history).take n ∧ s'.rows = s'.history ∧
          s'.boxes = s.boxes ∧
          ∀ more : List Action, (∀ b ∈ more, b.Submits) →
            ∃ s'', s'.performAll more = (s'', none) ∧ s''.input = s.display ∧
              s''.display = s.display)) := by
  have inStep := reachable.inStep
  rw [submits.perform]
  rcases calculate_of_preview (some s.input) with ⟨error, f, hf⟩ | ⟨value, hr⟩
  · obtain ⟨log, hs⟩ := s.submit_of_error hf
    rw [← inStep.display] at error
    exact ⟨_, hs, .inl ⟨error, rfl, rfl, rfl, rfl, f, _, hf, rfl, rfl, f.category_eq, rfl, rfl⟩⟩
  · rw [← inStep.display] at value hr
    obtain ⟨-, settled⟩ := settled_submit inStep hr limit
    obtain ⟨records, hs⟩ := s.exists_submit_of_ok hr limit
    rw [hs] at settled ⊢
    refine ⟨_, rfl, .inr ⟨value, settled.input, settled.display, ?_, ?_, ?_, ?_⟩⟩
    · rw [Session.setInput_history]
      rfl
    · exact settled.inStep.rows
    · rw [Session.setInput_boxes]
      rfl
    · intro more submitsMore
      obtain ⟨s'', hs'', settled''⟩ := settled.performAll more submitsMore
      exact ⟨s'', hs'', settled''.input, settled''.display⟩

/-- Typing `1/3` into a new window and pressing Enter records the digits of a third.  Typing `1+`
then and pressing the equals key shows the box of code 3029, and the third stays recorded. -/
theorem submit_third_and_unfinished : ∃ s s' t t' : Session,
    (Reachable s ∧ s.input = "1/3" ∧ s.perform .enter = (s', none) ∧
      s'.input = "0.3333333333333333" ∧ s'.history = [⟨some "1/3", "0.3333333333333333"⟩]) ∧
    (s'.perform (.type "1+") = (t, none) ∧ t.perform (.clicked .equals) = (t', none) ∧
      t'.input = "1+" ∧ t'.display = "Error" ∧
      t'.history = [⟨some "1/3", "0.3333333333333333"⟩] ∧
      ∃ box, t'.boxes = [box] ∧ box.title = "Calculator Error" ∧
        box.text = "Error 3029: Missing Number after operator: " ∧
        box.info = some "Details: Missing Number after '+' at position 1\nEquation: 1+") := by
  obtain ⟨opened, ho⟩ :
      ∃ s, Session.start false ⟨.missing, .missing, true, Settings.Store.usualRoom⟩ = .ok s :=
    ⟨_, rfl⟩
  let s := (opened.perform (.type "1/3")).1
  let t := ((s.perform .enter).1.perform (.type "1+")).1
  have reachable : Reachable s := .perform (.start ho) _
  obtain ⟨typed, displayed, entries, limit⟩ : s.input = "1/3" ∧
      s.display = "0.3333333333333333" ∧ s.history = [] ∧
      History.limit (Settings.setting s.settings "history_limit") = .ok 10 := by
    cases ho
    decide +kernel
  obtain ⟨typed', displayed', recorded, noBoxes, limit'⟩ : t.input = "1+" ∧
      t.display = errorText ∧ t.history = [⟨some "1/3", "0.3333333333333333"⟩] ∧ t.boxes = [] ∧
      History.limit (Settings.setting t.settings "history_limit") = .ok 10 := by
    cases ho
    decide +kernel
  have unfinished : calculate (some ("1+" : CodeText)) =
      .error (.fault (.missingOperand "+" 1) (some "1+")) := by
    decide +kernel
  obtain ⟨s', hs', ⟨error, -⟩ | ⟨-, input, -, history, -⟩⟩ :=
    submit_error_or_settles reachable limit (a := .enter) (.inl rfl)
  · rw [displayed] at error
    exact absurd error (by decide)
  rw [displayed] at input history
  rw [typed, entries] at history
  have reachable' : Reachable t := .perform (.perform reachable _) _
  have written : s'.perform (.type "1+") = (t, none) := by
    simp only [t, hs']
    rfl
  obtain ⟨t', ht', ⟨-, input', display', history', -, f, box, fault, boxes, -, title, text, info⟩ |
      ⟨noError, -⟩⟩ :=
    submit_error_or_settles reachable' limit' (a := .clicked .equals) (.inr rfl)
  · rw [typed', unfinished] at fault
    cases fault
    refine ⟨s, s', t, t', ⟨reachable, typed, hs', input, history⟩, written, ht',
      input'.trans typed', display'.trans displayed', history'.trans recorded, box, ?_, title, text,
      ?_⟩
    · rw [boxes, noBoxes, List.nil_append]
    · rw [info, typed']
      decide +kernel
  · exact absurd displayed' noError

end Window
end DeskCalculator
