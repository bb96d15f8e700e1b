/-
# Keys that are held

A key that repeats sends three signals, and while it is down a timer ticks.  What a click does
depends on whether the key has fired before, and what a tick does on the key that is held: three
fields of the window, which every press sets anew (`Session.withHold`).  Nothing else in the window
depends on them, and the activation of a key neither reads nor changes them.  So a key that is
pressed and let go fires once for every tick, or once for the click if there was none; and the timer
runs as long as a key is held, which is the one pressed last (`performAll_presses`).
-/

import DeskCalculator.Proofs.Window.Reachable
import Mathlib.Data.List.Induction

namespace DeskCalculator
namespace Window

/-! ## Presses -/

/-- A key that repeats is pressed, the timer ticks so many times, and the key comes up again, with
the pointer on it or somewhere else. -/
structure Press where
  key : Key
  repeats : key.repeats = true
  ticks : Nat
  clicked : Bool

namespace Press

/-- What happens to the window. -/
def actions (p : Press) : List Action :=
  .pressed p.key :: (List.replicate p.ticks .tick ++ .released p.key ::
    if p.clicked then [.clicked p.key] else [])

/-- How often the key fires: once for every tick, but once at least if it is clicked. -/
def times (p : Press) : Nat := if p.clicked then max 1 p.ticks else p.ticks

/-- The keys that fire, one after another. -/
def activations (p : Press) : List Key := List.replicate p.times p.key

end Press

namespace Session

/-! ## One step after another -/

section RunAll

variable {α : Type} {step : α → Session → Result} {s s' : Session}

/-- Takes one step after another, up to the first failure. -/
def runAll (step : α → Session → Result) (s : Session) : List α → Result
  | [] => (s, none)
  | a :: rest =>
    match step a s with
    | (s, none) => s.runAll step rest
    | stopped => stopped

/-- Performing actions is running over them. -/
theorem performAll_eq_runAll (s : Session) (actions : List Action) :
    s.performAll actions = s.runAll perform actions := by
  induction actions generalizing s with
  | nil => rfl
  | cons a rest ih =>
    rw [performAll, runAll]
    cases s.perform a with
    | mk next failure =>
      cases failure with
      | none => exact ih next
      | some failure => rfl

/-- A run goes on behind a step that did not fail. -/
theorem runAll_cons {a : α} {rest : List α} (h : step a s = (s', none)) :
    s.runAll step (a :: rest) = s'.runAll step rest := by
  rw [runAll, h]

/-- A run goes on behind a run that did not fail. -/
theorem runAll_append {as more : List α} (h : s.runAll step as = (s', none)) :
    s.runAll step (as ++ more) = s'.runAll step more := by
  induction as generalizing s with
  | nil =>
    cases h
    rfl
  | cons a rest ih =>
    cases first : step a s with
    | mk next failure =>
      rw [runAll, first] at h
      cases failure with
      | none =>
        rw [List.cons_append, runAll_cons first]
        exact ih h
      | some failure => cases h

end RunAll

/-! ## The fields of a held key -/

/-- The session with the three fields that are about a held key. -/
def withHold (timer : Timer) (wasHeld : Bool) (heldKey : Option Key) (s : Session) : Session :=
  { s with timer, wasHeld, heldKey }

variable {s s' : Session} {timer : Timer} {wasHeld : Bool} {heldKey : Option Key} {key : Key}

/-- Pressing a key that repeats starts the timer with the first delay. -/
theorem keyPressed_of_repeats (h : key.repeats = true) (s : Session) :
    s.keyPressed key = s.withHold ⟨true, initialDelay⟩ false (some key) :=
  if_pos h

/-- Releasing a key that repeats stops the timer. -/
theorem keyReleased_of_repeats (h : key.repeats = true) (s : Session) :
    s.keyReleased key = s.withHold { s.timer with running := false } s.wasHeld none :=
  if_pos h

/-- The input line and what is held do not touch each other. -/
theorem setInput_withHold (text : CodeText) :
    (s.withHold timer wasHeld heldKey).setInput text =
      (s.setInput text).withHold timer wasHeld heldKey := by
  have input : (s.withHold timer wasHeld heldKey).input = s.input := rfl
  unfold setInput
  rw [input]
  split <;> rfl

/-- A key that repeats sets the input to something that depends on the input alone. -/
theorem exists_activate_eq_setInput (h : key.repeats = true) :
    ∃ edit : CodeText → CodeText, ∀ s : Session,
      s.activate key = (s.setInput (edit s.input), none) := by
  cases key with
  | digit d => exact ⟨fun text => text ++ (Key.digit d).label, fun _ => rfl⟩
  | backspace => exact ⟨dropLastPoint, fun _ => rfl⟩
  | _ => cases h

/-- The session in which a key has fired a number of times. -/
def fired (key : Key) : Nat → Session → Session
  | 0, s => s
  | n + 1, s => fired key n (s.activate key).1

/-- A key that repeats does not fail. -/
theorem activate_of_repeats (h : key.repeats = true) (s : Session) :
    s.activate key = (s.fired key 1, none) := by
  obtain ⟨edit, activate⟩ := exists_activate_eq_setInput h
  change _ = ((s.activate key).1, none)
  rw [activate]

/-- **Whether a key is held has nothing to do with its activation.** -/
theorem activate_withHold (h : key.repeats = true) (s : Session) :
    (s.withHold timer wasHeld heldKey).activate key =
      ((s.fired key 1).withHold timer wasHeld heldKey, none) := by
  obtain ⟨edit, activate⟩ := exists_activate_eq_setInput h
  change _ = ((s.activate key).1.withHold timer wasHeld heldKey, none)
  rw [activate, activate, setInput_withHold]
  rfl

/-- A key that repeats fires as often as it is activated, and never fails. -/
theorem runAll_activate_replicate (h : key.repeats = true) (n : Nat) (s : Session) :
    s.runAll activate (List.replicate n key) = (s.fired key n, none) := by
  induction n generalizing s with
  | zero => rfl
  | succ n ih =>
    rw [List.replicate_succ, runAll_cons (activate_of_repeats h s)]
    exact ih _

/-! ## What a press does -/

/-- While a key is held, it fires at every tick. -/
theorem runAll_ticks (h : key.repeats = true) (n : Nat) (s : Session) (timer : Timer)
    (wasHeld : Bool) : ∃ timer',
      (s.withHold timer wasHeld (some key)).runAll perform (List.replicate n .tick) =
        ((s.fired key n).withHold timer' (wasHeld || decide (0 < n)) (some key), none) := by
  induction n generalizing s timer wasHeld with
  | zero => exact ⟨timer, by rw [show decide (0 < 0) = false from rfl, Bool.or_false]; rfl⟩
  | succ n ih =>
    let timer₁ : Timer := { timer with interval :=
      if timer.interval = initialDelay then repeatInterval else timer.interval }
    have tick : (s.withHold timer wasHeld (some key)).perform .tick =
        ((s.fired key 1).withHold timer₁ true (some key), none) :=
      activate_withHold h s
    obtain ⟨timer', ticks⟩ := ih (s.fired key 1) timer₁ true
    refine ⟨timer', ?_⟩
    rw [List.replicate_succ, runAll_cons tick, ticks, decide_eq_true (Nat.succ_pos n), Bool.true_or,
      Bool.or_true]
    rfl

/-- **What a press does**, whatever has been held before: the key fires, and the rest is about the
held key. -/
theorem exists_runAll_actions (p : Press) (s : Session) (timer : Timer) (wasHeld : Bool)
    (heldKey : Option Key) : ∃ timer' wasHeld' heldKey',
      (s.withHold timer wasHeld heldKey).runAll perform p.actions =
        ((s.fired p.key p.times).withHold timer' wasHeld' heldKey', none) := by
  obtain ⟨key, repeats, ticks, clicked⟩ := p
  have pressed : (s.withHold timer wasHeld heldKey).perform (.pressed key) =
      (s.withHold ⟨true, initialDelay⟩ false (some key), none) := by
    rw [perform, keyPressed_of_repeats repeats]
    rfl
  obtain ⟨timer₁, ticked⟩ := runAll_ticks repeats ticks s ⟨true, initialDelay⟩ false
  rw [Bool.false_or] at ticked
  have released : ((s.fired key ticks).withHold timer₁ (decide (0 < ticks)) (some key)).perform
      (.released key) = ((s.fired key ticks).withHold { timer₁ with running := false }
        (decide (0 < ticks)) none, none) := by
    rw [perform, keyReleased_of_repeats repeats]
    rfl
  refine ⟨{ timer₁ with running := false }, decide (0 < ticks), none, ?_⟩
  rw [Press.actions, runAll_cons pressed, runAll_append ticked, runAll_cons released]
  cases clicked with
  | false => rfl
  | true =>
    cases ticks with
    | zero =>
      -- The key has not fired yet, so it does when it is clicked.
      have click : (s.withHold { timer₁ with running := false } false none).perform (.clicked key) =
          ((s.fired key 1).withHold { timer₁ with running := false } false none, none) := by
        rw [perform, keyClicked, repeats]
        exact activate_withHold repeats s
      exact runAll_cons click
    | succ n =>
      -- The key has fired, and the click is not taken for another time.
      have click (s : Session) :
          (s.withHold { timer₁ with running := false } true none).perform (.clicked key) =
            (s.withHold { timer₁ with running := false } true none, none) := by
        rw [perform, keyClicked, repeats]
        rfl
      have times : Press.times ⟨key, repeats, n + 1, true⟩ = n + 1 :=
        Nat.max_eq_right (Nat.le_add_left 1 n)
      rw [times, decide_eq_true (Nat.succ_pos n)]
      exact runAll_cons (click _)

/-- **Presses one after another come to the same as the activations.** -/
theorem exists_runAll_presses (presses : List Press) (s : Session) (timer : Timer)
    (wasHeld : Bool) (heldKey : Option Key) : ∃ s' timer' wasHeld' heldKey',
      (s.withHold timer wasHeld heldKey).runAll perform (presses.flatMap Press.actions) =
        (s'.withHold timer' wasHeld' heldKey', none) ∧
      s.runAll activate (presses.flatMap Press.activations) = (s', none) := by
  induction presses generalizing s timer wasHeld heldKey with
  | nil => exact ⟨s, timer, wasHeld, heldKey, rfl, rfl⟩
  | cons p rest ih =>
    obtain ⟨timer₁, wasHeld₁, heldKey₁, actions⟩ :=
      exists_runAll_actions p s timer wasHeld heldKey
    obtain ⟨s', timer', wasHeld', heldKey', more, same⟩ :=
      ih (s.fired p.key p.times) timer₁ wasHeld₁ heldKey₁
    refine ⟨s', timer', wasHeld', heldKey', ?_, ?_⟩
    · rw [List.flatMap_cons, runAll_append actions, more]
    · rw [List.flatMap_cons, Press.activations,
        runAll_append (runAll_activate_replicate p.repeats p.times s), same]

end Session

/-! ## The key that is held -/

/-- Whether a key that repeats goes down or comes up. -/
def Action.isHold : Action → Bool
  | .pressed key | .released key => key.repeats
  | _ => false

/-- A hold action is the press or the release of a key that repeats. -/
theorem Action.isHold_iff {a : Action} : a.isHold = true ↔
    ∃ key : Key, key.repeats = true ∧ (a = .pressed key ∨ a = .released key) := by
  constructor
  · intro h
    cases a with
    | pressed key => exact ⟨key, h, .inl rfl⟩
    | released key => exact ⟨key, h, .inr rfl⟩
    | _ => cases h
  · rintro ⟨key, h, rfl | rfl⟩
    · exact h
    · exact h

/-- The last time that a key that repeats went down or came up. -/
def lastHold (actions : List Action) : Option Action := (actions.filter Action.isHold).getLast?

namespace Session

/-- A session in which the same key is held, and the timer runs as before. -/
structure HoldsAs (s s' : Session) : Prop where
  heldKey : s'.heldKey = s.heldKey
  running : s'.timer.running = s.timer.running

variable {s s' s'' : Session}

/-- What is held as before, twice, is held as at first. -/
theorem HoldsAs.trans (h : HoldsAs s s') (h' : HoldsAs s' s'') : HoldsAs s s'' :=
  ⟨h'.heldKey.trans h.heldKey, h'.running.trans h.running⟩

/-- A new input touches neither the timer nor the held key. -/
theorem holdsAs_setInput (text : CodeText) : HoldsAs s (s.setInput text) := by
  unfold setInput
  split <;> exact ⟨rfl, rfl⟩

/-- Submitting touches neither the timer nor the held key. -/
theorem holdsAs_submit : HoldsAs s s.submit.1 := by
  unfold submit
  simp only []
  split
  · refine HoldsAs.trans ?_ (holdsAs_setInput _)
    exact ⟨rfl, rfl⟩
  · exact ⟨rfl, rfl⟩
  · exact ⟨rfl, rfl⟩

/-- Copying and pasting touch neither the timer nor the held key. -/
theorem holdsAs_useClipboard : HoldsAs s s.useClipboard.1 := by
  unfold useClipboard
  split
  · exact ⟨rfl, rfl⟩
  · split
    · exact ⟨rfl, rfl⟩
    · simp only []
      split
      · exact (holdsAs_setInput _).trans holdsAs_submit
      · exact holdsAs_setInput _

/-- The settings dialog touches neither the timer nor the held key. -/
theorem holdsAs_openSettings (attempts : List Dialog.Attempt) :
    HoldsAs s (s.openSettings attempts).1.1 := by
  unfold openSettings
  split
  · exact ⟨rfl, rfl⟩
  · simp only []
    split
    · exact ⟨rfl, rfl⟩
    · exact ⟨rfl, rfl⟩
    · split <;> exact ⟨rfl, rfl⟩

/-- Whatever a key does, it is held as long as before. -/
theorem holdsAs_activate (key : Key) : HoldsAs s (s.activate key).1 := by
  unfold activate
  split
  · exact holdsAs_submit
  · exact holdsAs_setInput _
  · exact holdsAs_setInput _
  · exact holdsAs_setInput _
  · exact holdsAs_useClipboard
  · exact holdsAs_openSettings []
  · exact holdsAs_setInput _

/-- A click ends no holding. -/
theorem holdsAs_keyClicked (key : Key) : HoldsAs s (s.keyClicked key).1 := by
  unfold keyClicked
  split
  · exact ⟨rfl, rfl⟩
  · exact holdsAs_activate key

/-- A tick changes the interval of the timer, which goes on running for the same key. -/
theorem holdsAs_tick : HoldsAs s s.tick.1 := by
  unfold tick
  simp only []
  split
  · refine HoldsAs.trans ?_ (holdsAs_activate _)
    exact ⟨rfl, rfl⟩
  · exact ⟨rfl, rfl⟩

/-- Taking an entry back touches neither the timer nor the held key. -/
theorem holdsAs_replay (index : Nat) : HoldsAs s (s.replay index) := by
  unfold replay
  split <;> exact ⟨rfl, rfl⟩

/-- **Only a key that repeats, going down or coming up, changes what is held.** -/
theorem holdsAs_perform {a : Action} (h : a.isHold = false) : HoldsAs s (s.perform a).1 := by
  cases a with
  | pressed key =>
    have same : s.keyPressed key = s := if_neg (Bool.eq_false_iff.1 h)
    rw [perform, same]
    exact ⟨rfl, rfl⟩
  | released key =>
    have same : s.keyReleased key = s := if_neg (Bool.eq_false_iff.1 h)
    rw [perform, same]
    exact ⟨rfl, rfl⟩
  | clicked key => exact holdsAs_keyClicked key
  | tick => exact holdsAs_tick
  | type text => exact holdsAs_setInput text
  | enter => exact holdsAs_submit
  | shift down => exact ⟨rfl, rfl⟩
  | keyboardShift down => exact ⟨rfl, rfl⟩
  | setClipboard text => exact ⟨rfl, rfl⟩
  | replay index => exact holdsAs_replay index
  | clearHistory => exact ⟨rfl, rfl⟩
  | settings attempts => exact holdsAs_openSettings attempts
  | writeConfig file => exact ⟨rfl, rfl⟩
  | unreach => exact ⟨rfl, rfl⟩

/-- The timer runs exactly while a key is held. -/
def InHold (s : Session) : Prop := s.timer.running = s.heldKey.isSome

/-- **The timer runs as long as a key is held**, whatever is done. -/
theorem InHold.perform (h : s.InHold) (a : Action) : (s.perform a).1.InHold := by
  cases hold : a.isHold with
  | false =>
    obtain ⟨heldKey, running⟩ := holdsAs_perform (s := s) hold
    rw [InHold, heldKey, running]
    exact h
  | true =>
    obtain ⟨key, repeats, rfl | rfl⟩ := Action.isHold_iff.1 hold
    · rw [Session.perform, keyPressed_of_repeats repeats]
      rfl
    · rw [Session.perform, keyReleased_of_repeats repeats]
      rfl

/-- The session after some actions, each of which is done however the one before it ended. -/
def after (s : Session) (actions : List Action) : Session :=
  actions.foldl (fun s a => (s.perform a).1) s

/-- The last of some actions is performed behind the others. -/
theorem after_concat (s : Session) (actions : List Action) (a : Action) :
    s.after (actions ++ [a]) = ((s.after actions).perform a).1 :=
  List.foldl_concat ..

end Session

/-- In every reachable session the timer runs exactly if a key is held. -/
theorem Reachable.inHold {s : Session} (h : Reachable s) : s.InHold := by
  induction h with
  | start opened =>
    obtain ⟨settings, -, opened⟩ := bind_eq_ok.1 opened
    cases opened
    rfl
  | perform _ a ih => exact ih.perform a
  | fresh _ ih => exact ih

/-- Actions lead from a reachable session to reachable ones. -/
theorem Reachable.after {s : Session} (h : Reachable s) (actions : List Action) :
    Reachable (s.after actions) :=
  List.foldlRecOn actions _ h fun _ ih a _ => .perform ih a

/-- **A key is held if it is the one that was pressed last, and nothing has come up since.** -/
theorem heldKey_after (s : Session) (actions : List Action) (key : Key) :
    (s.after actions).heldKey = some key ↔
      lastHold actions = some (.pressed key) ∨ lastHold actions = none ∧ s.heldKey = some key := by
  induction actions using List.reverseRecOn with
  | nil => simp [Session.after, lastHold]
  | append_singleton actions a ih =>
    rw [Session.after_concat]
    cases hold : a.isHold with
    | false =>
      have same : lastHold (actions ++ [a]) = lastHold actions := by
        simp [lastHold, hold]
      rw [(Session.holdsAs_perform hold).heldKey, same, ih]
    | true =>
      have last : lastHold (actions ++ [a]) = some a := by
        simp [lastHold, hold]
      rw [last]
      obtain ⟨key', repeats, rfl | rfl⟩ := Action.isHold_iff.1 hold
      · rw [Session.perform, Session.keyPressed_of_repeats repeats]
        simp [Session.withHold]
      · rw [Session.perform, Session.keyReleased_of_repeats repeats]
        simp [Session.withHold]

/-- **A held key fires at every tick, and a key that is let go before fires when it is clicked.**
Keys that repeat, pressed one after another in any session that can come about, leave the input, the
display and the history as activations do: as many of each key as the timer ticks, and one if it
does not tick and the key is clicked.  And whatever happens, presses that overlap included, the
timer runs exactly while a key is held; that is the key pressed last, unless one has come up since,
or else the key that was held from the beginning. -/
theorem performAll_presses {s : Session} (reachable : Reachable s) :
    (∀ presses : List Press, ∃ s' s'' : Session,
      s.performAll (presses.flatMap Press.actions) = (s', none) ∧
      s.runAll Session.activate (presses.flatMap Press.activations) = (s'', none) ∧
      s'.input = s''.input ∧ s'.display = s''.display ∧ s'.history = s''.history) ∧
    ∀ actions : List Action,
      ((s.after actions).timer.running = true ↔ (s.after actions).heldKey ≠ none) ∧
      ∀ key, (s.after actions).heldKey = some key ↔
        lastHold actions = some (.pressed key) ∨
          lastHold actions = none ∧ s.heldKey = some key := by
  refine ⟨fun presses => ?_, fun actions => ⟨?_, heldKey_after s actions⟩⟩
  · obtain ⟨s', timer, wasHeld, heldKey, actions, activations⟩ :=
      Session.exists_runAll_presses presses s s.timer s.wasHeld s.heldKey
    rw [Session.performAll_eq_runAll]
    exact ⟨_, s', actions, activations, rfl, rfl, rfl⟩
  · have inHold : (s.after actions).timer.running = (s.after actions).heldKey.isSome :=
      (reachable.after actions).inHold
    rw [inHold, Option.isSome_iff_ne_none]

/-- A seven is held for three ticks and one digit is taken back; and a key that is pressed while
another one is held takes its place. -/
theorem performAll_presses_of_three_ticks : ∃ s s' : Session, Reachable s ∧
    s.performAll [.pressed (.digit 7), .tick, .tick, .tick, .released (.digit 7),
      .clicked (.digit 7), .pressed .backspace, .released .backspace, .clicked .backspace] =
        (s', none) ∧
    s'.input = "77" ∧
    (s.after [.pressed (.digit 7), .tick, .pressed .backspace]).heldKey = some .backspace ∧
    (s.after [.pressed (.digit 7), .tick, .pressed .backspace]).timer.running = true := by
  obtain ⟨opened, ho⟩ :
      ∃ s, Session.start false ⟨.missing, .missing, true, Settings.Store.usualRoom⟩ = .ok s :=
    ⟨_, rfl⟩
  obtain ⟨presses, holds⟩ := performAll_presses (.start ho)
  obtain ⟨s', s'', done, activated, input, -⟩ :=
    presses [⟨.digit 7, rfl, 3, true⟩, ⟨.backspace, rfl, 0, true⟩]
  have twice : (opened.runAll Session.activate [.digit 7, .digit 7, .digit 7, .backspace]).1.input =
      "77" := by
    cases ho
    decide +kernel
  obtain ⟨running, held⟩ := holds [.pressed (.digit 7), .tick, .pressed .backspace]
  have backspace := (held .backspace).2 (.inl rfl)
  refine ⟨opened, s', .start ho, done, ?_, backspace, running.2 ?_⟩
  · rw [input, ← twice]
    exact congrArg (fun result => result.1.input) activated.symm
  · rw [backspace]
    exact Option.some_ne_none _

end Window
end DeskCalculator
