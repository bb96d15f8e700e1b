/-
# Where a fault of the parser points

A token that no sentence has where it stands is refused at once: the parser raises its fault at the
first such token, and the fault names that token, or the constant or the function in front of it
(`parse_error_at_first_impossible`).  Its message says so in words: it has the text of the token and
its position, or the name.
-/

import DeskCalculator.Proofs.Grammar.Following

namespace DeskCalculator
namespace Grammar

open Progress

variable {ts : List Token} {t : Token} {p q : Progress} {f : Fault}

/-- A constant with an opening parenthesis behind it, which has an index. -/
def CallsConstant (ts : List Token) (j : Nat) : Prop :=
  ∃ i c t, j = i + 1 ∧ ts[i]? = some c ∧ c.kind = .identifier ∧
    Names.isConstant c.text = true ∧ ts[j]? = some t ∧ t.kind = .opening

/-- A fault that is about the token at an index: the token itself is unexpected or an unknown name,
or it is wrong behind the constant or the function in front of it. -/
def PointsAt (ts : List Token) (j : Nat) : Fault → Prop
  | .unexpectedToken text position | .expectedClosing text position
  | .trailingInput text position => ∃ t, ts[j]? = some t ∧ text = t.text ∧ position = t.position
  | .unknownName name => ∃ t, ts[j]? = some t ∧ t.kind = .identifier ∧ name = t.text
  | .constantCalled name => CallsConstant ts j ∧ ∃ i c, j = i + 1 ∧ ts[i]? = some c ∧ name = c.text
  | .missingOpening name => ∃ i n, j = i + 1 ∧ ts[i]? = some n ∧ n.kind = .identifier ∧
      Names.isFunction n.text = true ∧ name = n.text
  | _ => False

/-- The code and the message of a fault that is about the token at an index: the message has the
text and the position of that token, or a name, its own or that of the token in front of it. -/
inductive TellsAt (ts : List Token) (j : Nat) : (code message : String) → Prop
  | unexpected {t : Token} (here : ts[j]? = some t) : TellsAt ts j "3011"
      ("Unexpected token '" ++ t.text ++ "' at position " ++ toString t.position)
  | unclosed {t : Token} (here : ts[j]? = some t) : TellsAt ts j "3011"
      ("Unexpected token '" ++ t.text ++ "' at position " ++ toString t.position ++
        ", expected ')'")
  | trailing {t : Token} (here : ts[j]? = some t) : TellsAt ts j "3033"
      ("Unexpected '" ++ t.text ++ "' at position " ++ toString t.position ++
        " after the expression")
  | unknown {t : Token} (here : ts[j]? = some t) : TellsAt ts j "3032"
      ("Unknown identifier: '" ++ t.text ++ "'")
  | constant {i : Nat} {c t : Token} (index : j = i + 1) (before : ts[i]? = some c)
      (here : ts[j]? = some t) (opens : t.kind = .opening) : TellsAt ts j "3036"
      ("Constant '" ++ c.text ++ "' cannot be called")
  | function {i : Nat} {n : Token} (index : j = i + 1) (before : ts[i]? = some n) :
      TellsAt ts j "3023" ("Missing '(' after function '" ++ n.text ++ "'")

/-- A fault that points at a token says so. -/
theorem PointsAt.tells {j : Nat} (h : PointsAt ts j f) : TellsAt ts j f.code f.message := by
  cases f with
  | unexpectedToken text position =>
    obtain ⟨t, here, rfl, rfl⟩ := h
    exact .unexpected here
  | expectedClosing text position =>
    obtain ⟨t, here, rfl, rfl⟩ := h
    exact .unclosed here
  | trailingInput text position =>
    obtain ⟨t, here, rfl, rfl⟩ := h
    exact .trailing here
  | unknownName name =>
    obtain ⟨t, here, -, rfl⟩ := h
    exact .unknown here
  | constantCalled name =>
    obtain ⟨⟨_, _, t, -, -, -, -, here, opens⟩, i, c, index, before, rfl⟩ := h
    exact .constant index before here opens
  | missingOpening name =>
    obtain ⟨i, n, index, before, -, -, rfl⟩ := h
    exact .function index before
  | _ => exact False.elim h

/-- A refusal points at the token that is refused. -/
theorem pointsAt_of_refusal {front : List Token} (run : start.run front = .ok q)
    (h : Refusal q t f) (rest : List Token) :
    PointsAt (front ++ t :: rest) front.length f := by
  have here : (front ++ t :: rest)[front.length]? = some t := by simp
  cases h with
  | unknown isName notConstant notFunction => exact ⟨t, here, isName, rfl⟩
  | unexpected | trailing | unclosed => exact ⟨t, here, rfl, rfl⟩
  | uncalled notOpening =>
    obtain ⟨front, name, rfl, isName, known, rfl⟩ := exists_name_of_called run
    exact ⟨front.length, name, by simp, by simp, isName, known, rfl⟩
  | constantCalled opens =>
    obtain ⟨front, name, rfl, isName, known, rfl⟩ := exists_name_of_behind run
    have name_here : (front ++ [name] ++ t :: rest)[front.length]? = some name := by simp
    exact ⟨⟨front.length, name, t, by simp, name_here, isName, known, here, opens⟩,
      front.length, name, by simp, name_here, rfl⟩

/-- A constant that is called is refused as such. -/
theorem not_callsConstant {front rest : List Token} {constant : Option String}
    {unclosed : List Opening} (run : start.run front = .ok ⟨.behind constant, unclosed⟩)
    (ends : Ends constant t) : ¬CallsConstant (front ++ t :: rest) front.length := by
  rintro ⟨i, c, t', length, hc, isName, -, ht, opens⟩
  obtain rfl : t = t' := by simpa using ht
  obtain ⟨last, hlast, kind⟩ := kind_of_behind run
  rw [List.getElem?_append_left (by omega), ← show front.length - 1 = i by omega,
    ← List.getLast?_eq_getElem?] at hc
  obtain rfl : last = c := Option.some.inj (Option.mem_def.1 hlast ▸ hc)
  rcases kind with kind | kind | ⟨-, rfl⟩
  · rw [kind] at isName
    cases isName
  · rw [kind] at isName
    cases isName
  · exact ends.call rfl opens

/-- All that a run has gone over can go on to a sentence. -/
theorem isViable_take {front : List Token} (wf : ∀ t ∈ front, t.WellFormed)
    (run : start.run front = .ok q) (rest : List Token) {i : Nat} (hi : i ≤ front.length) :
    IsViable ((front ++ rest).take i) := by
  rw [List.take_append_of_le_length hi]
  rw [← List.take_append_drop i front] at run
  obtain ⟨q', run, -⟩ := exists_run_of_append run
  exact (isViable_iff_run fun t ht => wf t (List.mem_of_mem_take ht)).2 ⟨q', run⟩

/-- What stands in front of a token that is refused as input behind the expression is a sentence;
otherwise it is none, or it ends in a constant that is called. -/
theorem code_of_refusal {front rest : List Token} (wf : ∀ t ∈ front, t.WellFormed)
    (run : start.run front = .ok q) (h : Refusal q t f) :
    f.code = "3033" ↔
      IsSentence front ∧ ¬CallsConstant (front ++ t :: rest) front.length := by
  rw [isSentence_iff_run wf, run]
  cases h with
  | trailing ends =>
    exact iff_of_true rfl ⟨⟨_, rfl⟩, not_callsConstant run ends⟩
  | constantCalled opens =>
    have calls := (pointsAt_of_refusal run (.constantCalled opens) rest).1
    exact iff_of_false (by simp [Fault.code]) fun h => h.2 calls
  | _ =>
    refine iff_of_false (by simp [Fault.code]) ?_
    rintro ⟨⟨constant, h⟩, -⟩
    cases h

end Grammar

open Grammar Progress

/-- **A fault at a token is raised at the first token that no sentence has there.**  For the five
codes of such faults there is an index up to which the tokens can go on to a sentence, and with the
token at it they cannot; only for a function without its parenthesis it may be the end instead.  The
fault points at that index, and its message has the text, the position or the name that is there; it
is input behind the expression exactly if the tokens in front are a sentence, unless they end in a
constant that is called; and all tokens that begin the same way raise the same fault. -/
theorem parse_error_at_first_impossible {text : CodeText} {ts : List Token} {f : Fault}
    (scanned : Token.scan text = .ok ts) (raised : parse ts = .error (.fault f none))
    (code : f.code ∈ ["3011", "3033", "3032", "3036", "3023"]) :
    ∃ j, (∀ i < j, IsViable (ts.take (i + 1))) ∧
      (j < ts.length ∧ ¬IsViable (ts.take (j + 1)) ∨ j = ts.length ∧ f.code = "3023") ∧
      PointsAt ts j f ∧ TellsAt ts j f.code f.message ∧
      (f.code = "3033" ↔ IsSentence (ts.take j) ∧ ¬CallsConstant ts j) ∧
      (j < ts.length → ∀ more, parse (ts.take (j + 1) ++ more) = .error (.fault f none)) := by
  have wf := Token.wellFormed_of_scan scanned
  have ne : ts ≠ [] := by
    rintro rfl
    cases raised
  have limit : f ≠ .tooDeep := by
    rintro rfl
    simp [Fault.code] at code
  rcases diagnose_eq_some (diagnose_of_parse ne wf raised limit) with
    ⟨front, t, rest, q, rfl, run, refusal⟩ | ⟨q, run, missing⟩
  · have wfFront := (List.forall_mem_append.1 wf).1
    have here : (front ++ t :: rest).take (front.length + 1) = front ++ [t] := by
      rw [← List.singleton_append, ← List.append_assoc, List.take_left' (by simp)]
    have stopped : start.run (front ++ [t]) = .error f := by
      rw [run_append_of_ok run, refusal.run_cons]
    have wfHere : ∀ u ∈ front ++ [t], u.WellFormed := fun u hu => wf u (by simp at hu ⊢; tauto)
    have points := pointsAt_of_refusal run refusal rest
    refine ⟨front.length, fun i => isViable_take wfFront run _, .inl ⟨by simp, ?_⟩,
      points, points.tells, ?_, fun _ more => ?_⟩
    · rw [here]
      intro h
      obtain ⟨p, run⟩ := h.run
      rw [stopped] at run
      cases run
    · rw [List.take_left]
      exact code_of_refusal wfFront run refusal
    · rw [here, parse_append wfHere stopped, ← parse_append wfHere stopped rest]
      simpa using raised
  · -- At the end only a function without its parenthesis has one of these codes.
    cases missing with
    | number | operand => simp [Fault.code] at code
    | @closing constant opening => cases opening <;> simp [Opening.unclosed, Fault.code] at code
    | @call function _ =>
      have viable (i : Nat) (hi : i < ts.length) : IsViable (ts.take (i + 1)) := by
        simpa using isViable_take wf run [] hi
      have points : PointsAt ts ts.length (.missingOpening function) := by
        obtain ⟨front, name, rfl, isName, known, rfl⟩ := exists_name_of_called run
        exact ⟨front.length, name, by simp, by simp, isName, known, rfl⟩
      refine ⟨ts.length, viable, .inr ⟨rfl, rfl⟩, points, points.tells, ?_,
        fun h => absurd h (Nat.lt_irrefl _)⟩
      · rw [List.take_length, isSentence_iff_run wf, run]
        refine iff_of_false (by simp [Fault.code]) ?_
        rintro ⟨⟨constant, h⟩, -⟩
        cases h

/-- In an exponent inside a call, the comma is the first token that cannot stand where it does. -/
theorem parse_error_at_comma :
    let ts : List Token :=
      [⟨.identifier, "sin", 0⟩, ⟨.opening, "(", 3⟩, ⟨.number, "2", 4⟩, ⟨.operator, "^", 5⟩,
        ⟨.comma, ",", 6⟩, ⟨.number, "3", 7⟩]
    Token.scan "sin(2^,3" = .ok ts ∧ ∃ j < ts.length, PointsAt ts j (.unexpectedToken "," 6) ∧
      TellsAt ts j "3011" "Unexpected token ',' at position 6" ∧
      ∀ more, parse (ts.take (j + 1) ++ more) =
        .error (.fault (.unexpectedToken "," 6) none) := by
  intro ts
  have scanned : Token.scan "sin(2^,3" = .ok ts := rfl
  have evaluated : (parse ts).map (fun _ => ()) =
      .error (.fault (.unexpectedToken "," 6) none) := by decide +kernel
  have raised := eq_error_of_map evaluated
  obtain ⟨j, -, place, points, tells, -, settled⟩ :=
    parse_error_at_first_impossible scanned raised (by decide)
  have inside : j < ts.length := (place.resolve_right fun h => absurd h.2 (by decide)).1
  exact ⟨scanned, j, inside, points, tells, settled inside⟩

end DeskCalculator
