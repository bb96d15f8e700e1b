/-
# What is missing at the end

Tokens that can go on to a sentence but are none end too early.  Three checks of the parser find
that, wherever in the recursion the tokens ran out, and which of them does is a matter of what would
make a sentence of the tokens: only closing parentheses, or first a number, behind a binary operator
or behind something else (`parse_error_at_end`).  The message names what is unclosed or what lacks
its operand.
-/

import DeskCalculator.Proofs.Grammar.Following

namespace DeskCalculator
namespace Grammar

open Progress

/-! ## How tokens end -/

/-- Tokens the last of which ends an operand. -/
def EndsOperand (ts : List Token) : Prop :=
  ∃ t ∈ ts.getLast?, t.kind = .number ∨ t.kind = .identifier ∨ t.kind = .closing

/-- Tokens that end in a binary operator, which stands behind an operand. -/
def EndsInBinary (ts : List Token) (operator : Token) : Prop :=
  ∃ front, ts = front ++ [operator] ∧ operator.kind = .operator ∧ EndsOperand front

/-- Tokens that end in an opening parenthesis, or in a minus sign that does not stand behind an
operand. -/
def EndsInOpening (ts : List Token) : Prop :=
  ∃ front t, ts = front ++ [t] ∧ (t.kind = .opening ∨ t.IsSign ['-'] ∧ ¬EndsOperand front)

/-- Tokens that a number and closing parentheses make a sentence of. -/
def LacksNumber (ts : List Token) : Prop :=
  ∃ (number : Token) (k : Nat), number.kind = .number ∧
    IsSentence (ts ++ number :: List.replicate k closing)

/-- The opening parentheses that are not closed in tokens that are given from the end, the innermost
first, each behind the token in front of it. -/
def unclosedFromEnd : List Token → List (Option Token × Token)
  | [] => []
  | t :: before =>
    match t.kind with
    | .opening => (before.head?, t) :: unclosedFromEnd before
    | .closing => (unclosedFromEnd before).tail
    | _ => unclosedFromEnd before

/-- The opening parentheses that are not closed in tokens, the innermost first, each behind the
token in front of it. -/
def unclosed (ts : List Token) : List (Option Token × Token) := unclosedFromEnd ts.reverse

/-- A token at the end opens a parenthesis, closes the innermost one, or does neither. -/
theorem unclosed_concat (ts : List Token) (t : Token) :
    unclosed (ts ++ [t]) = match t.kind with
      | .opening => (ts.getLast?, t) :: unclosed ts
      | .closing => (unclosed ts).tail
      | _ => unclosed ts := by
  rw [unclosed, List.reverse_concat, unclosedFromEnd, List.head?_reverse, unclosed]

/-- A parenthesis behind a name is that of a call. -/
def Opening.of : Option Token × Token → Opening
  | (some name, t) => if name.kind = .identifier then .call name.text else .group t.position
  | (none, t) => .group t.position

/-- The code and the message about a parenthesis that is not closed: they name the function if the
token in front is a name, and the position of the parenthesis otherwise. -/
inductive TellsUnclosed (before : Option Token) (opening : Token) : (code message : String) → Prop
  | call {name : Token} (behind : before = some name) (isName : name.kind = .identifier) :
      TellsUnclosed before opening "3217" ("Missing ')' after function '" ++ name.text ++ "'")
  | group (alone : ∀ name ∈ before, name.kind ≠ .identifier) :
      TellsUnclosed before opening "3009"
        ("Missing ')' for '(' at position " ++ toString opening.position)

/-- The fault about a parenthesis that is not closed tells so. -/
theorem tellsUnclosed (before : Option Token) (opening : Token) :
    TellsUnclosed before opening (Opening.of (before, opening)).unclosed.code
      (Opening.of (before, opening)).unclosed.message := by
  cases before with
  | none => exact .group (fun name behind => nomatch behind)
  | some name =>
    rw [Opening.of]
    split
    · rename_i isName
      exact .call rfl isName
    · rename_i noName
      refine .group fun other behind => ?_
      obtain rfl := Option.some.inj behind
      exact noName

variable {ts front : List Token} {t operator : Token} {p q : Progress} {f : Fault}
  {constant : Option String} {binary : Option Token} {opened : List Opening}

/-- A run that ends where an operand has to begin has not gone over the end of one. -/
theorem not_endsOperand (run : start.run ts = .ok ⟨.operand binary, opened⟩) : ¬EndsOperand ts := by
  rintro ⟨t, last, kind⟩
  rcases kind_of_operand run t last with h | h <;> simp [h] at kind

/-- A run that ends behind an operand has gone over the end of one. -/
theorem endsOperand (run : start.run ts = .ok ⟨.behind constant, opened⟩) : EndsOperand ts := by
  obtain ⟨t, last, kind⟩ := kind_of_behind run
  exact ⟨t, last, by tauto⟩

/-- Where an operand can begin, a binary operator stands in front exactly if tokens end in one. -/
theorem endsInBinary_iff (run : start.run ts = .ok ⟨.operand binary, opened⟩) :
    EndsInBinary ts operator ↔ binary = some operator := by
  rcases eq_nil_or_exists_step run with ⟨rfl, h⟩ | ⟨front, t, q, rfl, run, step⟩
  · cases h
    refine iff_of_false ?_ (by simp)
    rintro ⟨front, h, -⟩
    simp at h
  · constructor
    · rintro ⟨front', eq, isOperator, operand⟩
      obtain ⟨rfl, rfl⟩ : front = front' ∧ t = operator := by simpa using eq
      cases step with
      | group opens => rw [isOperator] at opens; cases opens
      | call opens => rw [isOperator] at opens; cases opens
      | minus isMinus => exact absurd operand (not_endsOperand run)
      | operator isOperator => rfl
    · rintro rfl
      cases step with
      | operator isOperator => exact ⟨front, rfl, isOperator, endsOperand run⟩

/-- Where an operand can begin, no binary operator stands in front exactly if there is an opening
parenthesis or a minus sign of its own. -/
theorem endsInOpening_iff (wf : ∀ t ∈ ts, t.WellFormed) (ne : ts ≠ [])
    (run : start.run ts = .ok ⟨.operand binary, opened⟩) : EndsInOpening ts ↔ binary = none := by
  rcases eq_nil_or_exists_step run with ⟨rfl, -⟩ | ⟨front, t, q, rfl, run, step⟩
  · exact absurd rfl ne
  · have wellFormed : t.WellFormed := wf t (by simp)
    constructor
    · rintro ⟨front', t', eq, kind⟩
      obtain ⟨rfl, rfl⟩ : front = front' ∧ t = t' := by simpa using eq
      cases step with
      | operator isOperator =>
        rcases kind with opens | ⟨-, notOperand⟩
        · rw [isOperator] at opens
          cases opens
        · exact absurd (endsOperand run) notOperand
      | _ => rfl
    · rintro rfl
      refine ⟨front, t, rfl, ?_⟩
      cases step with
      | group opens => exact .inl opens
      | call opens => exact .inl opens
      | minus isMinus =>
        exact .inr ⟨isSign_of_isOperator wellFormed isMinus, not_endsOperand run⟩

/-- The parentheses that are unclosed for a run are those of the tokens. -/
theorem unclosed_of_run (run : start.run ts = .ok q) :
    q.unclosed = (unclosed ts).map Opening.of := by
  induction ts using List.reverseRecOn generalizing q with
  | nil =>
    cases run
    rfl
  | append_singleton ts t ih =>
    obtain ⟨q', before, step⟩ := exists_step_of_run run
    rw [unclosed_concat]
    cases step with
    | number h => simp [h, ← ih before]
    | constant h known => simp [h, ← ih before]
    | function h known => simp [h, ← ih before]
    | minus h => simp [kind_of_isOperator h, ← ih before]
    | operator h => simp [h, ← ih before]
    | close h => simp [h, List.map_tail, ← ih before]
    | group h =>
      simp only [h, List.map_cons, ← ih before, List.cons.injEq, and_true]
      cases last : ts.getLast? with
      | none => rfl
      | some name =>
        rcases kind_of_operand before name last with kind | kind <;> simp [Opening.of, kind]
    | call h =>
      obtain ⟨front, name, rfl, isName, -, rfl⟩ := exists_name_of_called before
      simp [h, Opening.of, isName, ← ih before]

/-! ## What is wrong at the end -/

/-- What is wrong with tokens but not with one of them is something missing at the end. -/
theorem exists_missing_of_diagnose (h : start.diagnose ts = some f)
    (code : f.code ∉ ["3011", "3033", "3032", "3036", "3023"]) :
    ∃ q, start.run ts = .ok q ∧ Missing q f := by
  rcases diagnose_eq_some h with ⟨front, t, rest, q, -, -, refusal⟩ | ended
  · exact absurd refusal.code_mem code
  · exact ended

/-- A parenthesis is unclosed behind an operand. -/
theorem diagnose_unmatched :
    (start.diagnose ts = some f ∧ f.family = .unmatchedParenthesis) ↔
      ∃ constant opening outer, start.run ts = .ok ⟨.behind constant, opening :: outer⟩ ∧
        f = opening.unclosed := by
  constructor
  · rintro ⟨h, family⟩
    obtain ⟨q, run, missing⟩ := exists_missing_of_diagnose h
      (by cases f <;> simp_all [Fault.family, Fault.code])
    cases missing with
    | closing => exact ⟨_, _, _, run, rfl⟩
    | _ => cases family
  · rintro ⟨constant, opening, outer, run, rfl⟩
    exact ⟨Missing.closing.diagnose_eq run, by cases opening <;> rfl⟩

/-- An operand is missing behind a binary operator. -/
theorem diagnose_missingOperand :
    (start.diagnose ts = some f ∧ f.code = "3029") ↔
      ∃ operator opened, start.run ts = .ok ⟨.operand (some operator), opened⟩ ∧
        f = .missingOperand operator.text operator.position := by
  constructor
  · rintro ⟨h, code⟩
    obtain ⟨q, run, missing⟩ := exists_missing_of_diagnose h (by simp [code])
    cases missing with
    | operand => exact ⟨_, _, run, rfl⟩
    | @closing constant opening => cases opening <;> simp [Opening.unclosed, Fault.code] at code
    | _ => simp [Fault.code] at code
  · rintro ⟨operator, opened, run, rfl⟩
    exact ⟨Missing.operand.diagnose_eq run, rfl⟩

/-- An operand is missing, but not because of a binary operator. -/
theorem diagnose_missingNumber :
    (start.diagnose ts = some f ∧ f.code = "3027") ↔
      ∃ opened, start.run ts = .ok ⟨.operand none, opened⟩ ∧ f = .missingNumber := by
  constructor
  · rintro ⟨h, code⟩
    obtain ⟨q, run, missing⟩ := exists_missing_of_diagnose h (by simp [code])
    cases missing with
    | number => exact ⟨_, run, rfl⟩
    | @closing constant opening => cases opening <;> simp [Opening.unclosed, Fault.code] at code
    | _ => simp [Fault.code] at code
  · rintro ⟨opened, run, rfl⟩
    exact ⟨Missing.number.diagnose_eq run, rfl⟩

/-! ## What makes a sentence -/

/-- Closing parentheses make a sentence exactly of what ends behind an operand. -/
theorem exists_closed_iff (wf : ∀ t ∈ ts, t.WellFormed) :
    (¬IsSentence ts ∧ ∃ k, 1 ≤ k ∧ IsSentence (ts ++ List.replicate k closing)) ↔
      ∃ constant opening outer, start.run ts = .ok ⟨.behind constant, opening :: outer⟩ := by
  constructor
  · rintro ⟨-, k, pos, sentence⟩
    obtain ⟨k, rfl⟩ : ∃ k', k = k' + 1 := ⟨k - 1, by omega⟩
    obtain ⟨constant, whole⟩ := sentence.run
    obtain ⟨q, run, rest⟩ := exists_run_of_append whole
    obtain ⟨q', closed, -⟩ := bind_eq_ok.1 rest
    cases advance_eq_ok.1 closed with
    | close closes => exact ⟨_, _, _, run⟩
    | minus isMinus => cases kind_of_isOperator isMinus
    | _ => simp [closing] at *
  · rintro ⟨constant, opening, outer, run⟩
    refine ⟨fun sentence => ?_, outer.length + 1, Nat.le_add_left 1 _,
      (reached_of_run wf run).closed⟩
    obtain ⟨constant', run'⟩ := sentence.run
    rw [run] at run'
    cases run'

/-- A number is lacking exactly where an operand can begin. -/
theorem lacksNumber_iff (wf : ∀ t ∈ ts, t.WellFormed) :
    LacksNumber ts ↔ ∃ binary opened, start.run ts = .ok ⟨.operand binary, opened⟩ := by
  constructor
  · rintro ⟨number, k, isNumber, sentence⟩
    obtain ⟨constant, whole⟩ := sentence.run
    obtain ⟨q, run, rest⟩ := exists_run_of_append whole
    obtain ⟨q', begun, -⟩ := bind_eq_ok.1 rest
    cases advance_eq_ok.1 begun with
    | number => exact ⟨_, _, run⟩
    | minus isMinus =>
      rw [kind_of_isOperator isMinus] at isNumber
      cases isNumber
    | _ => simp_all
  · rintro ⟨binary, opened, run⟩
    have sentence := (reached_of_run wf run).filled (.atom (.number one _ rfl ofText?_one))
    exact ⟨one, opened.length, rfl, by simpa [Derivation.tokens] using sentence⟩

end Grammar

open Grammar Progress

/-- **A fault at the end tells what would make a sentence of the tokens.**  On the tokens of a text
that do not nest too deep, a parenthesis is unmatched exactly if closing parentheses, and nothing
less, make a sentence of them; it is the innermost one that is unclosed, and it is that of a call
exactly if a name stands in front of it: the message has that name then, and otherwise the position
of the parenthesis.  An operand is missing behind an operator exactly if the tokens end in a binary
operator, whose text and position are in the message, and a number is missing exactly if they end in
an opening parenthesis or a minus sign of its own, if in both cases a number and closing parentheses
make a sentence of them. -/
theorem parse_error_at_end {text : CodeText} {ts : List Token}
    (scanned : Token.scan text = .ok ts) (ne : ts ≠ [])
    (limit : parse ts ≠ .error (.fault .tooDeep none)) :
    ((∃ f, parse ts = .error (.fault f none) ∧ f.family = .unmatchedParenthesis) ↔
      ¬IsSentence ts ∧ ∃ k, 1 ≤ k ∧ IsSentence (ts ++ List.replicate k closing)) ∧
    (∀ f, parse ts = .error (.fault f none) → f.family = .unmatchedParenthesis →
      ∃ before opening, (unclosed ts).head? = some (before, opening) ∧
        f = (Opening.of (before, opening)).unclosed ∧
        TellsUnclosed before opening f.code f.message) ∧
    ((∃ f, parse ts = .error (.fault f none) ∧ f.code = "3029") ↔
      (∃ operator, EndsInBinary ts operator) ∧ LacksNumber ts) ∧
    (∀ f operator, parse ts = .error (.fault f none) → f.code = "3029" →
      EndsInBinary ts operator → f = .missingOperand operator.text operator.position ∧
        f.message = "Missing Number after '" ++ operator.text ++ "' at position " ++
          toString operator.position) ∧
    ((∃ f, parse ts = .error (.fault f none) ∧ f.code = "3027") ↔
      EndsInOpening ts ∧ LacksNumber ts) ∧
    (∀ f, parse ts = .error (.fault f none) → f.code = "3027" →
      f = .missingNumber ∧ f.message = "Missing Number.") := by
  have wf := Token.wellFormed_of_scan scanned
  simp only [parse_eq_error_iff wf ne limit]
  refine ⟨?_, fun f h family => ?_, ?_, fun f operator h code ends => ?_, ?_,
    fun f h code => ?_⟩
  · rw [exists_closed_iff wf]
    simp only [diagnose_unmatched]
    tauto
  · obtain ⟨constant, opening, outer, run, rfl⟩ := diagnose_unmatched.1 ⟨h, family⟩
    have parentheses := unclosed_of_run run
    cases tokens : unclosed ts with
    | nil => simp [tokens] at parentheses
    | cons innermost rest =>
      obtain ⟨before, paren⟩ := innermost
      rw [tokens] at parentheses
      obtain rfl : opening = Opening.of (before, paren) := (List.cons.inj parentheses).1
      exact ⟨before, paren, rfl, rfl, tellsUnclosed before paren⟩
  · simp only [diagnose_missingOperand, lacksNumber_iff wf]
    constructor
    · rintro ⟨f, operator, opened, run, -⟩
      exact ⟨⟨operator, (endsInBinary_iff run).2 rfl⟩, _, _, run⟩
    · rintro ⟨⟨operator, ends⟩, binary, opened, run⟩
      obtain rfl := (endsInBinary_iff run).1 ends
      exact ⟨_, operator, opened, run, rfl⟩
  · obtain ⟨operator', opened, run, rfl⟩ := diagnose_missingOperand.1 ⟨h, code⟩
    obtain rfl := Option.some.inj ((endsInBinary_iff run).1 ends)
    exact ⟨rfl, rfl⟩
  · simp only [diagnose_missingNumber, lacksNumber_iff wf]
    constructor
    · rintro ⟨f, opened, run, -⟩
      exact ⟨(endsInOpening_iff wf ne run).2 rfl, _, _, run⟩
    · rintro ⟨ends, binary, opened, run⟩
      obtain rfl := (endsInOpening_iff wf ne run).1 ends
      exact ⟨_, opened, run, rfl⟩
  · obtain ⟨opened, -, rfl⟩ := diagnose_missingNumber.1 ⟨h, code⟩
    exact ⟨rfl, rfl⟩

/-- The outer parenthesis of `sqrt((1)*2` is unclosed, as the message says, and closing it makes a
sentence. -/
theorem parse_error_at_end_of_call :
    let ts : List Token :=
      [⟨.identifier, "sqrt", 0⟩, ⟨.opening, "(", 4⟩, ⟨.opening, "(", 5⟩, ⟨.number, "1", 6⟩,
        ⟨.closing, ")", 7⟩, ⟨.operator, "*", 8⟩, ⟨.number, "2", 9⟩]
    Token.scan "sqrt((1)*2" = .ok ts ∧ ts ≠ [] ∧
      parse ts = .error (.fault (.unclosedCall "sqrt") none) ∧
      (Fault.unclosedCall "sqrt").message = "Missing ')' after function 'sqrt'" ∧
      (∃ before opening, (unclosed ts).head? = some (before, opening) ∧
        TellsUnclosed before opening "3217" "Missing ')' after function 'sqrt'") ∧
      ¬IsSentence ts ∧ ∃ k, 1 ≤ k ∧ IsSentence (ts ++ List.replicate k closing) := by
  intro ts
  have scanned : Token.scan "sqrt((1)*2" = .ok ts := rfl
  have ne : ts ≠ [] := List.cons_ne_nil _ _
  have evaluated : (parse ts).map (fun _ => ()) =
      .error (.fault (.unclosedCall "sqrt") none) := by decide +kernel
  have raised := eq_error_of_map evaluated
  have limit : parse ts ≠ .error (.fault .tooDeep none) := by
    intro deep
    rw [raised] at deep
    cases deep
  obtain ⟨unmatched, innermost, -⟩ := parse_error_at_end scanned ne limit
  obtain ⟨before, opening, head, -, tells⟩ := innermost _ raised rfl
  exact ⟨scanned, ne, raised, rfl, ⟨before, opening, head, tells⟩,
    unmatched.1 ⟨_, raised, rfl⟩⟩

end DeskCalculator
