/-
# Reading without a tree

Whether tokens can go on to a sentence of the grammar shows at every token, and takes no more than
the *place* in front of it and the parentheses that are unclosed there:

| place | what can stand there |
| --- | --- |
| `operand` | a number, a name, `(` or a minus sign |
| `called` | the `(` behind a function |
| `behind` | an operator, or `)` if a parenthesis is unclosed |

`advance` goes over one token and refuses one that cannot stand at its place, `atEnd` says what is
missing where the tokens end, and `diagnose` is what a list of tokens comes to.  What they do is
said once, with a constructor for each way on (`Step`), for each refusal (`Refusal`) and for each
thing that can be missing (`Missing`).
-/

import DeskCalculator.Expr.Reader
import DeskCalculator.Proofs.Except

namespace DeskCalculator
namespace Grammar

/-- An opening parenthesis: one that groups, or that of a call. -/
inductive Opening where
  | group (position : Int)
  | call (function : String)

/-- What is wrong if it is never closed. -/
def Opening.unclosed : Opening → Fault
  | .group position => .unclosedGroup position
  | .call function => .unclosedCall function

/-- What a token stands behind. -/
inductive Place where
  /-- An operand has to begin, perhaps because of a binary operator. -/
  | operand (operator : Option Token)
  /-- The name of a function. -/
  | called (function : String)
  /-- A complete operand, perhaps one that is a constant. -/
  | behind (constant : Option String)

/-- A place, and the parentheses that are unclosed there, the innermost first. -/
structure Progress where
  place : Place
  unclosed : List Opening

namespace Progress

/-- The place in front of everything. -/
def start : Progress := ⟨.operand none, []⟩

/-- What is wrong if the tokens end at a place. -/
def atEnd : Progress → Option Fault
  | ⟨.operand none, _⟩ => some .missingNumber
  | ⟨.operand (some t), _⟩ => some (.missingOperand t.text t.position)
  | ⟨.called function, _⟩ => some (.missingOpening function)
  | ⟨.behind _, unclosed⟩ => unclosed.head?.map Opening.unclosed

/-- Goes over a token. -/
def advance : Progress → Token → Except Fault Progress
  | ⟨.operand _, unclosed⟩, t =>
    match t.kind with
    | .number => .ok ⟨.behind none, unclosed⟩
    | .identifier =>
      if Names.isConstant t.text then .ok ⟨.behind (some t.text), unclosed⟩
      else if Names.isFunction t.text then .ok ⟨.called t.text, unclosed⟩
      else .error (.unknownName t.text)
    | .opening => .ok ⟨.operand none, .group t.position :: unclosed⟩
    | _ =>
      if Reader.isOperator ['-'] t then .ok ⟨.operand none, unclosed⟩
      else .error (.unexpectedToken t.text t.position)
  | ⟨.called function, unclosed⟩, t =>
    if t.kind = .opening then .ok ⟨.operand none, .call function :: unclosed⟩
    else .error (.missingOpening function)
  | ⟨.behind constant, unclosed⟩, t =>
    match t.kind, constant, unclosed with
    | .operator, _, _ => .ok ⟨.operand (some t), unclosed⟩
    | .opening, some name, _ => .error (.constantCalled name)
    | .closing, _, _ :: outer => .ok ⟨.behind none, outer⟩
    | _, _, [] => .error (.trailingInput t.text t.position)
    | _, _, _ :: _ => .error (.expectedClosing t.text t.position)

/-- Goes over tokens. -/
def run (p : Progress) (ts : List Token) : Except Fault Progress := ts.foldlM advance p

/-- What is wrong with tokens. -/
def diagnose (p : Progress) (ts : List Token) : Option Fault :=
  match p.run ts with
  | .error f => some f
  | .ok q => q.atEnd

/-! ## Ways on and refusals -/

/-- The ways on from a place. -/
inductive Step : Progress → Token → Progress → Prop where
  | number {operator : Option Token} {unclosed : List Opening} {t : Token}
      (isNumber : t.kind = .number) :
      Step ⟨.operand operator, unclosed⟩ t ⟨.behind none, unclosed⟩
  | constant {operator : Option Token} {unclosed : List Opening} {t : Token}
      (isName : t.kind = .identifier) (known : Names.isConstant t.text = true) :
      Step ⟨.operand operator, unclosed⟩ t ⟨.behind (some t.text), unclosed⟩
  | function {operator : Option Token} {unclosed : List Opening} {t : Token}
      (isName : t.kind = .identifier) (known : Names.isFunction t.text = true) :
      Step ⟨.operand operator, unclosed⟩ t ⟨.called t.text, unclosed⟩
  | group {operator : Option Token} {unclosed : List Opening} {t : Token}
      (opens : t.kind = .opening) :
      Step ⟨.operand operator, unclosed⟩ t ⟨.operand none, .group t.position :: unclosed⟩
  | minus {operator : Option Token} {unclosed : List Opening} {t : Token}
      (isMinus : Reader.isOperator ['-'] t = true) :
      Step ⟨.operand operator, unclosed⟩ t ⟨.operand none, unclosed⟩
  | call {function : String} {unclosed : List Opening} {t : Token} (opens : t.kind = .opening) :
      Step ⟨.called function, unclosed⟩ t ⟨.operand none, .call function :: unclosed⟩
  | operator {constant : Option String} {unclosed : List Opening} {t : Token}
      (isOperator : t.kind = .operator) :
      Step ⟨.behind constant, unclosed⟩ t ⟨.operand (some t), unclosed⟩
  | close {constant : Option String} {opening : Opening} {outer : List Opening} {t : Token}
      (closes : t.kind = .closing) :
      Step ⟨.behind constant, opening :: outer⟩ t ⟨.behind none, outer⟩

/-- A token that does not go on behind an operand: no operator, and no parenthesis that would call a
constant. -/
structure Ends (constant : Option String) (t : Token) : Prop where
  operator : t.kind ≠ .operator
  call : constant.isSome → t.kind ≠ .opening

/-- The tokens that cannot stand at a place, and what is wrong with them. -/
inductive Refusal : Progress → Token → Fault → Prop where
  | unknown {operator : Option Token} {unclosed : List Opening} {t : Token}
      (isName : t.kind = .identifier) (notConstant : Names.isConstant t.text = false)
      (notFunction : Names.isFunction t.text = false) :
      Refusal ⟨.operand operator, unclosed⟩ t (.unknownName t.text)
  | unexpected {operator : Option Token} {unclosed : List Opening} {t : Token}
      (notNumber : t.kind ≠ .number) (notName : t.kind ≠ .identifier)
      (notOpening : t.kind ≠ .opening) (notMinus : Reader.isOperator ['-'] t = false) :
      Refusal ⟨.operand operator, unclosed⟩ t (.unexpectedToken t.text t.position)
  | uncalled {function : String} {unclosed : List Opening} {t : Token}
      (notOpening : t.kind ≠ .opening) :
      Refusal ⟨.called function, unclosed⟩ t (.missingOpening function)
  | constantCalled {name : String} {unclosed : List Opening} {t : Token}
      (opens : t.kind = .opening) :
      Refusal ⟨.behind (some name), unclosed⟩ t (.constantCalled name)
  | trailing {constant : Option String} {t : Token} (ends : Ends constant t) :
      Refusal ⟨.behind constant, []⟩ t (.trailingInput t.text t.position)
  | unclosed {constant : Option String} {opening : Opening} {outer : List Opening} {t : Token}
      (ends : Ends constant t) (notClosing : t.kind ≠ .closing) :
      Refusal ⟨.behind constant, opening :: outer⟩ t (.expectedClosing t.text t.position)

/-- What is missing where the tokens end. -/
inductive Missing : Progress → Fault → Prop where
  | number {unclosed : List Opening} : Missing ⟨.operand none, unclosed⟩ .missingNumber
  | operand {operator : Token} {unclosed : List Opening} :
      Missing ⟨.operand (some operator), unclosed⟩
        (.missingOperand operator.text operator.position)
  | call {function : String} {unclosed : List Opening} :
      Missing ⟨.called function, unclosed⟩ (.missingOpening function)
  | closing {constant : Option String} {opening : Opening} {outer : List Opening} :
      Missing ⟨.behind constant, opening :: outer⟩ opening.unclosed

variable {t : Token} {ts : List Token} {p q : Progress} {f : Fault}

/-- What is one of some operators is an operator. -/
theorem kind_of_isOperator {symbols : List Char} (h : Reader.isOperator symbols t = true) :
    t.kind = .operator := by
  rw [Reader.isOperator, Bool.and_eq_true, beq_iff_eq] at h
  exact h.1

/-- A way on is what advancing takes. -/
theorem Step.advance_eq (h : Step p t q) : p.advance t = .ok q := by
  cases h with
  | number h => simp [advance, h]
  | constant h known => simp [advance, h, known]
  | function h known => simp [advance, h, known, Names.not_isConstant_of_isFunction known]
  | group h => simp [advance, h]
  | minus h => simp [advance, kind_of_isOperator h, h]
  | call h => simp [advance, h]
  | operator h => simp [advance, h]
  | close h => simp [advance, h]

/-- A refusal is what advancing stops with. -/
theorem Refusal.advance_eq (h : Refusal p t f) : p.advance t = .error f := by
  cases h with
  | unknown h notConstant notFunction => simp [advance, h, notConstant, notFunction]
  | unexpected notNumber notName notOpening notMinus =>
    cases hk : t.kind <;> simp_all [advance]
  | uncalled h => simp [advance, h]
  | constantCalled h => simp [advance, h]
  | @trailing constant t ends =>
    obtain ⟨notOperator, notCall⟩ := ends
    cases constant <;> cases hk : t.kind <;> simp_all [advance]
  | @unclosed constant opening outer t ends notClosing =>
    obtain ⟨notOperator, notCall⟩ := ends
    cases constant <;> cases hk : t.kind <;> simp_all [advance]

/-- **A token goes on in one of the ways or is refused for one of the reasons.** -/
theorem step_or_refusal (p : Progress) (t : Token) :
    (∃ q, Step p t q) ∨ ∃ f, Refusal p t f := by
  obtain ⟨place, unclosed⟩ := p
  cases place with
  | operand operator =>
    by_cases isMinus : Reader.isOperator ['-'] t = true
    · exact .inl ⟨_, .minus isMinus⟩
    cases hk : t.kind with
    | number => exact .inl ⟨_, .number hk⟩
    | opening => exact .inl ⟨_, .group hk⟩
    | identifier =>
      cases hc : Names.isConstant t.text with
      | true => exact .inl ⟨_, .constant hk hc⟩
      | false =>
        cases hf : Names.isFunction t.text with
        | true => exact .inl ⟨_, .function hk hf⟩
        | false => exact .inr ⟨_, .unknown hk hc hf⟩
    | _ =>
      refine .inr ⟨_, .unexpected ?_ ?_ ?_ (Bool.eq_false_iff.2 isMinus)⟩ <;> rw [hk] <;> decide
  | called function =>
    by_cases opens : t.kind = .opening
    · exact .inl ⟨_, .call opens⟩
    · exact .inr ⟨_, .uncalled opens⟩
  | behind constant =>
    by_cases isOperator : t.kind = .operator
    · exact .inl ⟨_, .operator isOperator⟩
    by_cases call : constant.isSome ∧ t.kind = .opening
    · obtain ⟨name, rfl⟩ := Option.isSome_iff_exists.1 call.1
      exact .inr ⟨_, .constantCalled call.2⟩
    have ends : Ends constant t := ⟨isOperator, fun some opens => call ⟨some, opens⟩⟩
    cases unclosed with
    | nil => exact .inr ⟨_, .trailing ends⟩
    | cons opening unclosed =>
      by_cases closes : t.kind = .closing
      · exact .inl ⟨_, .close closes⟩
      · exact .inr ⟨_, .unclosed ends closes⟩

/-- Advancing succeeds exactly along the ways on. -/
theorem advance_eq_ok : p.advance t = .ok q ↔ Step p t q := by
  refine ⟨fun h => ?_, Step.advance_eq⟩
  rcases step_or_refusal p t with ⟨q', step⟩ | ⟨f, refusal⟩
  · rw [step.advance_eq] at h
    exact Except.ok.inj h ▸ step
  · rw [refusal.advance_eq] at h
    cases h

/-- Something is missing at the end exactly as it is listed. -/
theorem atEnd_eq_some : p.atEnd = some f ↔ Missing p f := by
  constructor
  · intro h
    obtain ⟨place, unclosed⟩ := p
    cases place with
    | operand operator =>
      cases operator with
      | none =>
        cases h
        exact .number
      | some t =>
        cases h
        exact .operand
    | called function =>
      cases h
      exact .call
    | behind constant =>
      cases unclosed with
      | nil => cases h
      | cons opening outer =>
        cases h
        exact .closing
  · intro h
    cases h <;> rfl

/-- The codes of the faults of a token. -/
theorem Refusal.code_mem (h : Refusal p t f) :
    f.code ∈ ["3011", "3033", "3032", "3036", "3023"] := by
  cases h <;> simp [Fault.code]

/-! ## Runs -/

/-- Without tokens, a run stays where it is. -/
theorem run_nil (p : Progress) : p.run [] = .ok p := rfl

/-- A run goes over the first token and then over the others. -/
theorem run_cons (p : Progress) (t : Token) (ts : List Token) :
    p.run (t :: ts) = p.advance t >>= fun q => q.run ts := rfl

/-- A run over two lists is one run after the other. -/
theorem run_append (p : Progress) (ts us : List Token) :
    p.run (ts ++ us) = p.run ts >>= fun q => q.run us := by
  simp only [run, List.foldlM_append]

/-- Behind a way on, a run starts from where it leads. -/
theorem Step.run_cons (h : Step p t q) (ts : List Token) : p.run (t :: ts) = q.run ts := by
  rw [Progress.run_cons, h.advance_eq]
  rfl

/-- A run stops at a token that is refused. -/
theorem Refusal.run_cons (h : Refusal p t f) (ts : List Token) : p.run (t :: ts) = .error f := by
  rw [Progress.run_cons, h.advance_eq]
  rfl

/-- Tokens that have been gone over can be left out of a run. -/
theorem run_append_of_ok (h : p.run ts = .ok q) (us : List Token) :
    p.run (ts ++ us) = q.run us := by
  rw [run_append, h]
  rfl

/-- What is wrong with tokens is wrong behind those that have been gone over. -/
theorem diagnose_append_of_ok (h : p.run ts = .ok q) (us : List Token) :
    p.diagnose (ts ++ us) = q.diagnose us := by
  rw [diagnose, run_append_of_ok h, diagnose]

/-- What is wrong behind a way on is wrong from where it leads. -/
theorem Step.diagnose_cons (h : Step p t q) (ts : List Token) :
    p.diagnose (t :: ts) = q.diagnose ts := by
  rw [diagnose, h.run_cons, diagnose]

/-- What is wrong with a refused token is what is wrong with all of them. -/
theorem Refusal.diagnose_cons (h : Refusal p t f) (ts : List Token) :
    p.diagnose (t :: ts) = some f := by
  rw [diagnose, h.run_cons]

/-- A run stops at the first token that is refused. -/
theorem exists_refusal_of_run (h : p.run ts = .error f) :
    ∃ front t rest q, ts = front ++ t :: rest ∧ p.run front = .ok q ∧ Refusal q t f := by
  induction ts generalizing p with
  | nil => cases h
  | cons t ts ih =>
    rcases step_or_refusal p t with ⟨q, step⟩ | ⟨f', refusal⟩
    · rw [step.run_cons] at h
      obtain ⟨front, t', rest, q', rfl, run, refusal⟩ := ih h
      exact ⟨t :: front, t', rest, q', rfl, by rw [step.run_cons, run], refusal⟩
    · rw [refusal.run_cons] at h
      cases h
      exact ⟨[], t, ts, p, rfl, rfl, refusal⟩

/-- What a run over more tokens comes to shows what it comes to over the first of them. -/
theorem exists_run_of_append {us : List Token} (h : p.run (ts ++ us) = .ok q) :
    ∃ q', p.run ts = .ok q' ∧ q'.run us = .ok q := by
  rw [run_append] at h
  exact bind_eq_ok.1 h

/-- The last step of a run. -/
theorem exists_step_of_run (h : p.run (ts ++ [t]) = .ok q) :
    ∃ q', p.run ts = .ok q' ∧ Step q' t q := by
  obtain ⟨q', run, last⟩ := exists_run_of_append h
  obtain ⟨q'', step, last⟩ := bind_eq_ok.1 last
  cases last
  exact ⟨q', run, advance_eq_ok.1 step⟩

/-- What a run comes to, at a token or at the end. -/
theorem diagnose_eq_some (h : p.diagnose ts = some f) :
    (∃ front t rest q, ts = front ++ t :: rest ∧ p.run front = .ok q ∧ Refusal q t f) ∨
      ∃ q, p.run ts = .ok q ∧ Missing q f := by
  unfold diagnose at h
  split at h
  · rename_i f' run
    cases h
    exact .inl (exists_refusal_of_run run)
  · rename_i q run
    exact .inr ⟨q, run, atEnd_eq_some.1 h⟩

/-- If a run ends where something is missing, that is what is wrong. -/
theorem Missing.diagnose_eq (h : Missing q f) (run : p.run ts = .ok q) :
    p.diagnose ts = some f := by
  rw [diagnose, run]
  exact atEnd_eq_some.2 h

/-- A run is at the start, or it has a last step. -/
theorem eq_nil_or_exists_step (h : start.run ts = .ok q) :
    (ts = [] ∧ q = start) ∨
      ∃ front t q', ts = front ++ [t] ∧ start.run front = .ok q' ∧ Step q' t q := by
  rcases ts.eq_nil_or_concat' with rfl | ⟨front, t, rfl⟩
  · cases h
    exact .inl ⟨rfl, rfl⟩
  · obtain ⟨q', run, step⟩ := exists_step_of_run h
    exact .inr ⟨front, t, q', rfl, run, step⟩

/-- Behind the name of a function stands a token with that name. -/
theorem exists_name_of_called {function : String} {unclosed : List Opening}
    (h : start.run ts = .ok ⟨.called function, unclosed⟩) :
    ∃ front name, ts = front ++ [name] ∧ name.kind = .identifier ∧
      Names.isFunction name.text = true ∧ function = name.text := by
  rcases eq_nil_or_exists_step h with ⟨-, h⟩ | ⟨front, t, q', rfl, -, step⟩
  · cases h
  · cases step with
    | function isName known => exact ⟨front, t, rfl, isName, known, rfl⟩

/-- Behind a constant stands a token with its name. -/
theorem exists_name_of_behind {constant : String} {unclosed : List Opening}
    (h : start.run ts = .ok ⟨.behind (some constant), unclosed⟩) :
    ∃ front name, ts = front ++ [name] ∧ name.kind = .identifier ∧
      Names.isConstant name.text = true ∧ constant = name.text := by
  rcases eq_nil_or_exists_step h with ⟨-, h⟩ | ⟨front, t, q', rfl, -, step⟩
  · cases h
  · cases step with
    | constant isName known => exact ⟨front, t, rfl, isName, known, rfl⟩

/-- The token in front of where an operand can begin does not end one. -/
theorem kind_of_operand {operator : Option Token} {unclosed : List Opening}
    (h : start.run ts = .ok ⟨.operand operator, unclosed⟩) :
    ∀ t ∈ ts.getLast?, t.kind = .operator ∨ t.kind = .opening := by
  rcases eq_nil_or_exists_step h with ⟨rfl, -⟩ | ⟨front, t, q', rfl, -, step⟩
  · intro t h
    cases h
  · rw [List.getLast?_concat]
    rintro t ⟨⟩
    cases step with
    | group opens => exact .inr opens
    | call opens => exact .inr opens
    | minus isMinus => exact .inl (kind_of_isOperator isMinus)
    | operator isOperator => exact .inl isOperator

/-- The token behind which an operand is complete ends one, and is a name only if it is a
constant. -/
theorem kind_of_behind {constant : Option String} {unclosed : List Opening}
    (h : start.run ts = .ok ⟨.behind constant, unclosed⟩) :
    ∃ t ∈ ts.getLast?, t.kind = .number ∨ t.kind = .closing ∨
      t.kind = .identifier ∧ constant = some t.text := by
  rcases eq_nil_or_exists_step h with ⟨-, h⟩ | ⟨front, t, q', rfl, -, step⟩
  · cases h
  · rw [List.getLast?_concat]
    refine ⟨t, rfl, ?_⟩
    cases step with
    | number isNumber => exact .inl isNumber
    | close closes => exact .inr (.inl closes)
    | constant isName known => exact .inr (.inr ⟨isName, rfl⟩)

end Progress
end Grammar
end DeskCalculator
