/-
# What can go on to a sentence

Tokens are *viable* if more tokens make a sentence of them.  They are so exactly if a run goes over
them without a refusal (`isViable_iff_run`).  That a sentence is gone over follows its derivation
(`Derivation.run_tokens`).  The other direction needs to know what the tokens of a run are made of,
with the unclosed parentheses as the seams (`Reached`): in front of each stand tokens that any
operand makes a sentence of, and behind the innermost one either such tokens or a sentence.  Every
step keeps this, and closing the parentheses one after another makes a sentence of the whole.
-/

import DeskCalculator.Proofs.Grammar.Progress
import DeskCalculator.Proofs.Grammar.Reading

namespace DeskCalculator
namespace Grammar

/-- Tokens that have a derivation, however deep it nests. -/
def IsSentence (ts : List Token) : Prop := ∃ d : Derivation (.chain .sum), d.tokens = ts

/-- Tokens that begin a sentence. -/
def IsViable (ts : List Token) : Prop := ∃ more, IsSentence (ts ++ more)

/-- Tokens that every operand makes a sentence of. -/
def Begun (ts : List Token) : Prop := ∀ d : Derivation .unary, IsSentence (ts ++ d.tokens)

/-! ## A run over a derivation -/

open Progress

mutual

/-- **A run goes over everything that is derived, from where an operand can begin to behind it.** -/
theorem Derivation.run_tokens :
    ∀ {rule : Rule} (d : Derivation rule) (operator : Option Token) (unclosed : List Opening),
      ∃ constant, run ⟨.operand operator, unclosed⟩ d.tokens = .ok ⟨.behind constant, unclosed⟩
  | _, .number token value isNumber reads, _, _ => ⟨_, (Step.number isNumber).run_cons _⟩
  | _, .constant name isName known, _, _ => ⟨_, (Step.constant isName known).run_cons _⟩
  | _, .call name opening argument closing isName known opens closes, _, unclosed => by
      obtain ⟨constant, run⟩ := argument.run_tokens none (.call name.text :: unclosed)
      refine ⟨none, ?_⟩
      rw [Derivation.tokens, (Step.function isName known).run_cons, (Step.call opens).run_cons,
        run_append_of_ok run, (Step.close closes).run_cons, run_nil]
  | _, .group opening inside closing opens closes, _, unclosed => by
      obtain ⟨constant, run⟩ := inside.run_tokens none (.group opening.position :: unclosed)
      refine ⟨none, ?_⟩
      rw [Derivation.tokens, (Step.group opens).run_cons, run_append_of_ok run,
        (Step.close closes).run_cons, run_nil]
  | _, .atom d, operator, unclosed => d.run_tokens operator unclosed
  | _, .minus sign operand isMinus, _, unclosed => by
      obtain ⟨constant, run⟩ := operand.run_tokens none unclosed
      refine ⟨constant, ?_⟩
      rw [Derivation.tokens, (Step.minus isMinus.isOperator).run_cons, run]
  | _, .unary d, operator, unclosed => d.run_tokens operator unclosed
  | _, .raised base operator exponent isCaret, first, unclosed => by
      obtain ⟨_, run⟩ := base.run_tokens first unclosed
      obtain ⟨constant, run'⟩ := exponent.run_tokens (some operator) unclosed
      refine ⟨constant, ?_⟩
      rw [Derivation.tokens, run_append_of_ok run, (Step.operator isCaret.1).run_cons, run']
  | _, .chain first links, operator, unclosed => by
      obtain ⟨constant, run⟩ := first.run_tokens operator unclosed
      obtain ⟨constant', run'⟩ := links.run_tokens constant unclosed
      refine ⟨constant', ?_⟩
      rw [Derivation.tokens, run_append_of_ok run, run']

/-- A run goes over the rest of a chain. -/
theorem Links.run_tokens :
    ∀ {tier : Tier} (links : Links tier) (constant : Option String) (unclosed : List Opening),
      ∃ constant', run ⟨.behind constant, unclosed⟩ links.tokens =
        .ok ⟨.behind constant', unclosed⟩
  | _, .nil, constant, _ => ⟨constant, rfl⟩
  | _, .cons operator operand more isSign, _, unclosed => by
      obtain ⟨constant, run⟩ := operand.run_tokens (some operator) unclosed
      obtain ⟨constant', run'⟩ := more.run_tokens constant unclosed
      refine ⟨constant', ?_⟩
      rw [Links.tokens, (Step.operator isSign.1).run_cons, run_append_of_ok run, run']

end

/-- A run goes over a sentence. -/
theorem IsSentence.run {ts : List Token} (h : IsSentence ts) :
    ∃ constant, start.run ts = .ok ⟨.behind constant, []⟩ := by
  obtain ⟨d, rfl⟩ := h
  exact d.run_tokens none []

/-- A run goes over what begins a sentence. -/
theorem IsViable.run {ts : List Token} (h : IsViable ts) : ∃ p, start.run ts = .ok p := by
  obtain ⟨more, sentence⟩ := h
  obtain ⟨constant, run⟩ := sentence.run
  obtain ⟨p, run, -⟩ := exists_run_of_append run
  exact ⟨p, run⟩

/-! ## Longer derivations -/

/-- What is derived from a rule goes on with an operator: with an operand behind it, it is derived
from the rule again. -/
def GoesOn (rule : Rule) (operator : Token) : Prop :=
  ∀ (d : Derivation rule) (operand : Derivation .unary),
    ∃ d' : Derivation rule, d'.tokens = d.tokens ++ operator :: operand.tokens

variable {operator : Token}

/-- The last exponent of a power can be raised. -/
theorem goesOn_power (isCaret : operator.IsSign ['^']) : GoesOn .power operator
  | .unary base, operand => ⟨.raised base operator (.unary operand) isCaret, rfl⟩
  | .raised base sign exponent isCaret', operand => by
      obtain ⟨d, tokens⟩ := goesOn_power isCaret exponent operand
      exact ⟨.raised base sign d isCaret', by simp [Derivation.tokens, tokens]⟩

/-- An operand of a tier that has the tokens of a unary. -/
theorem exists_operand (tier : Tier) (d : Derivation .unary) :
    ∃ d' : Derivation tier.operand, d'.tokens = d.tokens := by
  cases tier with
  | sum => exact ⟨.chain (.unary d) .nil, by simp [Derivation.tokens, Links.tokens]⟩
  | term => exact ⟨.unary d, rfl⟩

/-- A chain can have one more link. -/
theorem Links.exists_concat {tier : Tier} (isSign : operator.IsSign tier.symbols)
    (operand : Derivation tier.operand) :
    ∀ links : Links tier, ∃ links' : Links tier,
      links'.tokens = links.tokens ++ operator :: operand.tokens
  | .nil => ⟨.cons operator operand .nil isSign, by simp [Links.tokens]⟩
  | .cons sign first more isSign' => by
      obtain ⟨links, tokens⟩ := more.exists_concat isSign operand
      exact ⟨.cons sign first links isSign', by simp [Links.tokens, tokens]⟩

/-- The last operand of a chain can go on. -/
theorem Links.exists_extended {tier : Tier} (h : GoesOn tier.operand operator)
    (operand : Derivation .unary) :
    ∀ (first : Derivation tier.operand) (links : Links tier),
      ∃ (first' : Derivation tier.operand) (links' : Links tier),
        first'.tokens ++ links'.tokens = first.tokens ++ links.tokens ++ operator :: operand.tokens
  | first, .nil => by
      obtain ⟨d, tokens⟩ := h first operand
      exact ⟨d, .nil, by simp [Links.tokens, tokens]⟩
  | first, .cons sign second more isSign => by
      obtain ⟨d, links, tokens⟩ := more.exists_extended h operand second
      exact ⟨first, .cons sign d links isSign, by simp [Links.tokens, tokens]⟩

/-- A chain goes on with its own operators and with those that its operands go on with. -/
theorem goesOn_chain {tier : Tier}
    (h : operator.IsSign tier.symbols ∨ GoesOn tier.operand operator) :
    GoesOn (.chain tier) operator
  | .chain first links, operand => by
      rcases h with isSign | h
      · obtain ⟨d, tokens⟩ := exists_operand tier operand
        obtain ⟨links', tokens'⟩ := links.exists_concat isSign d
        exact ⟨.chain first links', by simp [Derivation.tokens, tokens', tokens]⟩
      · obtain ⟨first', links', tokens⟩ := links.exists_extended h operand first
        exact ⟨.chain first' links', by simp [Derivation.tokens, tokens]⟩

/-- An operator is one of a tier or a caret. -/
theorem isSign_of_operators (h : operator.IsSign Token.operators) :
    operator.IsSign (Tier.symbols .sum) ∨ operator.IsSign (Tier.symbols .term) ∨
      operator.IsSign ['^'] := by
  obtain ⟨isOperator, c, mem, text⟩ := h
  have sign {symbols : List Char} (hc : c ∈ symbols) : operator.IsSign symbols :=
    ⟨isOperator, c, hc, text⟩
  have one : c ∈ Tier.symbols .sum ∨ c ∈ Tier.symbols .term ∨ c ∈ ['^'] := by
    simp only [Token.operators, Tier.symbols, List.mem_cons, List.not_mem_nil, or_false] at mem ⊢
    tauto
  exact one.imp sign (.imp sign sign)

/-- **A sentence goes on with every operator.** -/
theorem goesOn_sum (h : operator.IsSign Token.operators) : GoesOn (.chain .sum) operator := by
  rcases isSign_of_operators h with sum | term | caret
  · exact goesOn_chain (.inl sum)
  · exact goesOn_chain (.inr (goesOn_chain (.inl term)))
  · exact goesOn_chain (.inr (goesOn_chain (.inr (goesOn_power caret))))

variable {ts front inner : List Token}

/-- Every operand is a sentence by itself. -/
theorem begun_nil : Begun [] := by
  intro d
  exact ⟨.chain (.chain (.unary d) .nil) .nil, by simp [Derivation.tokens, Links.tokens]⟩

/-- A minus sign in front of an operand is a part of it. -/
theorem Begun.minus (h : Begun ts) (isMinus : operator.IsSign ['-']) :
    Begun (ts ++ [operator]) := by
  intro d
  obtain ⟨d', tokens⟩ := h (.minus operator d isMinus)
  exact ⟨d', by simp [tokens, Derivation.tokens]⟩

/-- An atom makes a sentence of them, too. -/
theorem Begun.atom (h : Begun ts) (d : Derivation .atom) : IsSentence (ts ++ d.tokens) :=
  h (.atom d)

/-- Behind a sentence and an operator, every operand makes a sentence. -/
theorem IsSentence.begun (h : IsSentence ts) (isSign : operator.IsSign Token.operators) :
    Begun (ts ++ [operator]) := by
  intro d
  obtain ⟨d', rfl⟩ := h
  obtain ⟨d'', tokens⟩ := goesOn_sum isSign d' d
  exact ⟨d'', by simp [tokens]⟩

/-! ## What a run has gone over -/

/-- The tokens up to the innermost of some unclosed parentheses: in front of each of them, or of the
function that it calls, stand tokens that every operand makes a sentence of. -/
inductive Within : List Opening → List Token → Prop where
  | outside : Within [] []
  | group {unclosed : List Opening} {front inner : List Token} {t : Token}
      (within : Within unclosed front) (begun : Begun inner) (opens : t.kind = .opening) :
      Within (.group t.position :: unclosed) (front ++ inner ++ [t])
  | call {unclosed : List Opening} {front inner : List Token} {name t : Token}
      (within : Within unclosed front) (begun : Begun inner) (isName : name.kind = .identifier)
      (known : Names.isFunction name.text = true) (opens : t.kind = .opening) :
      Within (.call name.text :: unclosed) (front ++ inner ++ [name, t])

/-- The tokens up to a place, by what stands behind the innermost unclosed parenthesis. -/
inductive Reached : Progress → List Token → Prop where
  | operand {operator : Option Token} {unclosed : List Opening} {front inner : List Token}
      (within : Within unclosed front) (begun : Begun inner) :
      Reached ⟨.operand operator, unclosed⟩ (front ++ inner)
  | called {name : Token} {unclosed : List Opening} {front inner : List Token}
      (within : Within unclosed front) (begun : Begun inner) (isName : name.kind = .identifier)
      (known : Names.isFunction name.text = true) :
      Reached ⟨.called name.text, unclosed⟩ (front ++ inner ++ [name])
  | behind {constant : Option String} {unclosed : List Opening} {front inner : List Token}
      (within : Within unclosed front) (sentence : IsSentence inner) :
      Reached ⟨.behind constant, unclosed⟩ (front ++ inner)

/-- The place in front of everything is reached without tokens. -/
theorem reached_start : Reached start [] := .operand .outside begun_nil

variable {p q : Progress} {t : Token} {unclosed : List Opening}

/-- **Every step keeps what the tokens are made of.** -/
theorem Reached.step (h : Reached p ts) (step : Step p t q) (wf : t.WellFormed) :
    Reached q (ts ++ [t]) := by
  cases step with
  | number isNumber =>
    cases h with
    | operand within begun =>
      obtain ⟨x, reads⟩ := wf.number isNumber
      rw [List.append_assoc]
      exact .behind within (begun.atom (.number t x isNumber reads))
  | constant isName known =>
    cases h with
    | operand within begun =>
      rw [List.append_assoc]
      exact .behind within (begun.atom (.constant t isName known))
  | function isName known =>
    cases h with
    | operand within begun => exact .called within begun isName known
  | group opens =>
    cases h with
    | operand within begun =>
      simpa using Reached.operand (within.group begun opens) begun_nil
  | minus isMinus =>
    cases h with
    | operand within begun =>
      rw [List.append_assoc]
      exact .operand within (begun.minus (isSign_of_isOperator wf isMinus))
  | call opens =>
    generalize hp : (⟨.called _, _⟩ : Progress) = p at h
    cases h with
    | called within begun isName known =>
      cases hp
      simpa using Reached.operand (within.call begun isName known opens) begun_nil
    | _ => cases hp
  | operator isOperator =>
    cases h with
    | behind within sentence =>
      rw [List.append_assoc]
      exact .operand within (sentence.begun (wf.operator isOperator))
  | close closes =>
    cases h with
    | behind within sentence =>
      obtain ⟨d, rfl⟩ := sentence
      cases within with
      | group within begun opens =>
        have group := begun.atom (.group _ d t opens closes)
        simpa [Derivation.tokens] using Reached.behind within group
      | call within begun isName known opens =>
        have call := begun.atom (.call _ _ d t isName known opens closes)
        simpa [Derivation.tokens] using Reached.behind within call

/-- **What the tokens of a run are made of.** -/
theorem reached_of_run (wf : ∀ t ∈ ts, t.WellFormed) (run : start.run ts = .ok p) :
    Reached p ts := by
  induction ts using List.reverseRecOn generalizing p with
  | nil =>
    cases run
    exact reached_start
  | append_singleton ts t ih =>
    obtain ⟨q, run, step⟩ := exists_step_of_run run
    obtain ⟨wf, wellFormed⟩ := List.forall_mem_append.1 wf
    exact (ih wf run).step step (wellFormed t (List.mem_singleton_self t))

/-! ## Completions -/

/-- A closing parenthesis, in no particular place. -/
def closing : Token := ⟨.closing, ")", 0⟩

/-- Closing the unclosed parentheses makes a sentence of a sentence behind the innermost one. -/
theorem Within.closed (h : Within unclosed front) (sentence : IsSentence inner) :
    IsSentence (front ++ inner ++ List.replicate unclosed.length closing) := by
  induction h generalizing inner with
  | outside => simpa using sentence
  | @group unclosed front before t within begun opens ih =>
    obtain ⟨d, rfl⟩ := sentence
    have whole := ih (begun.atom (.group t d closing opens rfl))
    simpa [Derivation.tokens, List.replicate_succ] using whole
  | @call unclosed front before name t within begun isName known opens ih =>
    obtain ⟨d, rfl⟩ := sentence
    have whole := ih (begun.atom (.call name t d closing isName known opens rfl))
    simpa [Derivation.tokens, List.replicate_succ] using whole

/-- Closing the parentheses makes a sentence of what ends behind an operand. -/
theorem Reached.closed {constant : Option String} (h : Reached ⟨.behind constant, unclosed⟩ ts) :
    IsSentence (ts ++ List.replicate unclosed.length closing) := by
  cases h with
  | behind within sentence => exact within.closed sentence

/-- Where an operand can begin, an operand and closing the parentheses make a sentence. -/
theorem Reached.filled {operator : Option Token} (h : Reached ⟨.operand operator, unclosed⟩ ts)
    (d : Derivation .unary) :
    IsSentence (ts ++ d.tokens ++ List.replicate unclosed.length closing) := by
  cases h with
  | operand within begun =>
    rw [List.append_assoc _ _ d.tokens]
    exact within.closed (begun d)

/-- A number, in no particular place. -/
def one : Token := ⟨.number, "1", 0⟩

/-- The number reads as one. -/
theorem ofText?_one : Binary64.ofText? one.text = some (.ofNat 1) := by decide +kernel

/-- Tokens that reach a place begin a sentence. -/
theorem Reached.isViable (h : Reached p ts) : IsViable ts := by
  obtain ⟨place, unclosed⟩ := p
  cases place with
  | operand operator =>
    have sentence := h.filled (.atom (.number one _ rfl ofText?_one))
    rw [List.append_assoc] at sentence
    exact ⟨_, sentence⟩
  | behind constant => exact ⟨_, h.closed⟩
  | called function =>
    generalize hp : (⟨.called function, unclosed⟩ : Progress) = p at h
    cases h with
    | @called name unclosed front inner within begun isName known =>
      let argument : Derivation (.chain .sum) :=
        .chain (.chain (.unary (.atom (.number one _ rfl ofText?_one))) .nil) .nil
      have sentence := within.closed (begun.atom
        (.call name ⟨.opening, "(", 0⟩ argument closing isName known rfl rfl))
      simp only [Derivation.tokens, List.append_assoc, List.cons_append] at sentence
      exact ⟨_, by simpa using sentence⟩
    | _ => cases hp

/-- **Tokens are viable exactly if a run goes over them.** -/
theorem isViable_iff_run (wf : ∀ t ∈ ts, t.WellFormed) :
    IsViable ts ↔ ∃ p, start.run ts = .ok p :=
  ⟨IsViable.run, fun ⟨_, run⟩ => (reached_of_run wf run).isViable⟩

/-- Tokens are a sentence exactly if a run ends behind an operand with all parentheses closed. -/
theorem isSentence_iff_run (wf : ∀ t ∈ ts, t.WellFormed) :
    IsSentence ts ↔ ∃ constant, start.run ts = .ok ⟨.behind constant, []⟩ := by
  refine ⟨IsSentence.run, ?_⟩
  rintro ⟨constant, run⟩
  have sentence := (reached_of_run wf run).closed
  rwa [List.length_nil, List.replicate_zero, List.append_nil] at sentence

end Grammar
end DeskCalculator
