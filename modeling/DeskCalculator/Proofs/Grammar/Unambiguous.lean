/-
# The grammar is unambiguous

Two derivations from one rule that derive the beginning of the same tokens are the same derivation,
provided that both stop where the rule has to stop (`Derivation.eq_of_append`): behind a power there
is no `^`, behind a chain none of its operators and none that its operands go on with.  So a token
list has at most one derivation (`Derivation.eq_of_tokens`).
-/

import DeskCalculator.Expr.Reader
import DeskCalculator.Proofs.Grammar.Derivation

namespace DeskCalculator

/-- A single character stands in a text if it is one of its characters. -/
theorem Text.occursIn_singleton (c : Char) (cs : List Char) :
    Text.occursIn [c] cs = cs.contains c := by
  induction cs with
  | nil => rfl
  | cons d ds ih =>
    rw [Text.occursIn, ih, List.contains_cons, List.isPrefixOf_cons_cons, List.isPrefixOf_nil_left,
      Bool.and_true]

/-- An operator token with a sign for its text is one of some operators if the sign is. -/
theorem Reader.isOperator_eq {t : Token} {c : Char} (hk : t.kind = .operator)
    (ht : t.text = String.singleton c) (symbols : List Char) :
    Reader.isOperator symbols t = symbols.contains c := by
  have hs : (String.singleton c).toList = [c] := by simp
  rw [Reader.isOperator, hk, ht, hs, Text.occursIn_singleton, beq_self_eq_true, Bool.true_and]

/-- Only operator tokens are operators. -/
theorem Reader.isOperator_of_kind_ne {t : Token} (h : t.kind ≠ .operator) (symbols : List Char) :
    Reader.isOperator symbols t = false := by
  rw [Reader.isOperator, beq_false_of_ne h, Bool.false_and]

/-- A sign is an operator of its symbols. -/
theorem Token.IsSign.isOperator {t : Token} {symbols : List Char} (h : t.IsSign symbols) :
    Reader.isOperator symbols t = true := by
  obtain ⟨hk, c, hc, ht⟩ := h
  rw [Reader.isOperator_eq hk ht]
  exact List.contains_iff_mem.2 hc

/-- A sign from one set is no operator of another set without common signs. -/
theorem Token.IsSign.isOperator_eq_false {t : Token} {symbols others : List Char}
    (h : t.IsSign symbols) (apart : ∀ c ∈ symbols, c ∉ others) :
    Reader.isOperator others t = false := by
  obtain ⟨hk, c, hc, ht⟩ := h
  rw [Reader.isOperator_eq hk ht, List.contains_eq_mem, decide_eq_false_iff_not]
  exact apart c hc

namespace Grammar

/-- The operators with which a derivation from a rule could go on. -/
def Rule.behind : Rule → List (List Char)
  | .atom => []
  | .unary => []
  | .power => [['^']]
  | .chain .term => [Tier.symbols .term, ['^']]
  | .chain .sum => [Tier.symbols .sum, Tier.symbols .term, ['^']]

/-- Tokens with which no derivation from a rule goes on. -/
def Stops (rule : Rule) (ts : List Token) : Prop :=
  ∀ t ∈ ts.head?, ∀ symbols ∈ rule.behind, Reader.isOperator symbols t = false

/-- Behind a chain stand its own operators and those behind its operands. -/
theorem behind_chain (tier : Tier) :
    (Rule.chain tier).behind = tier.symbols :: tier.operand.behind := by
  cases tier <;> rfl

/-- Nothing goes on at the end. -/
theorem stops_nil (rule : Rule) : Stops rule [] := fun _ h => by cases h

/-- No operator goes on behind an atom. -/
theorem stops_atom (ts : List Token) : Stops .atom ts := fun _ _ _ h => by cases h

/-- No operator goes on behind a signed operand. -/
theorem stops_unary (ts : List Token) : Stops .unary ts := fun _ _ _ h => by cases h

/-- Only the first token counts. -/
theorem stops_cons {rule : Rule} {t : Token} {ts : List Token} :
    Stops rule (t :: ts) ↔ ∀ symbols ∈ rule.behind, Reader.isOperator symbols t = false := by
  simp [Stops]

/-- Nothing goes on with a token that is no operator. -/
theorem stops_of_kind_ne {rule : Rule} {t : Token} (h : t.kind ≠ .operator) (ts : List Token) :
    Stops rule (t :: ts) :=
  stops_cons.2 fun symbols _ => Reader.isOperator_of_kind_ne h symbols

/-- Where a chain does not go on, its operand does not. -/
theorem Stops.operand {tier : Tier} {ts : List Token} (h : Stops (.chain tier) ts) :
    Stops tier.operand ts := by
  intro t ht symbols hs
  refine h t ht symbols ?_
  rw [behind_chain]
  exact List.mem_cons_of_mem _ hs

/-- The token where nothing goes on is none of the operators. -/
theorem Stops.isOperator_eq_false {rule : Rule} {t : Token} {ts : List Token} {symbols : List Char}
    (h : Stops rule (t :: ts)) (hs : symbols ∈ rule.behind) : Reader.isOperator symbols t = false :=
  stops_cons.1 h symbols hs

/-- An operator of a tier is none that an operand of the tier goes on with. -/
theorem stops_operator {tier : Tier} {operator : Token} (h : operator.IsSign tier.symbols)
    (ts : List Token) : Stops tier.operand (operator :: ts) := by
  refine stops_cons.2 fun symbols hs => h.isOperator_eq_false ?_
  cases tier with
  | sum =>
    rcases List.mem_cons.1 hs with rfl | hs
    · simp [Tier.symbols]
    · obtain rfl := List.mem_singleton.1 hs
      simp [Tier.symbols]
  | term =>
    obtain rfl := List.mem_singleton.1 hs
    simp [Tier.symbols]

/-- Behind an operand of a chain stands an operator of the chain, or what stands behind it. -/
theorem Links.stops {tier : Tier} (links : Links tier) {rest : List Token}
    (h : Stops (.chain tier) rest) : Stops tier.operand (links.tokens ++ rest) := by
  cases links with
  | nil => exact h.operand
  | cons operator operand more isSign => exact stops_operator isSign _

/-- A derivation stops in front of an operator that its rule goes on with, or it does not. -/
theorem not_stops {rule : Rule} {operator : Token} {symbols : List Char} {ts : List Token}
    (isSign : operator.IsSign symbols) (hs : symbols ∈ rule.behind) :
    ¬Stops rule (operator :: ts) := by
  intro h
  have := h.isOperator_eq_false hs
  rw [isSign.isOperator] at this
  cases this

mutual

/-- **The beginning of a token list decides its derivation.** -/
theorem Derivation.eq_of_append :
    ∀ {rule : Rule} (d d' : Derivation rule) {rest rest' : List Token}, Stops rule rest →
      Stops rule rest' → d.tokens ++ rest = d'.tokens ++ rest' → d = d' ∧ rest = rest'
  | _, .number token value isNumber reads, d', rest, rest', _, _, h => by
      cases d' with
      | number token' value' isNumber' reads' =>
        obtain ⟨rfl, hr⟩ := List.cons.inj h
        obtain rfl : value = value' := Option.some.inj (reads.symm.trans reads')
        exact ⟨rfl, hr⟩
      | _ =>
        -- No other atom begins with a token of this kind.
        have hk := congrArg Token.kind (List.cons.inj h).1
        simp_all
  | _, .constant name isName known, d', rest, rest', _, _, h => by
      cases d' with
      | constant name' isName' known' =>
        obtain ⟨rfl, hr⟩ := List.cons.inj h
        exact ⟨rfl, hr⟩
      | call name' opening argument closing isName' known' =>
        obtain ⟨rfl, -⟩ := List.cons.inj h
        rw [Names.not_isConstant_of_isFunction known'] at known
        cases known
      | _ =>
        have hk := congrArg Token.kind (List.cons.inj h).1
        simp_all
  | _, .call name opening argument closing isName known opens closes, d', rest, rest', _, _, h => by
      cases d' with
      | constant name' isName' known' =>
        obtain ⟨rfl, -⟩ := List.cons.inj h
        rw [Names.not_isConstant_of_isFunction known] at known'
        cases known'
      | call name' opening' argument' closing' isName' known' opens' closes' =>
        obtain ⟨rfl, h₁⟩ := List.cons.inj h
        obtain ⟨rfl, h₂⟩ := List.cons.inj h₁
        obtain ⟨rfl, rfl, hr⟩ := argument.eq_of_append_closing argument' closes closes' h₂
        exact ⟨rfl, hr⟩
      | _ =>
        have hk := congrArg Token.kind (List.cons.inj h).1
        simp_all
  | _, .group opening inside closing opens closes, d', rest, rest', _, _, h => by
      cases d' with
      | group opening' inside' closing' opens' closes' =>
        obtain ⟨rfl, h₁⟩ := List.cons.inj h
        obtain ⟨rfl, rfl, hr⟩ := inside.eq_of_append_closing inside' closes closes' h₁
        exact ⟨rfl, hr⟩
      | _ =>
        have hk := congrArg Token.kind (List.cons.inj h).1
        simp_all
  | _, .atom d, d', rest, rest', _, _, h => by
      cases d' with
      | atom d' =>
        obtain ⟨rfl, hr⟩ := d.eq_of_append d' (stops_atom _) (stops_atom _) h
        exact ⟨rfl, hr⟩
      | minus sign operand isMinus =>
        obtain ⟨t, ts, ht, notOperator⟩ := d.tokens_atom
        rw [Derivation.tokens, ht] at h
        obtain ⟨rfl, -⟩ := List.cons.inj h
        exact absurd isMinus.1 notOperator
  | _, .minus sign operand isMinus, d', rest, rest', _, _, h => by
      cases d' with
      | atom d' =>
        obtain ⟨t, ts, ht, notOperator⟩ := d'.tokens_atom
        rw [Derivation.tokens, Derivation.tokens, ht] at h
        obtain ⟨rfl, -⟩ := List.cons.inj h
        exact absurd isMinus.1 notOperator
      | minus sign' operand' isMinus' =>
        obtain ⟨rfl, h₁⟩ := List.cons.inj h
        obtain ⟨rfl, hr⟩ := operand.eq_of_append operand' (stops_unary _) (stops_unary _) h₁
        exact ⟨rfl, hr⟩
  | _, .unary d, d', rest, rest', hs, _, h => by
      cases d' with
      | unary d' =>
        obtain ⟨rfl, hr⟩ := d.eq_of_append d' (stops_unary _) (stops_unary _) h
        exact ⟨rfl, hr⟩
      | raised base operator exponent isCaret =>
        simp only [Derivation.tokens, List.append_assoc, List.cons_append] at h
        obtain ⟨rfl, rfl⟩ := d.eq_of_append base (stops_unary _) (stops_unary _) h
        exact absurd hs (not_stops isCaret (by decide))
  | _, .raised base operator exponent isCaret, d', rest, rest', hs, hs', h => by
      cases d' with
      | unary d' =>
        simp only [Derivation.tokens, List.append_assoc, List.cons_append] at h
        obtain ⟨rfl, rfl⟩ := base.eq_of_append d' (stops_unary _) (stops_unary _) h
        exact absurd hs' (not_stops isCaret (by decide))
      | raised base' operator' exponent' isCaret' =>
        simp only [Derivation.tokens, List.append_assoc, List.cons_append] at h
        obtain ⟨rfl, h₁⟩ := base.eq_of_append base' (stops_unary _) (stops_unary _) h
        obtain ⟨rfl, h₂⟩ := List.cons.inj h₁
        obtain ⟨rfl, hr⟩ := exponent.eq_of_append exponent' hs hs' h₂
        exact ⟨rfl, hr⟩
  | _, .chain first links, d', rest, rest', hs, hs', h => by
      cases d' with
      | chain first' links' =>
        simp only [Derivation.tokens, List.append_assoc] at h
        obtain ⟨rfl, h₁⟩ := first.eq_of_append first' (links.stops hs) (links'.stops hs') h
        obtain ⟨rfl, hr⟩ := links.eq_of_append links' hs hs' h₁
        exact ⟨rfl, hr⟩

/-- The beginning of a token list decides a derivation in front of a closing parenthesis. -/
theorem Derivation.eq_of_append_closing {tier : Tier} (d d' : Derivation (.chain tier))
    {closing closing' : Token} {rest rest' : List Token} (closes : closing.kind = .closing)
    (closes' : closing'.kind = .closing)
    (h : d.tokens ++ [closing] ++ rest = d'.tokens ++ [closing'] ++ rest') :
    d = d' ∧ closing = closing' ∧ rest = rest' := by
  simp only [List.append_assoc, List.singleton_append] at h
  obtain ⟨hd, h₁⟩ := d.eq_of_append d' (stops_of_kind_ne (by rw [closes]; decide) _)
    (stops_of_kind_ne (by rw [closes']; decide) _) h
  exact ⟨hd, List.cons.inj h₁⟩

/-- The beginning of a token list decides the rest of a chain. -/
theorem Links.eq_of_append :
    ∀ {tier : Tier} (links links' : Links tier) {rest rest' : List Token},
      Stops (.chain tier) rest → Stops (.chain tier) rest' →
      links.tokens ++ rest = links'.tokens ++ rest' → links = links' ∧ rest = rest'
  | tier, .nil, links', rest, rest', hs, _, h => by
      cases links' with
      | nil => exact ⟨rfl, h⟩
      | cons operator operand more isSign =>
        simp only [Links.tokens, List.nil_append, List.cons_append] at h
        subst h
        exact absurd hs (not_stops isSign (by rw [behind_chain]; exact List.mem_cons_self))
  | tier, .cons operator operand more isSign, links', rest, rest', hs, hs', h => by
      cases links' with
      | nil =>
        simp only [Links.tokens, List.nil_append, List.cons_append] at h
        subst h
        exact absurd hs' (not_stops isSign (by rw [behind_chain]; exact List.mem_cons_self))
      | cons operator' operand' more' isSign' =>
        simp only [Links.tokens, List.append_assoc, List.cons_append] at h
        obtain ⟨rfl, h₁⟩ := List.cons.inj h
        obtain ⟨rfl, h₂⟩ := operand.eq_of_append operand' (more.stops hs) (more'.stops hs') h₁
        obtain ⟨rfl, hr⟩ := more.eq_of_append more' hs hs' h₂
        exact ⟨rfl, hr⟩

end

/-- **A token list has at most one derivation.** -/
theorem Derivation.eq_of_tokens {rule : Rule} {d d' : Derivation rule}
    (h : d.tokens = d'.tokens) : d = d' :=
  (d.eq_of_append d' (stops_nil rule) (stops_nil rule) (by rw [h])).1

end Grammar
end DeskCalculator
