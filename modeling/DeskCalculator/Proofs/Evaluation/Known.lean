/-
# Known trees have values

A tree put together by hand may hold a name or an operator that does not exist, and has no value
then.  A tree that the parser makes holds none (`Derivation.isKnown`), and a tree that holds none
has a value (`exists_value`): the tables have every name in it, every operator is one of the six,
and no operation traps.

The value of a chain is found by going down to its bottom with a list of operators that wait, so
what is proved by induction on the tree is about both: if all that waits goes on, the tree has a
value in front of it.
-/

import DeskCalculator.Expr.Evaluation
import DeskCalculator.Proofs.Binary64.Total
import DeskCalculator.Proofs.Except
import DeskCalculator.Proofs.Grammar.Derivation

namespace DeskCalculator

/-- The text of one of the six operators. -/
def Expr.IsOperator (operator : String) : Prop :=
  ∃ c ∈ Token.operators, operator = String.singleton c

/-- A tree whose names and operators are all known. -/
def Expr.IsKnown : Expr → Prop
  | .literal _ => True
  | .constant name => Names.isConstant name = true
  | .negation operand => operand.IsKnown
  | .binary operator left right => IsOperator operator ∧ left.IsKnown ∧ right.IsKnown
  | .call function argument => Names.isFunction function = true ∧ argument.IsKnown

namespace Grammar

/-- The signs of both tiers are operators. -/
theorem Tier.symbols_subset (tier : Tier) : tier.symbols ⊆ Token.operators := by
  cases tier <;> decide

/-- The text of a sign is that of an operator. -/
theorem isOperator_of_isSign {t : Token} {symbols : List Char} (h : t.IsSign symbols)
    (known : symbols ⊆ Token.operators) : Expr.IsOperator t.text := by
  obtain ⟨-, c, hc, ht⟩ := h
  exact ⟨c, known hc, ht⟩

mutual

/-- **The tree of a derivation is known.** -/
theorem Derivation.isKnown : ∀ {rule : Rule} (d : Derivation rule), d.tree.IsKnown
  | _, .number _ _ _ _ => trivial
  | _, .constant _ _ known => known
  | _, .call _ _ argument _ _ known _ _ => ⟨known, argument.isKnown⟩
  | _, .group _ inside _ _ _ => inside.isKnown
  | _, .atom d => d.isKnown
  | _, .minus _ operand _ => operand.isKnown
  | _, .unary d => d.isKnown
  | _, .raised base _ exponent isCaret =>
    ⟨isOperator_of_isSign isCaret (by decide), base.isKnown, exponent.isKnown⟩
  | _, .chain first links => links.isKnown_onto first.isKnown

/-- A chain in front of which everything is known is known. -/
theorem Links.isKnown_onto : ∀ {tier : Tier} (links : Links tier) {front : Expr},
    front.IsKnown → (links.onto front).IsKnown
  | _, .nil, _, h => h
  | tier, .cons _ operand more isSign, _, h =>
    more.isKnown_onto ⟨isOperator_of_isSign isSign tier.symbols_subset, h, operand.isKnown⟩

end

end Grammar

namespace Expr

/-- An operator has a result for any two values. -/
theorem exists_apply {operator : String} (h : IsOperator operator) (x y : Binary64) :
    ∃ z, apply operator x y = .ok z := by
  obtain ⟨c, hc, rfl⟩ := h
  simp only [Token.operators, List.mem_cons, List.not_mem_nil, or_false] at hc
  rcases hc with rfl | rfl | rfl | rfl | rfl | rfl
  · exact ⟨x + y, rfl⟩
  · exact ⟨x - y, rfl⟩
  · exact ⟨x * y, rfl⟩
  · obtain ⟨z, hz⟩ := Guarded.exists_div x y
    exact ⟨z, congrArg (Except.mapError Misuse.trapped) hz⟩
  · obtain ⟨z, hz⟩ := Guarded.exists_pow x y
    exact ⟨z, congrArg (Except.mapError Misuse.trapped) hz⟩
  · obtain ⟨z, hz⟩ := Guarded.exists_rem x y
    exact ⟨z, congrArg (Except.mapError Misuse.trapped) hz⟩

/-- A waiting operator that can go on: it is one of the six, and its right operand has a value. -/
def Pending.GoesOn (step : Pending) : Prop :=
  IsOperator step.operator ∧ ∃ y, step.right () = .ok y

/-- Going up a chain arrives at its top. -/
theorem exists_ascend : ∀ {above : List Pending} (_ : ∀ step ∈ above, step.GoesOn) (x : Binary64),
    ∃ z, ascend x above = .ok z
  | [], _, x => ⟨x, rfl⟩
  | step :: above, h, x => by
      obtain ⟨known, y, hy⟩ := h step List.mem_cons_self
      obtain ⟨v, hv⟩ := exists_apply known x y
      obtain ⟨z, hz⟩ := exists_ascend (fun s hs => h s (List.mem_cons_of_mem _ hs)) v
      exact ⟨z, bind_eq_ok.2 ⟨y, hy, bind_eq_ok.2 ⟨v, hv, hz⟩⟩⟩

/-- Going down a known tree and up what waits above it arrives at a value. -/
theorem exists_descend : ∀ {e : Expr} {above : List Pending}, e.IsKnown →
    (∀ step ∈ above, step.GoesOn) → ∃ z, descend e above = .ok z
  | .literal value, above, _, h => exists_ascend h value
  | .constant name, above, known, h => by
      obtain ⟨x, hx⟩ := Option.isSome_iff_exists.1 known
      rw [descend, constantValue, hx]
      exact exists_ascend h x
  | .negation operand, above, known, h => by
      obtain ⟨x, hx⟩ : ∃ x, descend operand [] = .ok x :=
        exists_descend known (List.forall_mem_nil _)
      obtain ⟨z, hz⟩ := exists_ascend h (-x)
      rw [descend]
      exact ⟨z, bind_eq_ok.2 ⟨x, hx, hz⟩⟩
  | .binary operator left right, above, ⟨isOperator, knownLeft, knownRight⟩, h => by
      obtain ⟨y, hy⟩ : ∃ y, descend right [] = .ok y :=
        exists_descend knownRight (List.forall_mem_nil _)
      rw [descend]
      split
      · -- The left side of a chain is gone down with the operator waiting.
        refine exists_descend knownLeft ?_
        intro step hstep
        rcases List.mem_cons.1 hstep with rfl | hstep
        · exact ⟨isOperator, y, hy⟩
        · exact h step hstep
      · obtain ⟨x, hx⟩ : ∃ x, descend left [] = .ok x :=
          exists_descend knownLeft (List.forall_mem_nil _)
        obtain ⟨v, hv⟩ := exists_apply isOperator x y
        obtain ⟨z, hz⟩ := exists_ascend h v
        exact ⟨z, bind_eq_ok.2 ⟨x, hx, bind_eq_ok.2 ⟨y, hy, bind_eq_ok.2 ⟨v, hv, hz⟩⟩⟩⟩
  | .call function argument, above, ⟨knownFunction, known⟩, h => by
      obtain ⟨f, hf⟩ := Option.isSome_iff_exists.1 knownFunction
      obtain ⟨x, hx⟩ : ∃ x, descend argument [] = .ok x :=
        exists_descend known (List.forall_mem_nil _)
      obtain ⟨v, hv⟩ := Names.exists_of_function? hf x
      obtain ⟨z, hz⟩ := exists_ascend h v
      have applied : (f x).mapError Misuse.trapped = .ok v := by
        rw [hv]
        rfl
      rw [descend, functionOf, hf]
      exact ⟨z, bind_eq_ok.2 ⟨f, rfl, bind_eq_ok.2 ⟨x, hx, bind_eq_ok.2 ⟨v, applied, hz⟩⟩⟩⟩

/-- **A known tree has a value.** -/
theorem exists_value {e : Expr} (h : e.IsKnown) : ∃ x, e.value = .ok x :=
  exists_descend h (List.forall_mem_nil _)

end Expr
end DeskCalculator
