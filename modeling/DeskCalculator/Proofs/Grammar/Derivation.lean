/-
# The grammar of expressions

Derivations of the grammar, apart from any way of finding them:

| rule | |
| --- | --- |
| `chain .sum` | `chain .term (('+' or '-') chain .term)*` |
| `chain .term` | `power (('*' or '/' or '%') power)*` |
| `power` | `unary ('^' power)?` |
| `unary` | `'-' unary` or `atom` |
| `atom` | number, constant, function `'(' chain .sum ')'`, or `'(' chain .sum ')'` |

The two chains are one rule with a *tier* for its parameter.  A derivation has the tokens that it
derives, the tree that it stands for, and a nesting: how many parentheses, calls, minus signs and
exponents are open at once.  Nothing here limits the nesting or the depth of the tree.

No rule puts an opening parenthesis behind a constant, so a constant that is called has no
derivation; and a name that is neither a constant nor a function has none.
-/

import DeskCalculator.Decimal.Reader
import DeskCalculator.Expr.Basic
import DeskCalculator.Names
import DeskCalculator.Proofs.Token.WellFormed

namespace DeskCalculator
namespace Grammar

/-- The operators that group from the left, by how tight they bind. -/
inductive Tier where
  | sum
  | term

/-- What can be derived. -/
inductive Rule where
  | atom
  | unary
  | power
  | chain (tier : Tier)

/-- The operands of a tier. -/
def Tier.operand : Tier → Rule
  | .sum => .chain .term
  | .term => .power

/-- The operators of a tier. -/
def Tier.symbols : Tier → List Char
  | .sum => ['+', '-']
  | .term => ['*', '/', '%']

mutual

/-- A derivation from a rule. -/
inductive Derivation : Rule → Type where
  | number (token : Token) (value : Binary64) (isNumber : token.kind = .number)
      (reads : Binary64.ofText? token.text = some value) : Derivation .atom
  | constant (name : Token) (isName : name.kind = .identifier)
      (known : Names.isConstant name.text = true) : Derivation .atom
  | call (name opening : Token) (argument : Derivation (.chain .sum)) (closing : Token)
      (isName : name.kind = .identifier) (known : Names.isFunction name.text = true)
      (opens : opening.kind = .opening) (closes : closing.kind = .closing) : Derivation .atom
  | group (opening : Token) (inside : Derivation (.chain .sum)) (closing : Token)
      (opens : opening.kind = .opening) (closes : closing.kind = .closing) : Derivation .atom
  | atom (d : Derivation .atom) : Derivation .unary
  | minus (sign : Token) (operand : Derivation .unary) (isMinus : sign.IsSign ['-']) :
      Derivation .unary
  | unary (d : Derivation .unary) : Derivation .power
  | raised (base : Derivation .unary) (operator : Token) (exponent : Derivation .power)
      (isCaret : operator.IsSign ['^']) : Derivation .power
  | chain {tier : Tier} (first : Derivation tier.operand) (links : Links tier) :
      Derivation (.chain tier)

/-- The rest of a chain: operators, each with the operand behind it. -/
inductive Links : Tier → Type where
  | nil {tier : Tier} : Links tier
  | cons {tier : Tier} (operator : Token) (operand : Derivation tier.operand) (more : Links tier)
      (isSign : operator.IsSign tier.symbols) : Links tier

end

mutual

/-- The tokens that a derivation derives. -/
def Derivation.tokens : {rule : Rule} → Derivation rule → List Token
  | _, .number token _ _ _ => [token]
  | _, .constant name _ _ => [name]
  | _, .call name opening argument closing _ _ _ _ =>
    name :: opening :: (argument.tokens ++ [closing])
  | _, .group opening inside closing _ _ => opening :: (inside.tokens ++ [closing])
  | _, .atom d => d.tokens
  | _, .minus sign operand _ => sign :: operand.tokens
  | _, .unary d => d.tokens
  | _, .raised base operator exponent _ => base.tokens ++ operator :: exponent.tokens
  | _, .chain first links => first.tokens ++ links.tokens

/-- The tokens of the rest of a chain. -/
def Links.tokens : {tier : Tier} → Links tier → List Token
  | _, .nil => []
  | _, .cons operator operand more _ => operator :: (operand.tokens ++ more.tokens)

end

mutual

/-- The tree that a derivation stands for.  Parentheses leave no node. -/
def Derivation.tree : {rule : Rule} → Derivation rule → Expr
  | _, .number _ value _ _ => .literal value
  | _, .constant name _ _ => .constant name.text
  | _, .call name _ argument _ _ _ _ _ => .call name.text argument.tree
  | _, .group _ inside _ _ _ => inside.tree
  | _, .atom d => d.tree
  | _, .minus _ operand _ => .negation operand.tree
  | _, .unary d => d.tree
  | _, .raised base operator exponent _ => .binary operator.text base.tree exponent.tree
  | _, .chain first links => links.onto first.tree

/-- The tree of a chain whose front stands for a tree already: a chain groups from the left. -/
def Links.onto : {tier : Tier} → Links tier → Expr → Expr
  | _, .nil, front => front
  | _, .cons operator operand more _, front =>
    more.onto (.binary operator.text front operand.tree)

end

mutual

/-- How many parentheses, calls, minus signs and exponents are open at once. -/
def Derivation.nest : {rule : Rule} → Derivation rule → Nat
  | _, .number _ _ _ _ => 0
  | _, .constant _ _ _ => 0
  | _, .call _ _ argument _ _ _ _ _ => 1 + argument.nest
  | _, .group _ inside _ _ _ => 1 + inside.nest
  | _, .atom d => d.nest
  | _, .minus _ operand _ => 1 + operand.nest
  | _, .unary d => d.nest
  | _, .raised base _ exponent _ => max base.nest (1 + exponent.nest)
  | _, .chain first links => max first.nest links.nest

/-- The nesting of the rest of a chain. -/
def Links.nest : {tier : Tier} → Links tier → Nat
  | _, .nil => 0
  | _, .cons _ operand more _ => max operand.nest more.nest

end

/-- A derivation of an atom begins with a token that is no operator. -/
theorem Derivation.tokens_atom :
    ∀ d : Derivation .atom, ∃ t ts, d.tokens = t :: ts ∧ t.kind ≠ .operator
  | .number token _ isNumber _ => ⟨token, [], rfl, by rw [isNumber]; decide⟩
  | .constant name isName _ => ⟨name, [], rfl, by rw [isName]; decide⟩
  | .call name _ _ _ isName _ _ _ => ⟨name, _, rfl, by rw [isName]; decide⟩
  | .group opening _ _ opens _ => ⟨opening, _, rfl, by rw [opens]; decide⟩

/-- Every derivation derives a token. -/
theorem Derivation.tokens_ne_nil : ∀ {rule : Rule} (d : Derivation rule), d.tokens ≠ []
  | _, .number _ _ _ _ => List.cons_ne_nil _ _
  | _, .constant _ _ _ => List.cons_ne_nil _ _
  | _, .call _ _ _ _ _ _ _ _ => List.cons_ne_nil _ _
  | _, .group _ _ _ _ _ => List.cons_ne_nil _ _
  | _, .atom d => d.tokens_ne_nil
  | _, .minus _ _ _ => List.cons_ne_nil _ _
  | _, .unary d => d.tokens_ne_nil
  | _, .raised base _ _ _ => List.append_ne_nil_of_left_ne_nil base.tokens_ne_nil _
  | _, .chain first _ => List.append_ne_nil_of_left_ne_nil first.tokens_ne_nil _

end Grammar
end DeskCalculator
