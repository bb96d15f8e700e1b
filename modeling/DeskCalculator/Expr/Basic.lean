/-
# Expression trees

Names and operators are texts, so that a tree put together by hand may hold unknown ones; they
fail when they are evaluated.

The *depth* of a tree counts what an evaluation has to do inside something else. Operators that
group from the left form chains like `1 + 2 - 3 * 4`, which hang off the left side of the tree and
are worked through from the bottom up without nesting: along such a chain only its bottom and its
right operands count.
-/

import DeskCalculator.Decimal.Notation
import DeskCalculator.Text.Quoted
import DeskCalculator.Text.Within

namespace DeskCalculator

/-- An expression. -/
inductive Expr where
  | literal (value : Binary64)
  | constant (name : String)
  | negation (operand : Expr)
  | binary (operator : String) (left right : Expr)
  | call (function : String) (argument : Expr)
  deriving DecidableEq

namespace Expr

/-- Operators whose chains group from the left: the texts that stand in `+-*/%`. -/
def groupsLeft (operator : String) : Bool :=
  Text.occursIn operator.toList ['+', '-', '*', '/', '%']

/-- A chain of operators that group from the left. -/
def isChain : Expr → Bool
  | .binary operator _ _ => groupsLeft operator
  | _ => false

/-- How many evaluations are nested in each other when the tree is evaluated. -/
def depth : Expr → Nat
  | .literal _ | .constant _ => 1
  | .negation operand => operand.depth + 1
  | .binary operator left right =>
    if groupsLeft operator && left.isChain then max left.depth (right.depth + 1)
    else max left.depth right.depth + 1
  | .call _ argument => argument.depth + 1

/-- A tree as text. -/
def shown : Expr → String
  | .literal value => "Literal(" ++ value.literal ++ ")"
  | .constant name => "Constant(" ++ Text.quoted name ++ ")"
  | .negation operand => "UnaryMinus(" ++ operand.shown ++ ")"
  | .binary operator left right =>
    "BinOp(" ++ Text.quoted operator ++ ", left=" ++ left.shown ++ ", right=" ++ right.shown ++ ")"
  | .call function argument => "Call(" ++ Text.quoted function ++ ", " ++ argument.shown ++ ")"

end Expr

/-- A tree whose depth is known. -/
structure Graded where
  tree : Expr
  depth : Nat
  depth_eq : tree.depth = depth

namespace Graded

/-- A number. -/
def literal (value : Binary64) : Graded := ⟨.literal value, 1, rfl⟩

/-- A named constant. -/
def constant (name : String) : Graded := ⟨.constant name, 1, rfl⟩

/-- A negation. -/
def negation (operand : Graded) : Graded :=
  ⟨.negation operand.tree, operand.depth + 1, by rw [Expr.depth, operand.depth_eq]⟩

/-- A binary operation. -/
def binary (operator : String) (left right : Graded) : Graded where
  tree := .binary operator left.tree right.tree
  depth :=
    if Expr.groupsLeft operator && left.tree.isChain then max left.depth (right.depth + 1)
    else max left.depth right.depth + 1
  depth_eq := by rw [Expr.depth, left.depth_eq, right.depth_eq]

/-- A call. -/
def call (function : String) (argument : Graded) : Graded :=
  ⟨.call function argument.tree, argument.depth + 1, by rw [Expr.depth, argument.depth_eq]⟩

/-- A tree with its depth counted. -/
def ofTree (tree : Expr) : Graded := ⟨tree, tree.depth, rfl⟩

end Graded
end DeskCalculator
