/-
# Evaluation as plain recursion

A chain of operators that group from the left is evaluated in a loop, which goes down to the bottom
of the chain and up again, so that a long chain needs no nesting.  What a tree means is simpler: the
value of a node is what its operation makes of the values of its operands, the left one evaluated
before the right one and both before the operator is looked at (`inPostOrder`).  The two have the
same outcome for every tree, also for one whose names and operators do not exist, where the first
misuse in post-order decides it (`value_eq_inPostOrder`).

Where a chain ends does not matter for this, and neither does which operators are in it.  Going down
from a node with operators waiting above it is the same as having the value of the node and going up
with it (`descend_eq_bind`), and that is proved node by node.
-/

import DeskCalculator.Expr.Evaluation
import DeskCalculator.Proofs.Except

namespace DeskCalculator
namespace Expr

/-- The value of a tree by plain recursion: the operands from the left to the right, then the
operation.  Only the function of a call is looked up before its argument is evaluated. -/
def inPostOrder : Expr → Except Misuse Binary64
  | .literal value => .ok value
  | .constant name => constantValue name
  | .negation operand => do return -(← operand.inPostOrder)
  | .binary operator left right => do
    let x ← left.inPostOrder
    let y ← right.inPostOrder
    apply operator x y
  | .call function argument => do
    let f ← functionOf function
    let x ← argument.inPostOrder
    (f x).mapError .trapped

/-- Going up a chain that has been gone up already changes nothing. -/
theorem bind_ascend_nil (x : Except Misuse Binary64) : (x >>= fun v => ascend v []) = x := by
  cases x <;> rfl

/-- **Going down from a node and up again is having its value and going up with it.** -/
theorem descend_eq_bind : ∀ (e : Expr) (above : List Pending),
    descend e above = e.inPostOrder >>= fun x => ascend x above
  | .literal _, _ => rfl
  | .constant _, _ => rfl
  | .negation operand, above => by
      rw [descend, descend_eq_bind operand [], bind_ascend_nil, inPostOrder, bind_assoc]
      rfl
  | .binary operator left right, above => by
      have atRight : descend right [] = right.inPostOrder := by
        rw [descend_eq_bind right [], bind_ascend_nil]
      rw [descend, inPostOrder, bind_assoc]
      split
      · -- On the way down the operator waits; on the way up the right operand comes first.
        rw [descend_eq_bind left _]
        refine congrArg (left.inPostOrder >>= ·) (funext fun x => ?_)
        rw [ascend, bind_assoc, atRight]
      · rw [descend_eq_bind left [], bind_ascend_nil, atRight]
        refine congrArg (left.inPostOrder >>= ·) (funext fun x => ?_)
        rw [bind_assoc]
  | .call function argument, above => by
      rw [descend, descend_eq_bind argument [], bind_ascend_nil, inPostOrder, bind_assoc]
      refine congrArg (functionOf function >>= ·) (funext fun f => ?_)
      rw [bind_assoc]

/-- **A tree has the outcome of plain recursion in post-order**: the same number, or the same first
misuse, whatever operators and names it is made of. -/
theorem value_eq_inPostOrder (e : Expr) : e.value = e.inPostOrder := by
  rw [value, descend_eq_bind, bind_ascend_nil]

/-- The operator `*/` does not exist, but counts as one that groups from the left, so the loop comes
to the power below it first, and there the missing constant. -/
example : value (.binary "*/" (.binary "^" (.literal .one) (.constant "tau"))
    (.call "sinh" (.literal .one))) = .error (.unknownConstant "tau") := by
  decide +kernel

end Expr
end DeskCalculator
