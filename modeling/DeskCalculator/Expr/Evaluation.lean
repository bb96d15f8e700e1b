/-
# The value of a tree

A chain of operators that group from the left is evaluated in a loop: its bottom first, then, going
up, each right operand followed by its operator. So a chain of any length needs no nesting. The
name of a function is looked up before its argument is evaluated, an operator only once both
operands have their values; the first of these that fails decides the outcome.
-/

import DeskCalculator.Expr.Basic
import DeskCalculator.Fault
import DeskCalculator.Names

namespace DeskCalculator
namespace Expr

/-- The value of a constant. -/
def constantValue (name : String) : Except Misuse Binary64 :=
  match Names.constant? name with
  | some x => .ok x
  | none => .error (.unknownConstant name)

/-- The function of a name. -/
def functionOf (name : String) : Except Misuse (Binary64 → Except Trap Binary64) :=
  match Names.function? name with
  | some f => .ok f
  | none => .error (.unknownFunction name)

/-- What an operator does to two values. -/
def apply (operator : String) (left right : Binary64) : Except Misuse Binary64 :=
  match operator with
  | "+" => .ok (left + right)
  | "-" => .ok (left - right)
  | "*" => .ok (left * right)
  | "/" => (Guarded.div left right).mapError .trapped
  | "^" => (Guarded.pow left right).mapError .trapped
  | "%" => (Guarded.rem left right).mapError .trapped
  | _ => .error (.unknownOperator operator)

/-- An operator that waits for the value of its left operand, with the evaluation of its right
one. -/
structure Pending where
  operator : String
  right : Unit → Except Misuse Binary64

/-- Goes up a chain from the value of its bottom. -/
def ascend (value : Binary64) : List Pending → Except Misuse Binary64
  | [] => .ok value
  | step :: above => do
    let right ← step.right ()
    let value ← apply step.operator value right
    ascend value above

/-- Goes down a chain to its bottom, which is evaluated, and up again; `above` is the part of the
chain that is already behind. -/
def descend : Expr → List Pending → Except Misuse Binary64
  | .binary operator left right, above =>
    if groupsLeft operator then descend left (⟨operator, fun _ => descend right []⟩ :: above)
    else do
      let x ← descend left []
      let y ← descend right []
      ascend (← apply operator x y) above
  | .literal value, above => ascend value above
  | .constant name, above => do ascend (← constantValue name) above
  | .negation operand, above => do ascend (-(← descend operand [])) above
  | .call function argument, above => do
    let f ← functionOf function
    let x ← descend argument []
    ascend (← (f x).mapError .trapped) above

/-- The value of a tree. -/
def value (e : Expr) : Except Misuse Binary64 := descend e []

end Expr
end DeskCalculator
