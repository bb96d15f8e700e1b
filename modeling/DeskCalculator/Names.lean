/-
# Names

The functions and constants that an expression can name. Both tables are fixed; names are told
apart by case.
-/

import DeskCalculator.Binary64.Guarded

namespace DeskCalculator
namespace Names

/-- The function of a name. -/
def function? : String → Option (Binary64 → Except Trap Binary64)
  | "sin" => some (Guarded.circular Trapping.sin)
  | "cos" => some (Guarded.circular Trapping.cos)
  | "tan" => some (Guarded.circular Trapping.tan)
  | "sqrt" => some Guarded.sqrt
  | "log" => some (Guarded.logarithm Trapping.log10)
  | "ln" => some (Guarded.logarithm Trapping.ln)
  | _ => none

/-- The constant of a name. -/
def constant? : String → Option Binary64
  | "pi" => some .pi
  | "e" => some .euler
  | _ => none

/-- Whether a name is that of a function. -/
def isFunction (name : String) : Bool := (function? name).isSome

/-- Whether a name is that of a constant. -/
def isConstant (name : String) : Bool := (constant? name).isSome

/-- No name is both. -/
theorem not_isConstant_of_isFunction {name : String} (h : isFunction name = true) :
    isConstant name = false := by
  unfold isFunction function? at h
  split at h <;> first | rfl | simp at h

end Names
end DeskCalculator
