/-
# Reading with a count of what is open

The parser has a level of readers for each level of nesting, and what is nested too deeply comes to
a level without room.  So the nesting shows nowhere, and a tree that is too deep is refused with the
same fault as a text that nests too deeply.

Here the readers go on with a gauge that goes up where something nested begins and down where it
ends: the inside of parentheses with the closing one, the operand of a minus sign, an exponent.
What takes the gauge beyond the limit stops at once, in front of the first token that is nested, and
the two limits are told apart (`Stop`).
-/

import DeskCalculator.Expr.Reader
import DeskCalculator.Proofs.Gauge

namespace DeskCalculator

open Reader

/-- Why reading stops. -/
inductive Stop where
  /-- More is open at once than may nest. -/
  | nesting
  /-- A tree is too deep. -/
  | depth
  | other (failure : Failure)
  deriving DecidableEq

/-- What a stop is reported as. -/
def Stop.failure : Stop → Failure
  | .nesting | .depth => .fault .tooDeep none
  | .other failure => failure

/-- Reading with a gauge, which is left in some position also when the reading stops. -/
abbrev Counting := ExceptT Stop (StateM Gauge)

namespace Counting

/-- Something nested begins, if there is room for it. -/
def enter : Counting Unit := do
  modify Gauge.enter
  if maxNesting < (← get).running then throw .nesting

/-- Something nested ends. -/
def leave : Counting Unit := modify Gauge.leave

/-- Something nested; what stops in it does not leave. -/
def nested {α : Type} (body : Counting α) : Counting α := do
  enter
  let a ← body
  leave
  return a

/-- Refuses a tree that is too deep. -/
def checked (g : Graded) : Counting Graded :=
  if maxDepth < g.depth then throw .depth else return g

/-- What has nothing nested in it and builds no tree. -/
def uncounted {α : Type} (x : Except Failure α) : Counting α := liftM (x.mapError Stop.other)

/-- Reads a tree off the front of a token list and leaves the rest. -/
abbrev Reader := List Token → Counting (Graded × List Token)

/-- A reader behind a binary operator: something has to follow it. -/
def behind (operator : Token) (r : Reader) : Reader
  | [] => uncounted (Fault.missingOperand operator.text operator.position).raise
  | ts => r ts

/-- The rest of a chain of operators that group from the left, behind the tree `front`, in as many
rounds as there can be operators. -/
def links (accepts : Token → Bool) (operand : Reader) : Nat → Graded → Reader
  | rounds + 1, front, t :: rest =>
    if accepts t then do
      let (right, rest) ← behind t operand rest
      let front ← checked (.binary t.text front right)
      links accepts operand rounds front rest
    else return (front, t :: rest)
  | _, front, ts => return (front, ts)

/-- A chain of operands between operators that group from the left. -/
def chain (accepts : Token → Bool) (operand : Reader) : Reader := fun ts => do
  let (first, rest) ← operand ts
  links accepts operand rest.length first rest

/-- The inside of a pair of parentheses, behind the opening one, and the closing one. -/
def parenthesized (unclosed : Fault) (inside : Reader) : Reader := fun ts => nested do
  let (tree, rest) ← inside ts
  let rest ← uncounted (close unclosed rest)
  return (tree, rest)

/-- Puts a node on top of what a reader reads. -/
def wrap (node : Graded → Graded) (r : Reader) : Reader := fun ts => do
  let (tree, rest) ← r ts
  let tree ← checked (node tree)
  return (tree, rest)

/-- The readers of the rules that can be nested in something. -/
structure Level where
  sum : Reader
  power : Reader
  unary : Reader

/-- A name, with the tokens behind it: a function has to be called, a constant cannot be. -/
def named (deeper : Level) (name : String) : Reader
  | t :: rest =>
    if t.kind = .opening then
      if Names.isFunction name then
        wrap (.call name) (parenthesized (.unclosedCall name) deeper.sum) rest
      else if Names.isConstant name then uncounted (Fault.constantCalled name).raise
      else uncounted (Fault.unknownName name).raise
    else uncounted (named.uncalled name (t :: rest))
  | [] => uncounted (named.uncalled name [])

/-- A number, a name, or a pair of parentheses. -/
def factor (deeper : Level) : Reader
  | [] => uncounted Fault.missingNumber.raise
  | t :: rest =>
    match t.kind with
    | .number =>
      match Binary64.ofText? t.text with
      | some x => return (.literal x, rest)
      | none => uncounted (.error (.misuse (.unreadableNumber t.text)))
    | .opening => parenthesized (.unclosedGroup t.position) deeper.sum rest
    | .identifier => named deeper t.text rest
    | _ => uncounted (Fault.unexpectedToken t.text t.position).raise

/-- Minus signs in front of a factor. -/
def unary (deeper : Level) : Reader
  | [] => factor deeper []
  | t :: rest =>
    if isOperator ['-'] t then wrap .negation (fun ts => nested (deeper.unary ts)) rest
    else factor deeper (t :: rest)

/-- The exponent behind a base, if there is one. -/
def exponent (deeper : Level) (base : Graded) : Reader
  | [] => return (base, [])
  | t :: rest =>
    if isOperator ['^'] t then
      wrap (.binary t.text base) (behind t fun ts => nested (deeper.power ts)) rest
    else return (base, t :: rest)

/-- A base with an exponent or without. -/
def power (deeper : Level) : Reader := fun ts => do
  let (base, rest) ← unary deeper ts
  exponent deeper base rest

/-- Products, quotients and remainders of powers. -/
def term (deeper : Level) : Reader := chain (isOperator ['*', '/', '%']) (power deeper)

/-- Sums and differences of terms. -/
def sum (deeper : Level) : Reader := chain (isOperator ['+', '-']) (term deeper)

/-- The level with room for `n - 1` more levels inside it, and one that is never come to. -/
def level : Nat → Level
  | 0 => ⟨fun _ => throw .nesting, fun _ => throw .nesting, fun _ => throw .nesting⟩
  | n + 1 => ⟨sum (level n), power (level n), unary (level n)⟩

/-- The tree of a token list, or none for an empty one. -/
def parse : List Token → Counting (Option Graded)
  | [] => return none
  | ts => do
    match ← (level (maxNesting + 1)).sum ts with
    | (tree, []) => return some tree
    | (_, t :: _) => uncounted (Fault.trailingInput t.text t.position).raise

end Counting
end DeskCalculator
