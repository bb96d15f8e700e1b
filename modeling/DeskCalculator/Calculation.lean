/-
# Calculating

`evaluate` goes the whole way from a text to a number: sanitize, validate, scan, parse, evaluate. A
fault found on the way names the text that was asked for. An empty text has the value zero, and a
result that is not a finite number is a fault. `calculate` shows the number so that it can be
typed back in.
-/

import DeskCalculator.Expr.Evaluation
import DeskCalculator.Expr.Reader
import DeskCalculator.Log
import DeskCalculator.Token.Scan

namespace DeskCalculator

/-- The tokens of a raw text; no text is an empty one. -/
def tokensOf (text : Option CodeText) : Except Failure (List Token) := do
  let clean := sanitize (text.getD "")
  validate clean
  Token.scan clean

/-- The final result: the value of the tree, which has to be finite; without a tree, zero. -/
def valueOf : Option Expr → Except Failure Binary64
  | none => .ok (.zero false)
  | some e =>
    match e.value with
    | .error misuse => .error (.misuse misuse)
    | .ok x => if x.isFinite then .ok x else (Fault.notFinite x).raise

/-- A finite number as the display shows it. -/
def format : Binary64 → Except Failure String
  | .finite negative m => .ok (Binary64.plain negative m)
  | x => (Fault.notFinite x).raise

/-- The value of a text. -/
def evaluate (text : Option CodeText) : Except Failure Binary64 :=
  let outcome : Except Failure Binary64 := do
    let tree ← parse (← tokensOf text)
    valueOf (tree.map Graded.tree)
  outcome.mapError (.withEquation text)

/-- The text that the display shows for a text. -/
def calculate (text : Option CodeText) : Except Failure String := do
  format (← evaluate text)

/-- What the log says about the steps of an evaluation, as far as it gets. -/
def trace (text : Option CodeText) : List Log.Record :=
  match tokensOf text with
  | .error _ => []
  | .ok tokens =>
    let shown := ", ".intercalate (tokens.map Token.shown)
    ⟨.debug, "Tokens: [" ++ shown ++ "]"⟩ ::
      match parse tokens with
      | .error _ => []
      | .ok tree =>
        let depth := (tree.map Graded.depth).getD 0
        [⟨.debug, "Final AST: depth " ++ toString depth⟩]

end DeskCalculator
