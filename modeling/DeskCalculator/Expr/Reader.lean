/-
# From tokens to a tree

Recursive descent through the grammar

| rule | | groups from |
| --- | --- | --- |
| `sum` | `term (('+' or '-') term)*` | the left |
| `term` | `power (('*' or '/' or '%') power)*` | the left |
| `power` | `unary ('^' power)?` | the right |
| `unary` | `'-' unary` or `factor` | |
| `factor` | number, constant, function `'(' sum ')'`, `'(' sum ')'` | |

Parentheses, calls, unary minus and exponents nest, and may nest 100 deep. The rules of a *level*
call those of the next deeper level wherever something nests, so a level is made from the deeper
one and the levels are counted down to one that has no room for anything. Within a level only the
two chains are loops; they end because a reader that succeeds leaves fewer tokens than it was given.
-/

import DeskCalculator.Decimal.Reader
import DeskCalculator.Expr.Basic
import DeskCalculator.Fault
import DeskCalculator.Names
import DeskCalculator.Token.Basic

namespace DeskCalculator

/-- Reads a tree off the front of a token list and leaves the rest, which is shorter. -/
structure Reader where
  read : List Token → Except Failure (Graded × List Token)
  shorter : ∀ {ts t rest}, read ts = .ok (t, rest) → rest.length < ts.length

namespace Reader

/-- How deep parentheses, calls, unary minus and exponents may nest. -/
def maxNesting : Nat := 100

/-- How deep a tree may be. -/
def maxDepth : Nat := 400

/-- Refuses a tree that is too deep. -/
def checked (g : Graded) : Except Failure Graded :=
  if maxDepth < g.depth then Fault.tooDeep.raise else .ok g

/-- Whether a token is one of some operators: its text stands among them. -/
def isOperator (symbols : List Char) (t : Token) : Bool :=
  t.kind == .operator && Text.occursIn t.text.toList symbols

/-- A reader that has no room to read anything. -/
def exhausted : Reader where
  read _ := Fault.tooDeep.raise
  shorter h := by cases h

/-- A reader behind a binary operator: something has to follow it. -/
def behind (operator : Token) (r : Reader) : Reader where
  read
    | [] => (Fault.missingOperand operator.text operator.position).raise
    | ts => r.read ts
  shorter {ts t rest} h := by
    cases ts with
    | nil => cases h
    | cons => exact r.shorter h

/-- The rest of a chain of operators that group from the left, behind the tree `chain`. -/
def links (accepts : Token → Bool) (operand : Reader) (chain : Graded) :
    List Token → Except Failure (Graded × List Token)
  | [] => .ok (chain, [])
  | t :: rest =>
    if accepts t then
      match _h : (operand.behind t).read rest with
      | .error failure => .error failure
      | .ok (right, rest') =>
        match checked (.binary t.text chain right) with
        | .error failure => .error failure
        | .ok chain => links accepts operand chain rest'
    else .ok (chain, t :: rest)
  termination_by ts => ts.length
  decreasing_by
    have := (operand.behind t).shorter _h
    simp only [List.length_cons]; omega

/-- The links of a chain leave no more tokens than there were. -/
theorem length_links {accepts : Token → Bool} {operand : Reader} {chain : Graded}
    {ts : List Token} {t : Graded} {rest : List Token}
    (h : links accepts operand chain ts = .ok (t, rest)) : rest.length ≤ ts.length := by
  fun_induction links accepts operand chain ts with
  | case1 => cases h; exact Nat.le_refl _
  | case2 => cases h
  | case3 => cases h
  | case4 chain a as _ _ _ hr _ _ ih =>
    have := (operand.behind a).shorter hr
    have := ih h
    simp only [List.length_cons]; omega
  | case5 => cases h; exact Nat.le_refl _

/-- A chain of operands between operators that group from the left. -/
def chain (accepts : Token → Bool) (operand : Reader) : Reader where
  read ts := do
    let (first, rest) ← operand.read ts
    links accepts operand first rest
  shorter {ts t rest} h := by
    cases hr : operand.read ts with
    | error => rw [hr] at h; cases h
    | ok a =>
      rw [hr] at h
      exact Nat.lt_of_le_of_lt (length_links h) (operand.shorter hr)

/-- Takes a closing parenthesis; at the end, the one that it would close is unclosed. -/
def close (unclosed : Fault) : List Token → Except Failure (List Token)
  | [] => unclosed.raise
  | t :: rest =>
    if t.kind = .closing then .ok rest else (Fault.expectedClosing t.text t.position).raise

/-- Closing a parenthesis takes a token. -/
theorem length_close {unclosed : Fault} {ts rest : List Token}
    (h : close unclosed ts = .ok rest) : rest.length < ts.length := by
  cases ts with
  | nil => cases h
  | cons t ts =>
    simp only [close] at h
    split at h
    · cases h; exact Nat.lt_succ_self _
    · cases h

/-- The inside of a pair of parentheses, behind the opening one, and the closing one. -/
def parenthesized (unclosed : Fault) (inside : Reader) : Reader where
  read ts := do
    let (tree, rest) ← inside.read ts
    let rest ← close unclosed rest
    return (tree, rest)
  shorter {ts t rest} h := by
    cases hr : inside.read ts with
    | error => rw [hr] at h; cases h
    | ok a =>
      rw [hr] at h
      change (close unclosed a.2 >>= fun r => pure (a.1, r)) = _ at h
      cases hc : close unclosed a.2 with
      | error => rw [hc] at h; cases h
      | ok r =>
        rw [hc] at h
        cases h
        exact Nat.lt_trans (length_close hc) (inside.shorter hr)

/-- Puts a node on top of what a reader reads. -/
def wrap (node : Graded → Graded) (r : Reader) : Reader where
  read ts := do
    let (tree, rest) ← r.read ts
    let tree ← checked (node tree)
    return (tree, rest)
  shorter {ts t rest} h := by
    cases hr : r.read ts with
    | error => rw [hr] at h; cases h
    | ok a =>
      rw [hr] at h
      change (checked (node a.1) >>= fun g => pure (g, a.2)) = _ at h
      cases hc : checked (node a.1) with
      | error => rw [hc] at h; cases h
      | ok g =>
        rw [hc] at h
        cases h
        exact r.shorter hr

/-- The readers of the rules that can be nested in something. -/
structure Level where
  sum : Reader
  power : Reader
  unary : Reader

/-- A name, with the tokens behind it: a function has to be called, a constant cannot be. -/
def named (deeper : Level) (name : String) :
    List Token → Except Failure (Graded × List Token)
  | t :: rest =>
    if t.kind = .opening then
      if Names.isFunction name then
        ((deeper.sum.parenthesized (.unclosedCall name)).wrap (.call name)).read rest
      else if Names.isConstant name then (Fault.constantCalled name).raise
      else (Fault.unknownName name).raise
    else uncalled name (t :: rest)
  | [] => uncalled name []
where
  /-- A name without a parenthesis behind it. -/
  uncalled (name : String) (rest : List Token) : Except Failure (Graded × List Token) :=
    if Names.isConstant name then .ok (.constant name, rest)
    else if Names.isFunction name then (Fault.missingOpening name).raise
    else (Fault.unknownName name).raise

/-- What is behind a name leaves no more tokens than there were. -/
theorem length_named {deeper : Level} {name : String} {ts : List Token} {t : Graded}
    {rest : List Token} (h : named deeper name ts = .ok (t, rest)) : rest.length ≤ ts.length := by
  have uncalled {ts : List Token} (h : named.uncalled name ts = .ok (t, rest)) :
      rest.length ≤ ts.length := by
    unfold named.uncalled at h
    split at h
    · cases h; exact Nat.le_refl _
    · split at h <;> cases h
  unfold named at h
  split at h
  · split at h
    · split at h
      · exact Nat.le_of_lt (Nat.lt_succ_of_lt (Reader.shorter _ h))
      · split at h <;> cases h
    · exact uncalled h
  · exact uncalled h

/-- A number, a name, or a pair of parentheses. -/
def factor (deeper : Level) : Reader where
  read
    | [] => Fault.missingNumber.raise
    | t :: rest =>
      match t.kind with
      | .number =>
        match Binary64.ofText? t.text with
        | some x => .ok (.literal x, rest)
        | none => .error (.misuse (.unreadableNumber t.text))
      | .opening => (deeper.sum.parenthesized (.unclosedGroup t.position)).read rest
      | .identifier => named deeper t.text rest
      | _ => (Fault.unexpectedToken t.text t.position).raise
  shorter {ts t rest} h := by
    cases ts with
    | nil => cases h
    | cons a as =>
      simp only [] at h
      split at h
      · split at h
        · cases h; exact Nat.lt_succ_self _
        · cases h
      · exact Nat.lt_succ_of_lt (Reader.shorter _ h)
      · exact Nat.lt_succ_of_le (length_named h)
      · cases h

/-- Minus signs in front of a factor. -/
def unary (deeper : Level) : Reader where
  read
    | [] => (factor deeper).read []
    | t :: rest =>
      if isOperator ['-'] t then (deeper.unary.wrap .negation).read rest
      else (factor deeper).read (t :: rest)
  shorter {ts t rest} h := by
    cases ts with
    | nil => exact (factor deeper).shorter h
    | cons a as =>
      simp only [] at h
      split at h
      · exact Nat.lt_succ_of_lt (Reader.shorter _ h)
      · exact (factor deeper).shorter h

/-- The exponent behind a base, if there is one. -/
def exponent (deeper : Level) (base : Graded) :
    List Token → Except Failure (Graded × List Token)
  | [] => .ok (base, [])
  | t :: rest =>
    if isOperator ['^'] t then
      ((deeper.power.behind t).wrap (.binary t.text base)).read rest
    else .ok (base, t :: rest)

/-- An exponent leaves no more tokens than there were. -/
theorem length_exponent {deeper : Level} {base : Graded} {ts : List Token} {t : Graded}
    {rest : List Token} (h : exponent deeper base ts = .ok (t, rest)) :
    rest.length ≤ ts.length := by
  cases ts with
  | nil => cases h; exact Nat.le_refl _
  | cons a as =>
    simp only [exponent] at h
    split at h
    · exact Nat.le_of_lt (Nat.lt_succ_of_lt (Reader.shorter _ h))
    · cases h; exact Nat.le_refl _

/-- A base with an exponent or without. -/
def power (deeper : Level) : Reader where
  read ts := do
    let (base, rest) ← (unary deeper).read ts
    exponent deeper base rest
  shorter {ts t rest} h := by
    cases hr : (unary deeper).read ts with
    | error => rw [hr] at h; cases h
    | ok a =>
      rw [hr] at h
      exact Nat.lt_of_le_of_lt (length_exponent h) ((unary deeper).shorter hr)

/-- Products, quotients and remainders of powers. -/
def term (deeper : Level) : Reader := chain (isOperator ['*', '/', '%']) (power deeper)

/-- Sums and differences of terms. -/
def sum (deeper : Level) : Reader := chain (isOperator ['+', '-']) (term deeper)

/-- The level with room for `n - 1` more levels inside it, and the one without room for itself. -/
def level : Nat → Level
  | 0 => ⟨exhausted, exhausted, exhausted⟩
  | n + 1 => ⟨sum (level n), power (level n), unary (level n)⟩

end Reader

/-- The tree of a token list, or none for an empty one. -/
def parse : List Token → Except Failure (Option Graded)
  | [] => .ok none
  | ts => do
    match ← (Reader.level (Reader.maxNesting + 1)).sum.read ts with
    | (tree, []) => return some tree
    | (_, t :: _) => (Fault.trailingInput t.text t.position).raise

end DeskCalculator
