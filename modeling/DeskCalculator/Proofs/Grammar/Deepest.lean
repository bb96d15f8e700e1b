/-
# The deepest trees

The length of a chain does not make its tree deep, so only nesting does.  From one level of nesting
to the next a tree can go through a sum, a product, a power and a call, but no further: the argument
of the call is nested.  So a derivation that nests at most `n` deep has a tree that is at most
`4 * n + 3` deep (`Derivation.depth_le_deepest`).  The bound is one for each rule (`Rule.deepest`),
since the operands of a rule leave less room than the rule has; at the bottom, where nothing can be
nested, a number or a constant still has a node.

For every nesting there is a text whose tree is as deep as that (`deepestText`, `depth_deepest`).
-/

import DeskCalculator.Proofs.Grammar.Row
import DeskCalculator.Proofs.Grammar.Viable
import DeskCalculator.Proofs.Token.Concatenation

namespace DeskCalculator

/-- Every tree has a node. -/
theorem Expr.depth_pos (e : Expr) : 1 ≤ e.depth := by
  cases e with
  | binary operator left right =>
    rw [depth]
    split <;> omega
  | _ => exact Nat.succ_le_succ (Nat.zero_le _)

namespace Grammar

/-! ## Depth against nesting -/

/-- How deep the tree of a derivation can be that nests at most `n` deep. -/
def Rule.deepest (n : Nat) : Rule → Nat
  | .atom | .unary => max 1 (4 * n)
  | .power => 4 * n + 1
  | .chain .term => 4 * n + 2
  | .chain .sum => 4 * n + 3

/-- A chain is one deeper than its operands. -/
theorem Rule.deepest_chain (n : Nat) (tier : Tier) :
    (Rule.chain tier).deepest n = tier.operand.deepest n + 1 := by
  cases tier <;> rfl

/-- No tree is deeper than four for every level of nesting and three more. -/
theorem Rule.deepest_le (n : Nat) (rule : Rule) : rule.deepest n ≤ 4 * n + 3 := by
  cases rule with
  | chain tier => cases tier <;> simp only [deepest] <;> omega
  | _ => simp only [deepest]; omega

mutual

/-- **Four levels of depth for each level of nesting.** -/
theorem Derivation.depth_le_deepest : ∀ {rule : Rule} (d : Derivation rule) {n : Nat},
    d.nest ≤ n → d.tree.depth ≤ rule.deepest n
  | _, .number _ _ _ _, n, _ => Nat.le_max_left 1 (4 * n)
  | _, .constant _ _ _, n, _ => Nat.le_max_left 1 (4 * n)
  | _, .call _ _ argument _ _ _ _ _, n, h => by
      rw [Derivation.nest] at h
      have inside := argument.depth_le_deepest (n := n - 1) (by omega)
      rw [Derivation.tree, Expr.depth]
      simp only [Rule.deepest] at inside ⊢
      omega
  | _, .group _ inside _ _ _, n, h => by
      rw [Derivation.nest] at h
      have inside := inside.depth_le_deepest (n := n - 1) (by omega)
      rw [Derivation.tree]
      simp only [Rule.deepest] at inside ⊢
      omega
  | _, .atom d, _, h => d.depth_le_deepest h
  | _, .minus _ operand _, n, h => by
      rw [Derivation.nest] at h
      have inside := operand.depth_le_deepest (n := n - 1) (by omega)
      rw [Derivation.tree, Expr.depth]
      simp only [Rule.deepest] at inside ⊢
      omega
  | _, .unary d, n, h => by
      have bare := d.depth_le_deepest h
      rw [Derivation.tree]
      simp only [Rule.deepest] at bare ⊢
      omega
  | _, .raised base operator exponent _, n, h => by
      rw [Derivation.nest, Nat.max_le] at h
      have below := base.depth_le_deepest h.1
      have inside := exponent.depth_le_deepest (n := n - 1) (by omega)
      rw [Derivation.tree, Expr.depth]
      simp only [Rule.deepest] at below inside ⊢
      split <;> omega
  | .chain tier, .chain first links, n, h => by
      rw [Derivation.nest, Nat.max_le] at h
      rw [Derivation.tree, Rule.deepest_chain]
      exact (links.carries_onto h.2 (.inl (first.depth_le_deepest h.1))).depth_le

/-- A chain is one deeper than its operands can be, however long it is. -/
theorem Links.carries_onto : ∀ {tier : Tier} (links : Links tier) {n : Nat} {front : Expr},
    links.nest ≤ n → front.Carries (tier.operand.deepest n) →
      (links.onto front).Carries (tier.operand.deepest n)
  | _, .nil, _, _, _, carries => carries
  | _, .cons operator operand more isSign, n, front, h, carries => by
      rw [Links.nest, Nat.max_le] at h
      rw [Links.onto]
      exact more.carries_onto h.2
        (carries.binary (groupsLeft_of_isSign isSign) (operand.depth_le_deepest h.1))

end

/-! ## Deepest expressions -/

/-- An expression that nests `n` deep and whose tree is as deep as it can be. -/
def deepestText : Nat → String
  | 0 => "1+1*1"
  | n + 1 => "1+1*ln(" ++ deepestText n ++ ")^1"

/-- The number one as an operand. -/
def digit (position : Nat) : Derivation .power :=
  .unary (.atom (.number ⟨.number, "1", position⟩ (.ofNat 1) rfl ofText?_one))

/-- A power as the last operand of a product that is the last operand of a sum. -/
def underneath (start : Nat) (power : Derivation .power) : Derivation (.chain .sum) :=
  .chain (.chain (digit start) .nil)
    (.cons ⟨.operator, "+", (start + 1 : Nat)⟩
      (.chain (digit (start + 2))
        (.cons ⟨.operator, "*", (start + 3 : Nat)⟩ power .nil ⟨rfl, '*', by decide, rfl⟩))
      .nil ⟨rfl, '+', by decide, rfl⟩)

/-- A sum as the argument of a call that is the base of a power; its last parenthesis is at `close`.
-/
def called (start close : Nat) (argument : Derivation (.chain .sum)) : Derivation .power :=
  .raised
    (.atom (.call ⟨.identifier, "ln", start⟩ ⟨.opening, "(", (start + 2 : Nat)⟩ argument
      ⟨.closing, ")", close⟩ rfl rfl rfl rfl))
    ⟨.operator, "^", (close + 1 : Nat)⟩ (digit (close + 2)) ⟨rfl, '^', by decide, rfl⟩

/-- The derivation of a deepest expression.  Its text is `5 + 10 * n` long. -/
def deepest : Nat → Nat → Derivation (.chain .sum)
  | 0, start => underneath start (digit (start + 4))
  | n + 1, start =>
    underneath start (called (start + 4) (start + 7 + (5 + 10 * n)) (deepest n (start + 7)))

/-- The sum around a power opens no parenthesis. -/
theorem nest_underneath (start : Nat) (power : Derivation .power) :
    (underneath start power).nest = power.nest := by
  change max (max 0 0) (max (max 0 (max power.nest 0)) 0) = power.nest
  omega

/-- The sum around a power is two deeper than the power. -/
theorem depth_underneath (start : Nat) (power : Derivation .power) :
    (underneath start power).tree.depth = power.tree.depth + 2 := by
  have tree : (underneath start power).tree = .binary "+" (.literal (.ofNat 1))
    (.binary "*" (.literal (.ofNat 1)) power.tree) := rfl
  have positive := power.tree.depth_pos
  rw [tree]
  simp only [Expr.depth, Expr.isChain, Bool.and_false, Bool.false_eq_true, if_false]
  omega

/-- The call opens a parenthesis. -/
theorem nest_called (start close : Nat) (argument : Derivation (.chain .sum)) :
    (called start close argument).nest = argument.nest + 1 := by
  change max (1 + argument.nest) (1 + 0) = argument.nest + 1
  omega

/-- The power around a call is two deeper than the argument. -/
theorem depth_called (start close : Nat) (argument : Derivation (.chain .sum)) :
    (called start close argument).tree.depth = argument.tree.depth + 2 := by
  have tree : (called start close argument).tree =
    .binary "^" (.call "ln" argument.tree) (.literal (.ofNat 1)) := rfl
  rw [tree]
  simp only [Expr.depth, Expr.isChain, Bool.and_false, Bool.false_eq_true, if_false]
  omega

/-- A deepest expression nests as deep as it is asked for. -/
theorem nest_deepest (n start : Nat) : (deepest n start).nest = n := by
  induction n generalizing start with
  | zero => rfl
  | succ n ih => rw [deepest, nest_underneath, nest_called, ih]

/-- **For every nesting there is a tree as deep as can be.** -/
theorem depth_deepest (n start : Nat) : (deepest n start).tree.depth = 4 * n + 3 := by
  induction n generalizing start with
  | zero => exact depth_underneath start _
  | succ n ih =>
    rw [deepest, depth_underneath, depth_called, ih]
    omega

/-! ## Deepest texts -/

/-- The tokens of a text between two others that join nothing. -/
theorem scanFrom_between {ps qs rs : List CodePoint} {ts us vs : List Token} {start : Nat}
    (opening : ∀ p ∈ ps.getLast?, ∀ q, Token.joins p q = false)
    (closing : ∀ r ∈ rs.head?, ∀ q, Token.joins q r = false)
    (front : Token.scanFrom start ps = .ok ts)
    (inside : Token.scanFrom (start + ps.length) qs = .ok us)
    (back : Token.scanFrom (start + ps.length + qs.length) rs = .ok vs) :
    Token.scanFrom start (ps ++ (qs ++ rs)) = .ok (ts ++ (us ++ vs)) := by
  rw [Token.scanFrom_append fun p hp q _ => opening p hp q, front,
    Token.scanFrom_append fun q _ r hr => closing r hr q, inside, back]
  rfl

/-- A deepest expression is put together around the next smaller one. -/
theorem points_deepestText (n : Nat) : (deepestText (n + 1) : CodeText).points =
    ("1+1*ln(" : CodeText).points ++
      ((deepestText n : CodeText).points ++ (")^1" : CodeText).points) := by
  simp [deepestText, CodeText.ofString]

/-- Every level of a deepest expression takes ten characters. -/
theorem length_deepestText (n : Nat) : (deepestText n : CodeText).points.length = 5 + 10 * n := by
  induction n with
  | zero => rfl
  | succ n ih =>
    have around : ("1+1*ln(" : CodeText).points.length = 7 ∧
      (")^1" : CodeText).points.length = 3 := ⟨rfl, rfl⟩
    rw [points_deepestText, List.length_append, List.length_append, ih, around.1, around.2]
    omega

/-- A deepest expression is scanned into the tokens of its derivation wherever it stands. -/
theorem scanFrom_deepestText (n start : Nat) :
    Token.scanFrom start (deepestText n : CodeText).points = .ok (deepest n start).tokens := by
  induction n generalizing start with
  | zero => rfl
  | succ n ih =>
    have opening : ∀ p ∈ ("1+1*ln(" : CodeText).points.getLast?, ∀ q,
        Token.joins p q = false := by
      rintro p ⟨⟩ q
      exact (Token.joins_symbol (c := '(') rfl q).1
    have closing : ∀ r ∈ (")^1" : CodeText).points.head?, ∀ q, Token.joins q r = false := by
      rintro r ⟨⟩ q
      exact (Token.joins_symbol (c := ')') rfl q).2
    have front : Token.scanFrom start ("1+1*ln(" : CodeText).points =
        .ok [⟨.number, "1", start⟩, ⟨.operator, "+", (start + 1 : Nat)⟩,
          ⟨.number, "1", (start + 2 : Nat)⟩, ⟨.operator, "*", (start + 3 : Nat)⟩,
          ⟨.identifier, "ln", (start + 4 : Nat)⟩, ⟨.opening, "(", (start + 4 + 2 : Nat)⟩] := rfl
    have back (behind : Nat) : Token.scanFrom behind (")^1" : CodeText).points =
        .ok [⟨.closing, ")", behind⟩, ⟨.operator, "^", (behind + 1 : Nat)⟩,
          ⟨.number, "1", (behind + 2 : Nat)⟩] := rfl
    have seven : ("1+1*ln(" : CodeText).points.length = 7 := rfl
    rw [points_deepestText, scanFrom_between opening closing front (ih (start + 7)) (back _),
      length_deepestText, seven]
    simp [deepest, underneath, called, digit, Derivation.tokens, Links.tokens]

/-- A deepest expression is scanned into the tokens of its derivation. -/
theorem scan_deepestText (n : Nat) :
    Token.scan (deepestText n : CodeText) = .ok (deepest n 0).tokens :=
  scanFrom_deepestText n 0

/-- The tokens of a deepest expression in front of others.  In this form they evaluate fast, which
those of the derivation do not: there each level appends what all the deeper ones have appended. -/
def deepestTokens : Nat → Nat → List Token → List Token
  | 0, start, rest =>
    ⟨.number, "1", start⟩ :: ⟨.operator, "+", (start + 1 : Nat)⟩ ::
    ⟨.number, "1", (start + 2 : Nat)⟩ :: ⟨.operator, "*", (start + 3 : Nat)⟩ ::
    ⟨.number, "1", (start + 4 : Nat)⟩ :: rest
  | n + 1, start, rest =>
    let close := start + 7 + (5 + 10 * n)
    ⟨.number, "1", start⟩ :: ⟨.operator, "+", (start + 1 : Nat)⟩ ::
    ⟨.number, "1", (start + 2 : Nat)⟩ :: ⟨.operator, "*", (start + 3 : Nat)⟩ ::
    ⟨.identifier, "ln", (start + 4 : Nat)⟩ :: ⟨.opening, "(", (start + 4 + 2 : Nat)⟩ ::
    deepestTokens n (start + 7) (⟨.closing, ")", close⟩ :: ⟨.operator, "^", (close + 1 : Nat)⟩ ::
      ⟨.number, "1", (close + 2 : Nat)⟩ :: rest)

/-- The tokens of the derivation in the form that evaluates fast. -/
theorem tokens_deepest (n start : Nat) (rest : List Token) :
    (deepest n start).tokens ++ rest = deepestTokens n start rest := by
  induction n generalizing start rest with
  | zero => rfl
  | succ n ih =>
    rw [deepestTokens, ← ih]
    simp [deepest, underneath, called, digit, Derivation.tokens, Links.tokens]

end Grammar
end DeskCalculator
