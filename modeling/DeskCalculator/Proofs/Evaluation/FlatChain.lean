/-
# Flat chains

Operands between any of the operators `+`, `-`, `*`, `/` and `%` make a *flat* chain (`Flat`).  The
grammar sees two tiers in it: the stretches between `+` and `-`, which are rows of operands, and the
row of these stretches (`Flat.stretches`).  So a flat chain has a derivation whenever its operands
do, and nothing about it depends on its length: each tier adds at most one to the depth of the
operands and nothing to their nesting, and the value is a fold over each stretch and then over the
stretches (`parse_flat`).
-/

import DeskCalculator.Proofs.Evaluation.RowValue
import DeskCalculator.Proofs.Grammar.Parsing
import Mathlib.Data.List.MinMax

namespace DeskCalculator

namespace Grammar

variable {α β : Type}

/-! ## Flat chains -/

/-- Powers between operators of both tiers. -/
structure Flat where
  first : Derivation .power
  links : List ((tier : Tier) × Link tier (Derivation .power))

/-- Cuts what stands behind an operand: the links of the stretch that the operand begins, and behind
each `+` and `-` the next stretch. -/
def stretches : List ((tier : Tier) × Link tier α) →
    List (Link .term α) × List (Link .sum (Row .term α))
  | [] => ([], [])
  | ⟨.term, link⟩ :: rest => (link :: (stretches rest).1, (stretches rest).2)
  | ⟨.sum, link⟩ :: rest => ([], link.map (⟨·, (stretches rest).1⟩) :: (stretches rest).2)

namespace Flat

/-- The operands of a flat chain. -/
def operands (c : Flat) : List (Derivation .power) := c.first :: c.links.map (·.2.operand)

/-- The operands joined by the operators. -/
def tokens (c : Flat) : List Token :=
  c.first.tokens ++ c.links.flatMap fun link => link.2.operator :: link.2.operand.tokens

/-- The maximal stretches of `*`, `/` and `%`, in a row of `+` and `-`. -/
def stretches (c : Flat) : Row .sum (Row .term (Derivation .power)) :=
  ⟨⟨c.first, (Grammar.stretches c.links).1⟩, (Grammar.stretches c.links).2⟩

/-- Each stretch is folded from the left, and then the row of the stretches is. -/
def value (c : Flat) : Except Misuse Binary64 :=
  c.stretches.value fun stretch => stretch.value fun d => d.tree.value

/-- The derivation of a flat chain. -/
def derivation (c : Flat) : Derivation (.chain .sum) := (c.stretches.map Row.derivation).derivation

end Flat

/-- Cutting loses nothing of what the links consist of and changes no order. -/
theorem flatMap_stretches (f : Token → α → List β)
    (links : List ((tier : Tier) × Link tier α)) :
    ((stretches links).1.flatMap fun link => f link.operator link.operand) ++
        ((stretches links).2.flatMap fun link => f link.operator link.operand.first ++
          link.operand.links.flatMap fun link => f link.operator link.operand) =
      links.flatMap fun link => f link.2.operator link.2.operand := by
  induction links with
  | nil => rfl
  | cons link rest ih =>
    obtain ⟨tier, link⟩ := link
    cases tier with
    | term => simp [stretches, ← ih]
    | sum => simp [stretches, ← ih, Link.map]

namespace Flat

/-- The operands of the stretches are those of the chain. -/
theorem operands_stretches (c : Flat) :
    c.stretches.operands.flatMap Row.operands = c.operands := by
  have links := flatMap_stretches (fun _ d => [d]) c.links
  simp only [← List.map_eq_flatMap] at links
  simp only [operands, ← links, stretches, Row.operands, List.flatMap_cons, List.flatMap_map,
    List.cons_append, List.nil_append]

/-- An operand of a stretch is one of the whole chain. -/
theorem mem_operands {c : Flat} {stretch : Row .term (Derivation .power)} {d : Derivation .power}
    (hs : stretch ∈ c.stretches.operands) (hd : d ∈ stretch.operands) : d ∈ c.operands := by
  rw [← operands_stretches]
  exact List.mem_flatMap.2 ⟨stretch, hs, hd⟩

/-- The derivation of a flat chain derives its tokens. -/
theorem tokens_derivation (c : Flat) : c.derivation.tokens = c.tokens :=
  calc c.derivation.tokens
    _ = (c.stretches.map Row.derivation).tokens Derivation.tokens := Row.tokens_derivation _
    _ = c.stretches.tokens fun stretch => stretch.derivation.tokens := Row.tokens_map ..
    _ = c.stretches.tokens fun stretch => stretch.tokens Derivation.tokens :=
      congrArg c.stretches.tokens (funext fun stretch => stretch.tokens_derivation)
    _ = c.tokens := by
      have links := flatMap_stretches (fun t d => t :: d.tokens) c.links
      rw [tokens, ← links]
      simp [Row.tokens, stretches]

/-- The tree of a flat chain is that of the row of the trees of its stretches. -/
theorem tree_derivation (c : Flat) :
    c.derivation.tree = (c.stretches.map fun stretch => (stretch.map Derivation.tree).tree).tree :=
  calc c.derivation.tree
    _ = ((c.stretches.map Row.derivation).map Derivation.tree).tree := Row.tree_derivation _
    _ = (c.stretches.map fun stretch => stretch.derivation.tree).tree :=
      congrArg Row.tree (Row.map_map ..)
    _ = _ := congrArg (fun f => (c.stretches.map f).tree)
      (funext fun stretch => stretch.tree_derivation)

/-- The derivation of a flat chain has its value. -/
theorem value_derivation (c : Flat) : c.derivation.tree.value = c.value := by
  rw [tree_derivation, Row.value_tree, Row.value_map, value]
  refine congrArg (Row.value · c.stretches) (funext fun stretch => ?_)
  rw [Row.value_tree, Row.value_map]

/-- **A flat chain nests no deeper than its operands.** -/
theorem nest_derivation_le {c : Flat} {n : Nat} (h : ∀ d ∈ c.operands, d.nest ≤ n) :
    c.derivation.nest ≤ n := by
  refine Row.nest_derivation_le.2 fun term hterm => ?_
  obtain ⟨stretch, hs, rfl⟩ := Row.mem_operands_map.1 hterm
  exact Row.nest_derivation_le.2 fun d hd => h d (mem_operands hs hd)

/-- **A flat chain is at most two deeper than its operands**: one for the stretches and one for the
row of them. -/
theorem depth_derivation_le {c : Flat} {n : Nat} (h : ∀ d ∈ c.operands, d.tree.depth ≤ n) :
    c.derivation.tree.depth ≤ n + 2 := by
  refine Row.depth_derivation_le fun term hterm => ?_
  obtain ⟨stretch, hs, rfl⟩ := Row.mem_operands_map.1 hterm
  exact Row.depth_derivation_le fun d hd => h d (mem_operands hs hd)

/-- One of the operands is as deep as any. -/
theorem exists_deepest (c : Flat) :
    ∃ d ∈ c.operands, ∀ d' ∈ c.operands, d'.tree.depth ≤ d.tree.depth := by
  have some : c.operands.argmax (fun d => d.tree.depth) ≠ none := by
    rw [Ne, List.argmax_eq_none]
    exact List.cons_ne_nil _ _
  obtain ⟨d, hd⟩ := Option.ne_none_iff_exists'.1 some
  exact ⟨d, List.argmax_mem hd, fun d' hd' =>
    List.le_of_mem_argmax (f := fun d : Derivation .power => d.tree.depth) hd' hd⟩

end Flat
end Grammar

open Grammar

/-- **Flat chains of any length are accepted.**  Operands between any of `+`, `-`, `*`, `/` and `%`,
each of which nests at most 100 deep and has a tree that is at most 398 deep, are parsed however
many they are.  The tree is at most two deeper than the deepest operand, and it has a value, which
comes from folding each maximal stretch of `*`, `/` and `%` from the left, and then the row of the
stretches. -/
theorem parse_flat (c : Flat) (nest : ∀ d ∈ c.operands, d.nest ≤ 100)
    (depth : ∀ d ∈ c.operands, d.tree.depth ≤ 398) :
    ∃ g : Graded, parse c.tokens = .ok (some g) ∧
      (∃ d ∈ c.operands, g.depth ≤ d.tree.depth + 2) ∧
      ∃ x, g.tree.value = .ok x ∧ c.value = .ok x := by
  have parsed := parse_tokens (Flat.nest_derivation_le nest) (Flat.depth_derivation_le depth)
  rw [c.tokens_derivation] at parsed
  obtain ⟨d, hd, deepest⟩ := c.exists_deepest
  obtain ⟨x, hx⟩ := Expr.exists_value c.derivation.isKnown
  refine ⟨_, parsed, ⟨d, hd, Flat.depth_derivation_le deepest⟩, x, hx, ?_⟩
  rw [← c.value_derivation, hx]

/-- A sum in parentheses begins a stretch of three operands, with a difference behind it. -/
theorem parse_flat_group : ∃ c : Flat, Token.scan "(1+2)*4%5-6" = .ok c.tokens ∧
    (∀ d ∈ c.operands, d.nest ≤ 100) ∧ (∀ d ∈ c.operands, d.tree.depth ≤ 398) ∧
    ∃ g : Graded, parse c.tokens = .ok (some g) ∧ g.tree.value = .ok (-.ofNat 4) := by
  have reads : ∀ n ∈ [1, 2, 4, 5, 6], Binary64.ofText? (toString n) = some (.ofNat n) := by
    decide +kernel
  let number (n : Nat) (position : Int) (h : n ∈ [1, 2, 4, 5, 6]) : Derivation .power :=
    .unary (.atom (.number ⟨.number, toString n, position⟩ (.ofNat n) rfl (reads n h)))
  let sum : Derivation (.chain .sum) := .chain (.chain (number 1 1 (by decide)) .nil)
    (.cons ⟨.operator, "+", 2⟩ (.chain (number 2 3 (by decide)) .nil) .nil
      ⟨rfl, '+', by decide, rfl⟩)
  let group : Derivation .power :=
    .unary (.atom (.group ⟨.opening, "(", 0⟩ sum ⟨.closing, ")", 4⟩ rfl rfl))
  let c : Flat := ⟨group, [
    ⟨.term, ⟨.operator, "*", 5⟩, number 4 6 (by decide), ⟨rfl, '*', by decide, rfl⟩⟩,
    ⟨.term, ⟨.operator, "%", 7⟩, number 5 8 (by decide), ⟨rfl, '%', by decide, rfl⟩⟩,
    ⟨.sum, ⟨.operator, "-", 9⟩, number 6 10 (by decide), ⟨rfl, '-', by decide, rfl⟩⟩]⟩
  have nest : ∀ d ∈ c.operands, d.nest ≤ 100 := by
    have : ∀ n ∈ c.operands.map Derivation.nest, n ≤ 100 :=
      show ∀ n ∈ [1, 0, 0, 0], n ≤ 100 by decide
    exact List.forall_mem_map.1 this
  have depth : ∀ d ∈ c.operands, d.tree.depth ≤ 398 := by
    have : ∀ n ∈ c.operands.map (·.tree.depth), n ≤ 398 :=
      show ∀ n ∈ [2, 1, 1, 1], n ≤ 398 by decide
    exact List.forall_mem_map.1 this
  obtain ⟨g, parsed, -, x, hx, same⟩ := parse_flat c nest depth
  have tree : c.derivation.tree = .binary "-" (.binary "%" (.binary "*"
      (.binary "+" (.literal (.ofNat 1)) (.literal (.ofNat 2))) (.literal (.ofNat 4)))
      (.literal (.ofNat 5))) (.literal (.ofNat 6)) := rfl
  refine ⟨c, rfl, nest, depth, g, parsed, ?_⟩
  rw [hx, ← same, ← c.value_derivation, tree]
  decide +kernel

end DeskCalculator
