/-
# Chains as rows

A chain derives an operand and then operators, each with an operand behind it, and its derivation
has the links one inside the other.  Seen as a list they make a *row* (`Row`): every derivation of a
chain is that of a row (`Derivation.derivation_row`), its tree is a fold over the row, and its
nesting and its tokens are those of the operands together.  The depth of the tree does not grow with
the length of a row: it is at most one more than that of the deepest operand (`Row.depth_tree_le`).
-/

import DeskCalculator.Proofs.Grammar.Derivation
import Mathlib.Data.List.ModifyLast

namespace DeskCalculator

/-! ## Depth along a chain -/

namespace Expr

/-- A tree on which a chain can be put whose operands are at most so deep: it is no deeper than they
are, or it is a chain itself and one deeper at most. -/
def Carries (n : Nat) (e : Expr) : Prop := e.depth ≤ n ∨ e.isChain = true ∧ e.depth ≤ n + 1

variable {n : Nat} {e right : Expr} {operator : String}

/-- A tree that carries operands is one deeper than they are at most. -/
theorem Carries.depth_le (h : e.Carries n) : e.depth ≤ n + 1 := by
  rcases h with h | ⟨-, h⟩
  · exact Nat.le_succ_of_le h
  · exact h

/-- One link more makes a chain that is no deeper than it may be. -/
theorem Carries.binary (h : e.Carries n) (groups : groupsLeft operator = true)
    (hr : right.depth ≤ n) : (Expr.binary operator e right).Carries n := by
  refine .inr ⟨groups, ?_⟩
  rw [depth, groups, Bool.true_and]
  rcases h with h | ⟨chain, h⟩
  · split <;> omega
  · rw [if_pos chain]
    omega

/-- With a deeper right operand, a node is deeper or as deep. -/
theorem depth_binary_mono {left right' : Expr} (h : right.depth ≤ right'.depth) :
    (Expr.binary operator left right).depth ≤ (Expr.binary operator left right').depth := by
  rw [depth, depth]
  split <;> omega

end Expr

namespace Grammar

variable {tier : Tier} {α β γ : Type}

/-- The operators of both tiers group from the left. -/
theorem groupsLeft_of_isSign {t : Token} (h : t.IsSign tier.symbols) :
    Expr.groupsLeft t.text = true := by
  obtain ⟨-, c, hc, ht⟩ := h
  have groups : ∀ c ∈ tier.symbols, Expr.groupsLeft (String.singleton c) = true := by
    cases tier <;> simp [Tier.symbols, Expr.groupsLeft, Text.occursIn]
  rw [ht]
  exact groups c hc

/-! ## Rows -/

/-- An operator of a tier, and what stands behind it. -/
structure Link (tier : Tier) (α : Type) where
  operator : Token
  operand : α
  isSign : operator.IsSign tier.symbols

/-- The link with something else behind its operator. -/
def Link.map (f : α → β) (link : Link tier α) : Link tier β :=
  ⟨link.operator, f link.operand, link.isSign⟩

/-- Operands between operators of a tier. -/
structure Row (tier : Tier) (α : Type) where
  first : α
  links : List (Link tier α)

namespace Row

/-- The row with other operands. -/
def map (f : α → β) (row : Row tier α) : Row tier β := ⟨f row.first, row.links.map (·.map f)⟩

/-- The operands of a row. -/
def operands (row : Row tier α) : List α := row.first :: row.links.map Link.operand

/-- The tokens of a row, with those of its operands. -/
def tokens (f : α → List Token) (row : Row tier α) : List Token :=
  f row.first ++ row.links.flatMap fun link => link.operator :: f link.operand

/-- The tree of a row of trees: a row groups from the left. -/
def tree (row : Row tier Expr) : Expr :=
  row.links.foldl (fun front link => .binary link.operator.text front link.operand) row.first

/-- The operands of a mapped row are those of the row, mapped. -/
theorem mem_operands_map {f : α → β} {row : Row tier α} {b : β} :
    b ∈ (row.map f).operands ↔ ∃ a ∈ row.operands, f a = b := by
  simp [operands, map, Link.map, eq_comm]

/-- Mapping a row twice is mapping it once. -/
theorem map_map (f : α → β) (g : β → γ) (row : Row tier α) :
    (row.map f).map g = row.map fun a => g (f a) := by
  simp [map, Link.map, Function.comp_def]

/-- The tokens of a mapped row are those of the row under both functions. -/
theorem tokens_map (f : α → β) (g : β → List Token) (row : Row tier α) :
    (row.map f).tokens g = row.tokens fun a => g (f a) := by
  simp [tokens, map, Link.map, List.flatMap_map]

/-- **A row of any length is at most one deeper than its operands.** -/
theorem depth_tree_le {row : Row tier Expr} {n : Nat} (h : ∀ e ∈ row.operands, e.depth ≤ n) :
    row.tree.depth ≤ n + 1 := by
  obtain ⟨first, links⟩ := row
  obtain ⟨hf, hl⟩ := List.forall_mem_cons.1 h
  rw [List.forall_mem_map] at hl
  have carries : (tree ⟨first, links⟩).Carries n := by
    refine List.foldlRecOn links _ (.inl hf) fun e he link mem => ?_
    exact he.binary (groupsLeft_of_isSign link.isSign) (hl link mem)
  exact carries.depth_le

/-! ## The last operand -/

/-- The row with another last operand. -/
def mapLast (f : α → α) : Row tier α → Row tier α
  | ⟨first, []⟩ => ⟨f first, []⟩
  | ⟨first, link :: more⟩ => ⟨first, (link :: more).modifyLast (·.map f)⟩

/-- A row is an operand alone, or the last operand stands behind an operator. -/
theorem eq_single_or_concat (row : Row tier α) :
    (∃ a, row = ⟨a, []⟩) ∨ ∃ first links link, row = ⟨first, links ++ [link]⟩ := by
  obtain ⟨first, links⟩ := row
  rcases links.eq_nil_or_concat with rfl | ⟨links, link, rfl⟩
  · exact .inl ⟨first, rfl⟩
  · exact .inr ⟨first, links, link, by rw [List.concat_eq_append]⟩

/-- The only operand of a row is its last one. -/
@[simp] theorem mapLast_single (f : α → α) (a : α) :
    (⟨a, []⟩ : Row tier α).mapLast f = ⟨f a, []⟩ := rfl

/-- The last operand of a row stands behind its last operator. -/
@[simp] theorem mapLast_concat (f : α → α) (first : α) (links : List (Link tier α))
    (link : Link tier α) : mapLast f ⟨first, links ++ [link]⟩ = ⟨first, links ++ [link.map f]⟩ := by
  rw [← List.modifyLast_concat]
  cases links <;> rfl

/-- Changing the last operand and mapping the row can be done in either order. -/
theorem map_mapLast {f : α → α} {g : α → β} {h : β → β} (same : ∀ a, g (f a) = h (g a))
    (row : Row tier α) : (row.mapLast f).map g = (row.map g).mapLast h := by
  rcases row.eq_single_or_concat with ⟨a, rfl⟩ | ⟨first, links, link, rfl⟩
  · simp [map, same]
  · simp [map, Link.map, same]

/-- A last operand with more tokens behind it puts them behind the row. -/
theorem tokens_mapLast {f : α → α} {g : α → List Token} {more : List Token}
    (longer : ∀ a, g (f a) = g a ++ more) (row : Row tier α) :
    (row.mapLast f).tokens g = row.tokens g ++ more := by
  rcases row.eq_single_or_concat with ⟨a, rfl⟩ | ⟨first, links, link, rfl⟩
  · simp [tokens, longer]
  · simp [tokens, Link.map, longer]

/-- What the change of an operand preserves is preserved by the change of the last one. -/
theorem forall_mem_operands_mapLast {f : α → α} {P : α → Prop} (same : ∀ a, P (f a) ↔ P a)
    (row : Row tier α) : (∀ a ∈ (row.mapLast f).operands, P a) ↔ ∀ a ∈ row.operands, P a := by
  rcases row.eq_single_or_concat with ⟨a, rfl⟩ | ⟨first, links, link, rfl⟩
  · simp [operands, same]
  · simp [operands, Link.map, or_imp, forall_and, same]

/-- The last operator of a row is the outermost of its tree. -/
theorem tree_concat (first : Expr) (links : List (Link tier Expr)) (link : Link tier Expr) :
    tree ⟨first, links ++ [link]⟩ =
      .binary link.operator.text (tree ⟨first, links⟩) link.operand :=
  List.foldl_concat ..

/-- With a deeper last operand, a row is deeper or as deep. -/
theorem depth_tree_le_mapLast {f : Expr → Expr} (deeper : ∀ e, e.depth ≤ (f e).depth)
    (row : Row tier Expr) : row.tree.depth ≤ (row.mapLast f).tree.depth := by
  rcases row.eq_single_or_concat with ⟨e, rfl⟩ | ⟨first, links, link, rfl⟩
  · exact deeper e
  · rw [mapLast_concat, tree_concat, tree_concat]
    exact Expr.depth_binary_mono (deeper link.operand)

/-! ## Rows of derivations -/

/-- The rest of a chain that links make. -/
def linksOf : List (Link tier (Derivation tier.operand)) → Links tier
  | [] => .nil
  | link :: more => .cons link.operator link.operand (linksOf more) link.isSign

/-- The derivation of a row. -/
def derivation (row : Row tier (Derivation tier.operand)) : Derivation (.chain tier) :=
  .chain row.first (linksOf row.links)

/-- The tokens of links are their operators and operands, in order. -/
theorem tokens_linksOf (links : List (Link tier (Derivation tier.operand))) :
    (linksOf links).tokens = links.flatMap fun link => link.operator :: link.operand.tokens := by
  induction links with
  | nil => rfl
  | cons link more ih =>
    rw [linksOf, Links.tokens, ih, List.flatMap_cons, List.cons_append]

/-- Links put onto a tree are the row that begins with it. -/
theorem onto_linksOf (links : List (Link tier (Derivation tier.operand))) (front : Expr) :
    (linksOf links).onto front = tree ⟨front, links.map (·.map Derivation.tree)⟩ := by
  induction links generalizing front with
  | nil => rfl
  | cons link more ih => exact ih _

/-- Links nest as deep as their operands do. -/
theorem nest_linksOf_le {links : List (Link tier (Derivation tier.operand))} {n : Nat} :
    (linksOf links).nest ≤ n ↔ ∀ link ∈ links, link.operand.nest ≤ n := by
  induction links with
  | nil => simp [linksOf, Links.nest]
  | cons link more ih => rw [linksOf, Links.nest, Nat.max_le, ih, List.forall_mem_cons]

variable {row : Row tier (Derivation tier.operand)}

/-- The derivation of a row has its tokens. -/
theorem tokens_derivation (row : Row tier (Derivation tier.operand)) :
    row.derivation.tokens = row.tokens Derivation.tokens := by
  rw [derivation, Derivation.tokens, tokens_linksOf, tokens]

/-- The derivation of a row has its tree. -/
theorem tree_derivation (row : Row tier (Derivation tier.operand)) :
    row.derivation.tree = (row.map Derivation.tree).tree := by
  rw [derivation, Derivation.tree, onto_linksOf, map]

/-- A chain nests as much as its operands do. -/
theorem nest_derivation_le {n : Nat} :
    row.derivation.nest ≤ n ↔ ∀ d ∈ row.operands, d.nest ≤ n := by
  rw [derivation, Derivation.nest, Nat.max_le, nest_linksOf_le, operands, List.forall_mem_cons,
    List.forall_mem_map]

/-- A chain of any length is at most one deeper than its operands. -/
theorem depth_derivation_le {n : Nat} (h : ∀ d ∈ row.operands, d.tree.depth ≤ n) :
    row.derivation.tree.depth ≤ n + 1 := by
  rw [tree_derivation]
  refine depth_tree_le fun e he => ?_
  obtain ⟨d, hd, rfl⟩ := mem_operands_map.1 he
  exact h d hd

end Row

/-- The links that the rest of a chain is made of. -/
def Links.list : {tier : Tier} → Links tier → List (Link tier (Derivation tier.operand))
  | _, .nil => []
  | _, .cons operator operand more isSign => ⟨operator, operand, isSign⟩ :: more.list

/-- The row that a chain is. -/
def Derivation.row : Derivation (.chain tier) → Row tier (Derivation tier.operand)
  | .chain first links => ⟨first, links.list⟩

/-- The rest of a chain is made of its own links. -/
theorem Links.linksOf_list : ∀ {tier : Tier} (links : Links tier), Row.linksOf links.list = links
  | _, .nil => rfl
  | _, .cons _ _ more _ => by rw [list, Row.linksOf, more.linksOf_list]

/-- **A derivation of a chain is that of its row.** -/
theorem Derivation.derivation_row : ∀ d : Derivation (.chain tier), d.row.derivation = d
  | .chain first links => by rw [row, Row.derivation, links.linksOf_list]

/-- Links are found again in the rest of a chain. -/
theorem Row.list_linksOf : ∀ links : List (Link tier (Derivation tier.operand)),
    (linksOf links).list = links
  | [] => rfl
  | link :: more => by rw [linksOf, Links.list, list_linksOf more]

/-- A row is found again in its derivation. -/
theorem Row.row_derivation (row : Row tier (Derivation tier.operand)) :
    row.derivation.row = row := by
  rw [derivation, Derivation.row, list_linksOf]

/-! ## Longer chains -/

namespace Derivation

/-- The chain with one more operand behind it. -/
def extend (d : Derivation (.chain tier)) (link : Link tier (Derivation tier.operand)) :
    Derivation (.chain tier) :=
  Row.derivation ⟨d.row.first, d.row.links ++ [link]⟩

variable (d : Derivation (.chain tier)) (link : Link tier (Derivation tier.operand))

/-- The tokens of the further operand stand at the end. -/
theorem tokens_extend :
    (d.extend link).tokens = d.tokens ++ link.operator :: link.operand.tokens := by
  conv_rhs => rw [← d.derivation_row]
  rw [extend, Row.tokens_derivation, Row.tokens_derivation, Row.tokens, Row.tokens,
    List.flatMap_append, List.append_assoc, List.flatMap_singleton]

/-- The further operator is the outermost of the tree. -/
theorem tree_extend :
    (d.extend link).tree = .binary link.operator.text d.tree link.operand.tree := by
  conv_rhs => rw [← d.derivation_row]
  rw [extend, Row.tree_derivation, Row.tree_derivation, Row.map, List.map_append]
  exact Row.tree_concat ..

/-- A chain with a further operand nests as deep as the deeper of the two. -/
theorem nest_extend : (d.extend link).nest = max d.nest link.operand.nest := by
  conv_rhs => rw [← d.derivation_row]
  refine eq_of_forall_ge_iff fun n => ?_
  rw [Nat.max_le, extend, Row.nest_derivation_le, Row.nest_derivation_le]
  simp [Row.operands, or_imp, forall_and, and_assoc]

end Derivation

end Grammar
end DeskCalculator
