/-
# The value of a row

The tree of a row is evaluated operand by operand, each with the operator in front of it.  No
operator of a tier fails on two values, so the operands can all have their values first: a row of
trees has the value that the row of their values comes to, from the left (`Row.value_tree`).
-/

import DeskCalculator.Proofs.Evaluation.Known
import DeskCalculator.Proofs.Evaluation.PostOrder
import DeskCalculator.Proofs.Grammar.Row

namespace DeskCalculator

/-- The value of a node: the left operand, then the right one, then the operator. -/
theorem Expr.value_binary (operator : String) (left right : Expr) :
    (Expr.binary operator left right).value =
      left.value >>= fun x => right.value >>= fun y => apply operator x y := by
  simp only [value_eq_inPostOrder, inPostOrder]

namespace Grammar

variable {tier : Tier} {α β γ : Type}

/-- The link with what a step returns for its operand. -/
def Link.mapM (f : α → Except Misuse β) (link : Link tier α) : Except Misuse (Link tier β) := do
  return ⟨link.operator, ← f link.operand, link.isSign⟩

namespace Row

/-- The row with what a step returns for its operands. -/
def mapM (f : α → Except Misuse β) (row : Row tier α) : Except Misuse (Row tier β) := do
  return ⟨← f row.first, ← row.links.mapM (·.mapM f)⟩

/-- What a row of numbers comes to, from the left. -/
def total (row : Row tier Binary64) : Except Misuse Binary64 :=
  row.links.foldlM (fun x link => Expr.apply link.operator.text x link.operand) row.first

/-- The first operator is applied before the rest of the row. -/
theorem total_cons (x : Binary64) (link : Link tier Binary64) (more : List (Link tier Binary64)) :
    total ⟨x, link :: more⟩ =
      Expr.apply link.operator.text x link.operand >>= fun z => total ⟨z, more⟩ :=
  List.foldlM_cons

/-- The value of a row: the values of all its operands, then the operators from the left. -/
def value (f : α → Except Misuse Binary64) (row : Row tier α) : Except Misuse Binary64 :=
  row.mapM f >>= total

/-- Mapping a row and then running over it is one run. -/
theorem mapM_map (f : α → β) (g : β → Except Misuse γ) (row : Row tier α) :
    (row.map f).mapM g = row.mapM fun a => g (f a) := by
  simp only [mapM, map, List.mapM_map]
  rfl

/-- A row that has been mapped has the value of the row under both functions. -/
theorem value_map (f : α → β) (g : β → Except Misuse Binary64) (row : Row tier α) :
    (row.map f).value g = row.value fun a => g (f a) := by
  rw [value, value, mapM_map]

/-- A run over a row ends with its last link. -/
theorem mapM_concat (f : α → Except Misuse β) (first : α) (links : List (Link tier α))
    (link : Link tier α) :
    mapM f ⟨first, links ++ [link]⟩ = mapM f ⟨first, links⟩ >>= fun row =>
      link.mapM f >>= fun last => .ok ⟨row.first, row.links ++ [last]⟩ := by
  simp only [mapM, List.mapM_append, List.mapM_cons, List.mapM_nil, bind_assoc, pure_bind]
  rfl

/-- What is done to the last operand can be done to what a step returns for it. -/
theorem mapM_mapLast {f : α → Except Misuse β} {g : α → α} {h : β → β}
    (same : ∀ a, f (g a) = f a >>= fun b => .ok (h b)) (row : Row tier α) :
    (row.mapLast g).mapM f = row.mapM f >>= fun row => .ok (row.mapLast h) := by
  rcases row.eq_single_or_concat with ⟨a, rfl⟩ | ⟨first, links, link, rfl⟩
  · rw [mapLast_single]
    simp only [mapM, same, List.mapM_nil, bind_assoc, pure_bind]
    rfl
  · have last : (link.map g).mapM f = link.mapM f >>= fun link => .ok (link.map h) := by
      simp only [Link.mapM, Link.map, same, bind_assoc, pure_bind]
      rfl
    rw [mapLast_concat, mapM_concat, mapM_concat, last]
    simp only [bind_assoc]
    refine congrArg (mapM f ⟨first, links⟩ >>= ·) (funext fun row => ?_)
    refine congrArg (link.mapM f >>= ·) (funext fun link => ?_)
    exact congrArg Except.ok (mapLast_concat h row.first row.links link).symm

/-- The operators of a row go on from any two values. -/
theorem exists_apply (link : Link tier α) (x y : Binary64) :
    ∃ z, Expr.apply link.operator.text x y = .ok z :=
  Expr.exists_apply (isOperator_of_isSign link.isSign tier.symbols_subset) x y

/-- **A row of trees has the value of its tree.** -/
theorem value_tree (row : Row tier Expr) : row.tree.value = row.value Expr.value := by
  obtain ⟨first, links⟩ := row
  induction links generalizing first with
  | nil =>
    change first.value = _
    simp only [value, mapM, List.mapM_nil, pure_bind, bind_assoc]
    exact (bind_pure _).symm
  | cons link more ih =>
    change (tree ⟨.binary link.operator.text first link.operand, more⟩).value = _
    rw [ih]
    simp only [value, mapM, Expr.value_binary, List.mapM_cons, Link.mapM, pure_bind, bind_assoc]
    refine congrArg (first.value >>= ·) (funext fun x => ?_)
    refine congrArg (link.operand.value >>= ·) (funext fun y => ?_)
    obtain ⟨z, hz⟩ := exists_apply link x y
    -- The operator comes now or behind all operands, as it goes on from any values.
    rw [hz]
    refine congrArg (more.mapM (·.mapM Expr.value) >>= ·) (funext fun links => ?_)
    rw [total_cons, hz]
    rfl

end Row
end Grammar
end DeskCalculator
