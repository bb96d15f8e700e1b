/-
# Depth counts activations

The depth of a tree is recorded when the tree is built, one node at a time, from the depths of the
operands.  What it stands for shows only when the tree is evaluated: the evaluation of a node calls
those of others, and the depth is the largest number of evaluations that have begun and not ended.

Which nodes an evaluation calls depends on where a chain begins and ends (`Expr.calls`): a chain of
operators that group from the left goes down its left side in a loop to its bottom, and goes up with
one right operand after the other.  So the evaluation is written out here as it goes on, with a
gauge that goes up when an evaluation begins and down when it ends (`Expr.evaluate`).  Watched in
this way a tree has the value it has (`Expr.value`), and the gauge reaches the depth of the tree
(`Expr.peaks_evaluate`).
-/

import DeskCalculator.Proofs.Evaluation.PostOrder
import DeskCalculator.Proofs.Gauge
import DeskCalculator.Proofs.Grammar.Bounded
import DeskCalculator.Proofs.Grammar.Parsing

namespace DeskCalculator

/-! ## Watching an evaluation -/

/-- An evaluation with a gauge, which is left in some position also when the evaluation fails. -/
abbrev Watched := ExceptT Misuse (StateM Gauge)

/-- An evaluation begins, goes on, and ends, with a value or without. -/
def Watched.activation {α : Type} (body : Watched α) : Watched α := fun gauge =>
  let (outcome, gauge) := body gauge.enter
  (outcome, gauge.leave)

/-! ## What an evaluation calls -/

namespace Expr

/-- The node below a chain. -/
def bottom : Expr → Expr
  | .binary operator left right =>
    if groupsLeft operator then left.bottom else .binary operator left right
  | e => e

/-- The operators of a chain from the bottom up, each with its right operand. -/
def spine : Expr → List (String × Expr)
  | .binary operator left right =>
    if groupsLeft operator then left.spine ++ [(operator, right)] else []
  | _ => []

/-- The bottom of a spine is a part of the tree. -/
theorem sizeOf_bottom_le (e : Expr) : sizeOf e.bottom ≤ sizeOf e := by
  induction e with
  | binary operator left right ihl ihr =>
    rw [bottom]
    split
    · rw [binary.sizeOf_spec]
      omega
    · exact Nat.le_refl _
  | _ => exact Nat.le_refl _

/-- The bottom of the left side is smaller than the tree. -/
theorem sizeOf_bottom_lt (operator : String) (left right : Expr) :
    sizeOf left.bottom < sizeOf (binary operator left right) := by
  have := left.sizeOf_bottom_le
  rw [binary.sizeOf_spec]
  omega

/-- The operands along a spine are smaller than the tree. -/
theorem sizeOf_lt_of_mem_spine {e : Expr} : ∀ step ∈ e.spine, sizeOf step.2 < sizeOf e := by
  induction e with
  | binary operator left right ihl ihr =>
    intro step h
    rw [binary.sizeOf_spec]
    rw [spine] at h
    split at h
    · rcases List.mem_append.1 h with h | h
      · have := ihl step h
        omega
      · cases List.mem_singleton.1 h
        exact Nat.lt_add_of_pos_left (by omega)
    · cases h
  | _ => exact List.forall_mem_nil _

/-- The spine of a tree that groups to the left goes on with its own operator. -/
theorem spine_of_groupsLeft {operator : String} {left right : Expr}
    (h : groupsLeft operator = true) :
    (binary operator left right).spine = left.spine ++ [(operator, right)] := by
  rw [spine, if_pos h]

/-- The evaluation of a tree as it goes on. -/
def evaluate : Expr → Watched Binary64
  | .literal value => Watched.activation (pure value)
  | .constant name => Watched.activation (constantValue name)
  | .negation operand => Watched.activation do return -(← operand.evaluate)
  | .binary operator left right => Watched.activation <|
    if groupsLeft operator then do
      let x ← left.bottom.evaluate
      (binary operator left right).spine.attach.foldlM
        (fun x ⟨step, _⟩ => do apply step.1 x (← step.2.evaluate)) x
    else do
      let x ← left.evaluate
      let y ← right.evaluate
      apply operator x y
  | .call function argument => Watched.activation do
    let f ← functionOf function
    let x ← argument.evaluate
    (f x).mapError Misuse.trapped
  termination_by e => sizeOf e
  decreasing_by
    · simp +arith
    · exact sizeOf_bottom_lt operator left right
    · exact sizeOf_lt_of_mem_spine _ ‹_›
    all_goals simp +arith

/-- Goes on behind an operator of a chain. -/
def goOn (x : Binary64) (step : String × Expr) : Watched Binary64 := do
  apply step.1 x (← step.2.evaluate)

/-- An operator that groups to the left goes along the spine from its bottom; any other one
evaluates its two sides. -/
theorem evaluate_binary (operator : String) (left right : Expr) :
    (binary operator left right).evaluate = Watched.activation (
      if groupsLeft operator then
        left.bottom.evaluate >>= (binary operator left right).spine.foldlM goOn
      else
        left.evaluate >>= fun x => right.evaluate >>= fun y => liftM (apply operator x y)) := by
  have loop (steps : List (String × Expr)) (x : Binary64) :
      steps.attach.foldlM (fun x step => goOn x step.1) x = steps.foldlM goOn x := by
    rw [List.foldlM_subtype (g := goOn) fun _ _ _ => rfl, List.unattach_attach]
  rw [evaluate]
  simp only [← loop, goOn]

/-! ## The depth of what is called -/

/-- The nodes whose evaluations the evaluation of a node calls, one after the other: in a chain the
bottom of the chain and then all the right operands. -/
def calls : Expr → List Expr
  | .literal _ | .constant _ => []
  | .negation operand => [operand]
  | .binary operator left right =>
    if groupsLeft operator then
      left.bottom :: (binary operator left right).spine.map Prod.snd
    else [left, right]
  | .call _ argument => [argument]

/-- The largest depth of some trees. -/
def deepest (es : List Expr) : Nat := (es.map depth).foldr max 0

/-- Of no trees, none is deep. -/
@[simp] theorem deepest_nil : deepest [] = 0 := rfl

/-- The deepest of some trees is the first or the deepest of the others. -/
@[simp] theorem deepest_cons (e : Expr) (es : List Expr) :
    deepest (e :: es) = max e.depth (deepest es) := rfl

/-- The deepest tree of two lists is the deeper of their deepest ones. -/
theorem deepest_append (es es' : List Expr) :
    deepest (es ++ es') = max (deepest es) (deepest es') := by
  rw [deepest, List.map_append, List.foldr_append, ← deepest, ← Nat.zero_max (deepest es'),
    List.foldr_assoc, Nat.zero_max, ← deepest]

/-- The activations that a chain starts are those of its bottom and of the operands along its
spine. -/
theorem calls_of_isChain {e : Expr} (h : e.isChain = true) :
    e.calls = e.bottom :: e.spine.map Prod.snd := by
  cases e with
  | binary operator left right =>
    have groups : groupsLeft operator = true := h
    rw [calls, bottom, if_pos groups, if_pos groups]
  | _ => cases h

/-- What is no chain is its own bottom. -/
theorem bottom_of_not_isChain {e : Expr} (h : e.isChain = false) : e.bottom = e := by
  cases e with
  | binary operator left right =>
    have alone : groupsLeft operator = false := h
    rw [bottom, alone]
    rfl
  | _ => rfl

/-- What is no chain has no spine. -/
theorem spine_of_not_isChain {e : Expr} (h : e.isChain = false) : e.spine = [] := by
  cases e with
  | binary operator left right =>
    have alone : groupsLeft operator = false := h
    rw [spine, alone]
    rfl
  | _ => rfl

/-- **The depth of a node is one more than the largest depth of what its evaluation calls.**  It is
counted along a chain one node at a time, but adds one to the whole chain. -/
theorem depth_eq_calls (e : Expr) : e.depth = deepest e.calls + 1 := by
  induction e with
  | literal | constant => rfl
  | negation operand => simp [depth, calls]
  | call _ argument => simp [depth, calls]
  | binary operator left right ihl ihr =>
    rw [depth, calls]
    by_cases groups : groupsLeft operator = true
    · rw [if_pos groups, groups, Bool.true_and, spine_of_groupsLeft groups, List.map_append,
        ← List.cons_append, deepest_append]
      cases chain : left.isChain with
      | true =>
        -- The node makes a chain longer, which has been counted already.
        rw [if_pos rfl, ihl, calls_of_isChain chain]
        simp only [List.map_cons, List.map_nil, deepest_cons, deepest_nil]
        omega
      | false =>
        rw [if_neg Bool.false_ne_true, bottom_of_not_isChain chain, spine_of_not_isChain chain]
        simp
    · simp [groups]

end Expr

/-! ## How far the gauge goes up -/

namespace Watched

variable {α β : Type} {x : Watched α} {f : α → Watched β} {r : Except Misuse α}
  {s : α → Except Misuse β} {m n : Nat}

/-- What is watched has an outcome, and wherever the gauge stands, it goes up by `n` above that if
there is a value in the end, and by no more if there is none. -/
def Peaks (x : Watched α) (outcome : Except Misuse α) (n : Nat) : Prop :=
  ∃ k ≤ n, (∀ a, outcome = .ok a → k = n) ∧ ∀ gauge, x gauge = (outcome, gauge.raised k)

/-- What calls nothing leaves the gauge where it is. -/
theorem peaks_liftM (r : Except Misuse α) : Peaks (liftM r) r 0 :=
  ⟨0, Nat.le_refl 0, fun _ _ => rfl, fun gauge => by rw [gauge.raised_zero]; rfl⟩

/-- Of two evaluations one after the other the higher one counts. -/
theorem Peaks.bind (hx : Peaks x r m) (hf : ∀ a, Peaks (f a) (s a) n) :
    Peaks (x >>= f) (r >>= s) (max m n) := by
  obtain ⟨j, hj, reached, hx⟩ := hx
  cases r with
  | error e =>
    refine ⟨j, Nat.le_trans hj (Nat.le_max_left m n), fun _ h => ?_, fun gauge => ?_⟩
    · cases h
    · exact Gauge.bind_of_error (hx gauge)
  | ok a =>
    obtain ⟨k, hk, reached', hf⟩ := hf a
    cases reached a rfl
    refine ⟨max m k, by omega, fun b h => by rw [reached' b h], fun gauge => ?_⟩
    rw [Gauge.bind_of_ok (hx gauge), hf, gauge.raised_raised]
    rfl

/-- An evaluation counts itself on top of what it calls. -/
theorem Peaks.activation (hx : Peaks x r n) : Peaks x.activation r (n + 1) := by
  obtain ⟨k, hk, reached, hx⟩ := hx
  refine ⟨k + 1, Nat.succ_le_succ hk, fun a h => by rw [reached a h], fun gauge => ?_⟩
  rw [← gauge.leave_raised_enter, Watched.activation, hx]

/-- Along a list the highest evaluation counts. -/
theorem peaks_foldlM {step : β → α → Watched β} {outcome : β → α → Except Misuse β}
    {height : α → Nat} : ∀ {as : List α},
      (∀ a ∈ as, ∀ b, Peaks (step b a) (outcome b a) (height a)) →
      ∀ b, Peaks (as.foldlM step b) (as.foldlM outcome b) ((as.map height).foldr max 0)
  | [], _, b => peaks_liftM (.ok b)
  | a :: as, h, b => by
      rw [List.foldlM_cons, List.foldlM_cons, List.map_cons, List.foldr_cons]
      exact (h a List.mem_cons_self b).bind
        (peaks_foldlM fun a' ha' => h a' (List.mem_cons_of_mem a ha'))

end Watched

namespace Expr

open Watched

/-- The value of a tree is made from the bottom of its chain upwards. -/
theorem inPostOrder_eq_spine (e : Expr) :
    e.inPostOrder = e.bottom.inPostOrder >>=
      e.spine.foldlM fun x step => step.2.inPostOrder >>= fun y => apply step.1 x y := by
  induction e with
  | binary operator left right ihl ihr =>
    rw [bottom, spine]
    split
    · rw [inPostOrder, ihl, bind_assoc]
      simp only [List.foldlM_append, List.foldlM_cons, List.foldlM_nil, bind_pure]
    · simp only [List.foldlM_nil, bind_pure]
  | _ => simp only [bottom, spine, List.foldlM_nil, bind_pure]

/-- **Watched, a tree has its value, and the gauge goes up by its depth.** -/
theorem peaks_evaluate : ∀ e : Expr, Peaks e.evaluate e.inPostOrder e.depth
  | .literal value => by
      rw [evaluate]
      exact (peaks_liftM (.ok value)).activation
  | .constant name => by
      rw [evaluate]
      exact (peaks_liftM (constantValue name)).activation
  | .negation operand => by
      rw [evaluate, depth, ← Nat.max_zero operand.depth]
      exact ((peaks_evaluate operand).bind fun x => peaks_liftM (.ok (-x))).activation
  | .binary operator left right => by
      rw [depth_eq_calls, evaluate_binary, calls]
      split
      · rename_i groups
        have along : ∀ step ∈ (binary operator left right).spine, ∀ x,
            Peaks (goOn x step) (step.2.inPostOrder >>= fun y => apply step.1 x y)
              step.2.depth := fun step h x => by
          have smaller := sizeOf_lt_of_mem_spine step h
          rw [← Nat.max_zero step.2.depth]
          exact (peaks_evaluate step.2).bind fun y => peaks_liftM (apply step.1 x y)
        have smaller := sizeOf_bottom_lt operator left right
        rw [inPostOrder_eq_spine, bottom, if_pos groups, deepest_cons, deepest, List.map_map]
        exact ((peaks_evaluate left.bottom).bind (peaks_foldlM along)).activation
      · rw [inPostOrder, deepest_cons, deepest_cons, deepest_nil]
        exact ((peaks_evaluate left).bind fun x => (peaks_evaluate right).bind fun y =>
          peaks_liftM (apply operator x y)).activation
  | .call function argument => by
      rw [depth, evaluate, inPostOrder, ← Nat.zero_max argument.depth,
        ← Nat.max_zero argument.depth]
      exact ((peaks_liftM (functionOf function)).bind fun f =>
        (peaks_evaluate argument).bind fun x =>
          peaks_liftM ((f x).mapError .trapped)).activation
  termination_by e => sizeOf e

/-- The most evaluations that go on at once when the tree is evaluated. -/
def mostActive (e : Expr) : Nat := (e.evaluate .idle).2.most

end Expr

open Grammar

/-- **The depth of a tree is the largest number of evaluations that are nested in each other.**  It
is one more than the depth of whatever the evaluation of the tree calls; an evaluation that is
watched has the value of the tree as its outcome, reaches the depth if there is a value, and never
goes beyond.  So whatever tree the parser returns, at most 400 evaluations are nested. -/
theorem Graded.depth_eq_mostActive (g : Graded) :
    g.depth = Expr.deepest g.tree.calls + 1 ∧ (g.tree.evaluate .idle).1 = g.tree.value ∧
      g.tree.mostActive ≤ g.depth ∧ (∀ x, g.tree.value = .ok x → g.tree.mostActive = g.depth) ∧
      ∀ ts, parse ts = .ok (some g) → g.tree.mostActive ≤ 400 := by
  obtain ⟨k, hk, reached, run⟩ := g.tree.peaks_evaluate
  rw [g.depth_eq] at hk reached
  have most : g.tree.mostActive = k := by
    rw [Expr.mostActive, run]
    exact (Nat.zero_max _).trans (Nat.zero_add k)
  rw [Expr.value_eq_inPostOrder, most]
  refine ⟨?_, ?_, hk, reached, fun ts parsed => Nat.le_trans hk (depth_le_of_parse parsed)⟩
  · rw [← g.depth_eq, Expr.depth_eq_calls]
  · rw [run]

/-- A chain with a power in it: the chain itself, the power and its operands. -/
theorem Graded.depth_eq_mostActive_chain : ∃ ts g, Token.scan "1-2^2-1" = .ok ts ∧
    parse ts = .ok (some g) ∧ (g.tree.evaluate .idle).1 = .ok (-.ofNat 4) ∧ g.depth = 3 ∧
      g.tree.mostActive = 3 ∧ 3 ≤ 400 := by
  have one : Binary64.ofText? "1" = some (.ofNat 1) := by decide +kernel
  have two : Binary64.ofText? "2" = some (.ofNat 2) := by decide +kernel
  let first : Derivation .power := .unary (.atom (.number ⟨.number, "1", 0⟩ _ rfl one))
  let square : Derivation .power :=
    .raised (.atom (.number ⟨.number, "2", 2⟩ _ rfl two)) ⟨.operator, "^", 3⟩
      (.unary (.atom (.number ⟨.number, "2", 4⟩ _ rfl two))) ⟨rfl, '^', by decide, rfl⟩
  let last : Derivation .power := .unary (.atom (.number ⟨.number, "1", 6⟩ _ rfl one))
  let behind : Links .sum :=
    .cons ⟨.operator, "-", 5⟩ (.chain last .nil) .nil ⟨rfl, '-', by decide, rfl⟩
  let d : Derivation (.chain .sum) := .chain (.chain first .nil)
    (.cons ⟨.operator, "-", 1⟩ (.chain square .nil) behind ⟨rfl, '-', by decide, rfl⟩)
  have parsed : parse d.tokens = .ok (some (.ofTree d.tree)) :=
    parse_tokens (show 1 ≤ 100 by decide) (show 3 ≤ 400 by decide)
  have value : d.tree.value = .ok (-.ofNat 4) := by
    have tree : d.tree = .binary "-" (.binary "-" (.literal (.ofNat 1))
      (.binary "^" (.literal (.ofNat 2)) (.literal (.ofNat 2)))) (.literal (.ofNat 1)) := rfl
    rw [tree]
    decide +kernel
  obtain ⟨-, outcome, -, reached, within⟩ := Graded.depth_eq_mostActive (.ofTree d.tree)
  have most : d.tree.mostActive = 3 := reached _ value
  exact ⟨d.tokens, .ofTree d.tree, rfl, parsed, outcome.trans value, rfl, most,
    most ▸ within d.tokens parsed⟩

end DeskCalculator
