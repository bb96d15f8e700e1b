/-
# No tree is too deep

A reader checks every node that it puts on top of something, and the trees of single tokens are
never too deep.  So whatever it is given, well-formed or not, the tree that it reads is at most as
deep as a tree may be (`Reader.Bounded`), and so is the tree that the parser returns
(`depth_le_of_parse`).
-/

import DeskCalculator.Proofs.Grammar.Reading

namespace DeskCalculator
namespace Reader

/-- A reader that reads no tree that is too deep. -/
def Bounded (r : Reader) : Prop :=
  ∀ {ts rest : List Token} {g : Graded}, r.read ts = .ok (g, rest) → g.depth ≤ maxDepth

variable {deeper : Level} {r operand : Reader} {ts rest : List Token} {g : Graded}

/-- Nothing is read without room for it. -/
theorem bounded_exhausted : exhausted.Bounded := fun h => by cases h

/-- A tree that is put around another is checked. -/
theorem bounded_wrap {node : Graded → Graded} : (r.wrap node).Bounded := fun h =>
  let ⟨_, _, _, depth⟩ := wrap_eq_ok.1 h
  depth

/-- Parentheses leave the depth of a tree as it is. -/
theorem bounded_parenthesized {unclosed : Fault} (hr : r.Bounded) :
    (r.parenthesized unclosed).Bounded := fun h =>
  let ⟨_, _, inside⟩ := parenthesized_eq_ok.1 h
  hr inside

/-- Along a chain every link is checked. -/
theorem depth_le_of_links {accepts : Token → Bool} : ∀ {ts : List Token} {chain : Graded},
    chain.depth ≤ maxDepth → links accepts operand chain ts = .ok (g, rest) →
      g.depth ≤ maxDepth := by
  intro ts chain hc h
  fun_induction links accepts operand chain ts with
  | case1 =>
    cases h
    exact hc
  | case2 => cases h
  | case3 => cases h
  | case4 chain t ts _ right rest' _ longer checks ih =>
    obtain ⟨rfl, depth⟩ := checked_eq_ok.1 checks
    exact ih depth h
  | case5 =>
    cases h
    exact hc

/-- Every tree along a chain is checked. -/
theorem bounded_chain {accepts : Token → Bool} (ho : operand.Bounded) :
    (chain accepts operand).Bounded := fun h =>
  let ⟨_, first, rest⟩ := bind_eq_ok.1 h
  depth_le_of_links (ho first) rest

/-- What is read behind a name is not too deep: a name alone is a leaf, a call is checked. -/
theorem depth_le_of_named {name : String} (h : named deeper name ts = .ok (g, rest)) :
    g.depth ≤ maxDepth := by
  have uncalled {ts : List Token} (h : named.uncalled name ts = .ok (g, rest)) :
      g.depth ≤ maxDepth := by
    unfold named.uncalled at h
    split at h
    · cases h
      exact one_le_maxDepth
    · split at h <;> cases h
  unfold named at h
  split at h
  · split at h
    · split at h
      · exact bounded_wrap h
      · split at h <;> cases h
    · exact uncalled h
  · exact uncalled h

/-- A number is a leaf, and everything else in a factor is bounded. -/
theorem bounded_factor (hs : deeper.sum.Bounded) : (factor deeper).Bounded := by
  intro ts rest g h
  cases ts with
  | nil => cases h
  | cons t ts =>
    simp only [factor] at h
    split at h
    · split at h
      · cases h
        exact one_le_maxDepth
      · cases h
    · exact bounded_parenthesized hs h
    · exact depth_le_of_named h
    · cases h

/-- A sign is put around a tree and checked. -/
theorem bounded_unary (hs : deeper.sum.Bounded) : (unary deeper).Bounded := by
  intro ts rest g h
  cases ts with
  | nil => cases h
  | cons t ts =>
    simp only [unary] at h
    split at h
    · exact bounded_wrap h
    · exact bounded_factor hs h

/-- A power is put around two trees and checked. -/
theorem bounded_power (hs : deeper.sum.Bounded) : (power deeper).Bounded := by
  intro ts rest g h
  obtain ⟨⟨base, behind⟩, read, h⟩ := bind_eq_ok.1 h
  have shallow : base.depth ≤ maxDepth := bounded_unary hs read
  cases behind with
  | nil =>
    cases h
    exact shallow
  | cons t behind =>
    simp only [exponent] at h
    split at h
    · exact bounded_wrap h
    · cases h
      exact shallow

/-- The sums of a level are as bounded as those inside it. -/
theorem bounded_sum (hs : deeper.sum.Bounded) : (sum deeper).Bounded :=
  bounded_chain (bounded_chain (bounded_power hs))

/-- Every level reads bounded trees, by induction over the levels below it. -/
theorem bounded_level : ∀ n : Nat, (level n).sum.Bounded
  | 0 => bounded_exhausted
  | n + 1 => bounded_sum (bounded_level n)

end Reader

/-- **The parser returns no tree that is too deep**, whatever tokens it is given. -/
theorem depth_le_of_parse {ts : List Token} {g : Graded} (h : parse ts = .ok (some g)) :
    g.depth ≤ Reader.maxDepth := by
  cases ts with
  | nil => cases h
  | cons t ts =>
    obtain ⟨⟨tree, rest⟩, read, h⟩ := bind_eq_ok.1 h
    cases rest with
    | nil =>
      cases h
      exact Reader.bounded_level _ read
    | cons => cases h

end DeskCalculator
