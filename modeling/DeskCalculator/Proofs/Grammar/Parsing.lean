/-
# The parser decides the grammar

The parser reads a whole sum with the readers of the outermost level, which have room for a nesting
of `Reader.maxNesting`, and accepts it if nothing is left.  So it finds the derivation of its tokens
if there is one within the limits (`parse_tokens`), finds nothing else
(`exists_derivation_of_parse`) and refuses everything that it does not accept with a fault
(`isFault_of_parse`).
-/

import DeskCalculator.Proofs.Grammar.Reading

namespace DeskCalculator

open Grammar

/-- What a parser does with tokens is to read a sum and to look whether it is all. -/
theorem parse_of_ne_nil {ts : List Token} (ne : ts ≠ []) :
    parse ts = (Reader.level (Reader.maxNesting + 1)).sum.read ts >>= fun
      | (tree, []) => .ok (some tree)
      | (_, t :: _) => (Fault.trailingInput t.text t.position).raise := by
  cases ts with
  | nil => exact absurd rfl ne
  | cons t ts => rfl

/-- **What has a derivation within the limits is accepted, with the tree of the derivation.** -/
theorem parse_tokens {d : Derivation (.chain .sum)} (nest : d.nest ≤ Reader.maxNesting)
    (depth : d.tree.depth ≤ Reader.maxDepth) :
    parse d.tokens = .ok (some (.ofTree d.tree)) := by
  have read := (reads_level (Reader.maxNesting + 1)).sum.complete (Nat.lt_succ_of_le nest) depth
    (stops_nil _) noneOpens_nil
  rw [List.append_nil] at read
  rw [parse_of_ne_nil d.tokens_ne_nil, read]
  rfl

/-- **What is accepted has a derivation within the limits, with the same tree.** -/
theorem exists_derivation_of_parse {ts : List Token} {g : Graded} (wf : ∀ t ∈ ts, t.WellFormed)
    (h : parse ts = .ok (some g)) :
    ∃ d : Derivation (.chain .sum), d.tokens = ts ∧ d.nest ≤ Reader.maxNesting ∧
      d.tree.depth ≤ Reader.maxDepth ∧ d.tree = g.tree := by
  have ne : ts ≠ [] := by
    rintro rfl
    cases h
  rw [parse_of_ne_nil ne] at h
  obtain ⟨⟨tree, rest⟩, hr, h⟩ := bind_eq_ok.1 h
  cases rest with
  | cons t rest => cases h
  | nil =>
    cases h
    obtain ⟨d, hts, htree, nest, depth, -⟩ := (reads_level _).sum.sound wf hr
    rw [List.append_nil] at hts
    rw [← g.depth_eq, ← htree] at depth
    exact ⟨d, hts.symm, Nat.le_of_lt_succ nest, depth, htree⟩

/-- **What is refused is refused with a fault.** -/
theorem isFault_of_parse {ts : List Token} {e : Failure} (wf : ∀ t ∈ ts, t.WellFormed)
    (h : parse ts = .error e) : e.IsFault := by
  have ne : ts ≠ [] := by
    rintro rfl
    cases h
  rw [parse_of_ne_nil ne] at h
  rcases bind_eq_error.1 h with hr | ⟨⟨tree, rest⟩, -, h⟩
  · exact (reads_level _).sum.faults wf hr
  · cases rest with
    | nil => cases h
    | cons t rest => exact Fault.isFault_of_raise h

/-- Only no tokens at all are accepted without a tree. -/
theorem eq_nil_of_parse_none {ts : List Token} (h : parse ts = .ok none) : ts = [] := by
  by_contra ne
  rw [parse_of_ne_nil ne] at h
  obtain ⟨⟨tree, rest⟩, -, h⟩ := bind_eq_ok.1 h
  cases rest <;> cases h

/-- **The parser decides the grammar.**  On the tokens of a text it returns a tree exactly if they
have a derivation that nests at most 100 deep and whose tree is at most 400 deep, and then the tree
is that of the derivation; there is at most one derivation; and all other tokens are refused with a
fault of the expression. -/
theorem parse_eq_some_iff_derivation {text : CodeText} {ts : List Token}
    (scanned : Token.scan text = .ok ts) (ne : ts ≠ []) :
    (∀ g : Graded, parse ts = .ok (some g) ↔ ∃ d : Derivation (.chain .sum),
      d.tokens = ts ∧ d.nest ≤ 100 ∧ d.tree.depth ≤ 400 ∧ d.tree = g.tree) ∧
    (∀ d d' : Derivation (.chain .sum), d.tokens = ts → d'.tokens = ts → d = d') ∧
    ((¬∃ d : Derivation (.chain .sum), d.tokens = ts ∧ d.nest ≤ 100 ∧ d.tree.depth ≤ 400) →
      ∃ f, parse ts = .error (.fault f none)) := by
  have wf := Token.wellFormed_of_scan scanned
  refine ⟨fun g => ⟨fun h => exists_derivation_of_parse wf h, ?_⟩, ?_, fun none => ?_⟩
  · rintro ⟨d, rfl, nest, depth, tree⟩
    rw [parse_tokens nest depth, Graded.eq_of_tree (g := .ofTree d.tree) tree]
  · rintro d d' rfl h
    exact Derivation.eq_of_tokens h.symm
  · cases h : parse ts with
    | error e =>
      obtain ⟨f, rfl⟩ := isFault_of_parse wf h
      exact ⟨f, rfl⟩
    | ok tree =>
      cases tree with
      | none => exact absurd (eq_nil_of_parse_none h) ne
      | some g =>
        obtain ⟨d, hts, nest, depth, -⟩ := exists_derivation_of_parse wf h
        exact absurd ⟨d, hts, nest, depth⟩ none

/-- A minus sign binds tighter than a power: `-2^2` is the square of `-2`. -/
theorem parse_square_of_negation :
    let ts : List Token :=
      [⟨.operator, "-", 0⟩, ⟨.number, "2", 1⟩, ⟨.operator, "^", 2⟩, ⟨.number, "2", 3⟩]
    Token.scan "-2^2" = .ok ts ∧ ts ≠ [] ∧ ∃ g : Graded, parse ts = .ok (some g) ∧
      g.tree = .binary "^" (.negation (.literal (.ofNat 2))) (.literal (.ofNat 2)) := by
  intro ts
  have scanned : Token.scan "-2^2" = .ok ts := rfl
  have reads : Binary64.ofText? "2" = some (.ofNat 2) := by decide +kernel
  let base : Derivation .unary :=
    .minus ⟨.operator, "-", 0⟩ (.atom (.number ⟨.number, "2", 1⟩ (.ofNat 2) rfl reads))
      ⟨rfl, '-', List.mem_singleton_self _, rfl⟩
  let power : Derivation .power :=
    .raised base ⟨.operator, "^", 2⟩
      (.unary (.atom (.number ⟨.number, "2", 3⟩ (.ofNat 2) rfl reads)))
      ⟨rfl, '^', List.mem_singleton_self _, rfl⟩
  let d : Derivation (.chain .sum) := .chain (.chain power .nil) .nil
  have nest : d.nest ≤ 100 := show 1 ≤ 100 by decide
  have depth : d.tree.depth ≤ 400 := show 3 ≤ 400 by decide
  refine ⟨scanned, List.cons_ne_nil _ _, .ofTree d.tree, ?_, rfl⟩
  exact ((parse_eq_some_iff_derivation scanned (List.cons_ne_nil _ _)).1 _).2
    ⟨d, rfl, nest, depth, rfl⟩

end DeskCalculator
