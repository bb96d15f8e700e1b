/-
# How an evaluation ends

An evaluation goes through five stages, and each of them leaves the next one what it relies on: the
scanner well-formed tokens, the parser a known tree, the operations a value.  So an evaluation ends
with a finite number or with a fault that names the text it was asked for; no text leads to a
misuse, which a token, a tree or an operand put together by hand can lead to.

The last theorem adds to this what a fault tells: its kind and code are one of the pairs of
`Fault.kinds`, and both the code and its first digit are explained.
-/

import DeskCalculator.Calculation
import DeskCalculator.Proofs.Evaluation.Known
import DeskCalculator.Proofs.Grammar.Parsing

namespace DeskCalculator

/-- The kind and the code of every fault. -/
def Fault.kinds : List (Fault.Family × String) := [
  (.invalidCharacter, "3030"),
  (.malformedNumber, "3008"), (.malformedNumber, "3031"),
  (.unknownIdentifier, "3032"),
  (.unmatchedParenthesis, "3009"), (.unmatchedParenthesis, "3217"),
  (.grammar, "3011"), (.grammar, "3023"), (.grammar, "3027"), (.grammar, "3029"),
  (.grammar, "3034"), (.grammar, "3036"),
  (.trailingInput, "3033"),
  (.domain, "3035")]

/-- Every fault is of one of the kinds. -/
theorem Fault.mem_kinds (f : Fault) : (f.family, f.code) ∈ kinds := by
  cases f <;> simp [family, code, kinds]

/-- The first digit of every code is that of a category. -/
theorem Fault.isSome_category?_code (f : Fault) :
    (category? (.ofList (f.code.toList.take 1))).isSome = true := by
  have h : String.ofList (f.code.toList.take 1) = "3" := by cases f <;> simp [code]
  rw [h]
  rfl

/-- What validation refuses is a fault. -/
theorem isFault_of_validate {text : CodeText} {e : Failure} (h : validate text = .error e) :
    e.IsFault := by
  unfold validate at h
  split at h
  · cases h
  · split at h
    · exact Fault.isFault_of_raise h
    · cases h

/-- The tokens of a text are well-formed. -/
theorem wellFormed_of_tokensOf {text : Option CodeText} {ts : List Token}
    (h : tokensOf text = .ok ts) : ∀ t ∈ ts, t.WellFormed := by
  obtain ⟨_, -, scanned⟩ := bind_eq_ok.1 h
  exact Token.wellFormed_of_scan scanned

/-- A text fails to be cut into tokens only with a fault. -/
theorem isFault_of_tokensOf {text : Option CodeText} {e : Failure}
    (h : tokensOf text = .error e) : e.IsFault := by
  rcases bind_eq_error.1 h with invalid | ⟨_, -, scanned⟩
  · exact isFault_of_validate invalid
  · exact Token.isFault_of_scan scanned

/-- The tree that the parser makes of well-formed tokens has a value, which is finite or a fault. -/
theorem valueOf_of_parse {ts : List Token} {tree : Option Graded} (wf : ∀ t ∈ ts, t.WellFormed)
    (h : parse ts = .ok tree) :
    (∃ x, valueOf (tree.map Graded.tree) = .ok x ∧ x.isFinite = true) ∨
      ∃ e, valueOf (tree.map Graded.tree) = .error e ∧ e.IsFault := by
  cases tree with
  | none => exact .inl ⟨.zero false, rfl, rfl⟩
  | some g =>
    obtain ⟨d, -, -, -, hd⟩ := exists_derivation_of_parse wf h
    obtain ⟨x, hx⟩ := Expr.exists_value (hd ▸ d.isKnown)
    simp only [Option.map_some, valueOf, hx]
    split
    · rename_i finite
      exact .inl ⟨x, rfl, finite⟩
    · exact .inr ⟨_, rfl, _, rfl⟩

/-- An evaluation whose tokens are found goes on with what they are parsed as. -/
theorem evaluate_of_tokensOf {text : Option CodeText} {ts : List Token}
    (h : tokensOf text = .ok ts) :
    evaluate text = (parse ts >>= fun tree => valueOf (tree.map Graded.tree)).mapError
      (.withEquation text) := by
  unfold evaluate
  rw [h]
  rfl

/-- An evaluation whose tree is found ends with the value of the tree. -/
theorem evaluate_of_parse {text : Option CodeText} {ts : List Token} {tree : Option Graded}
    (h : tokensOf text = .ok ts) (parsed : parse ts = .ok tree) :
    evaluate text = (valueOf (tree.map Graded.tree)).mapError (.withEquation text) := by
  rw [evaluate_of_tokensOf h, parsed]
  rfl

/-- **An evaluation ends with a finite number or with a fault that names its text.** -/
theorem evaluate_cases (text : Option CodeText) :
    (∃ x, evaluate text = .ok x ∧ x.isFinite = true) ∨
      ∃ f, evaluate text = .error (.fault f text) := by
  cases ht : tokensOf text with
  | error e =>
    obtain ⟨f, rfl⟩ := isFault_of_tokensOf ht
    refine .inr ⟨f, ?_⟩
    unfold evaluate
    rw [ht]
    rfl
  | ok ts =>
    have wf := wellFormed_of_tokensOf ht
    cases hp : parse ts with
    | error e =>
      obtain ⟨f, rfl⟩ := isFault_of_parse wf hp
      refine .inr ⟨f, ?_⟩
      rw [evaluate_of_tokensOf ht, hp]
      rfl
    | ok tree =>
      rw [evaluate_of_parse ht hp]
      rcases valueOf_of_parse wf hp with ⟨x, hx, finite⟩ | ⟨_, hx, f, rfl⟩
      · rw [hx]
        exact .inl ⟨x, rfl, finite⟩
      · rw [hx]
        exact .inr ⟨f, rfl⟩

/-- A calculation fails as its evaluation does: a finite number can be shown. -/
theorem calculate_cases (text : Option CodeText) :
    (∃ result, calculate text = .ok result) ∨ ∃ f, calculate text = .error (.fault f text) := by
  unfold calculate
  rcases evaluate_cases text with ⟨x, hx, finite⟩ | ⟨f, hf⟩
  · cases x with
    | nan => cases finite
    | infinite negative => cases finite
    | finite negative m =>
      rw [hx]
      exact .inl ⟨_, rfl⟩
  · rw [hf]
    exact .inr ⟨f, rfl⟩

/-- **For every text, an evaluation ends as its contract says.**  It returns a finite number, or it
ends with a fault that carries the text exactly as it was given, whose kind and code are one of the
fourteen pairs, whose code is explained and the first digit of whose code is that of a category.  So
it never ends with an unknown name or operator, an unreadable number or a trap of an operation. -/
theorem evaluate_eq_ok_or_eq_fault (text : Option CodeText) :
    (∃ x, evaluate text = .ok x ∧ x.isFinite = true) ∨
    ∃ f : Fault, evaluate text = .error (.fault f text) ∧ (f.family, f.code) ∈ Fault.kinds ∧
      (Fault.explanation? f.code).isSome = true ∧
      (Fault.category? (.ofList (f.code.toList.take 1))).isSome = true := by
  rcases evaluate_cases text with finite | ⟨f, hf⟩
  · exact .inl finite
  · exact .inr ⟨f, hf, f.mem_kinds, f.isSome_explanation?_code, f.isSome_category?_code⟩

end DeskCalculator
