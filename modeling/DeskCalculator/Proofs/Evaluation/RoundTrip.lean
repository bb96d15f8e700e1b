/-
# What is shown can be typed back in

The display shows a finite number as digits in place around a point, behind a minus sign if it is
negative.  Read as an expression, that is a literal or the negation of one, and the literal shows a
number that rounds to the magnitude that was printed: so a number that is shown and evaluated again
is the same double, except that both zeros are shown as `0` and come back as the positive one.  What
a calculation shows is therefore a fixed point of calculating.
-/

import DeskCalculator.Proofs.Decimal.Positional
import DeskCalculator.Proofs.Evaluation.Outcome
import DeskCalculator.Proofs.Token.Concatenation

namespace DeskCalculator

open Grammar

/-- The derivation of one number. -/
def Grammar.Derivation.ofNumber (t : Token) (x : Binary64) (isNumber : t.kind = .number)
    (reads : Binary64.ofText? t.text = some x) : Derivation (.chain .sum) :=
  .chain (.chain (.unary (.atom (.number t x isNumber reads))) .nil) .nil

/-- The derivation of one number behind a minus sign. -/
def Grammar.Derivation.ofNegative (sign t : Token) (x : Binary64) (isMinus : sign.IsSign ['-'])
    (isNumber : t.kind = .number) (reads : Binary64.ofText? t.text = some x) :
    Derivation (.chain .sum) :=
  .chain (.chain (.unary (.minus sign (.atom (.number t x isNumber reads)) isMinus)) .nil) .nil

/-- The value of a tree that is a finite number. -/
theorem valueOf_eq_ok {e : Expr} {x : Binary64} (h : e.value = .ok x) (finite : x.isFinite = true) :
    valueOf (some e) = .ok x := by
  simp only [valueOf, h, finite, if_true]

/-- **A literal has its value, and behind a minus sign the negative of it.** -/
theorem evaluate_signed {cs : List Char} {x : Binary64} (h : Decimal.IsLiteral cs)
    (reads : Binary64.ofText? (.ofList cs) = some x) (finite : x.isFinite = true)
    (negative : Bool) :
    evaluate (some (.ofString (.ofList (Binary64.signText negative ++ cs)))) =
      .ok (if negative then -x else x) := by
  have tokens := tokensOf_eq_scan (Token.isInAlphabet_of_mem_signed h negative)
  rw [Token.scan_signed h] at tokens
  cases negative with
  | false =>
    have parsed := parse_tokens (d := .ofNumber ⟨.number, .ofList cs, 0⟩ x rfl reads)
      (Nat.zero_le _) Reader.one_le_maxDepth
    have value := valueOf_eq_ok (e := .literal x) rfl finite
    rw [evaluate_of_parse tokens parsed]
    exact congrArg (Except.mapError _) value
  | true =>
    have parsed := parse_tokens (d := .ofNegative ⟨.operator, "-", 0⟩ ⟨.number, .ofList cs, 1⟩ x
      ⟨rfl, '-', List.mem_singleton_self _, rfl⟩ rfl reads)
      (show 1 ≤ Reader.maxNesting by decide) (show 2 ≤ Reader.maxDepth by decide)
    have value := valueOf_eq_ok (e := .negation (.literal x)) (x := -x) rfl
      ((Binary64.isFinite_neg x).trans finite)
    rw [evaluate_of_parse tokens parsed]
    exact congrArg (Except.mapError _) value

/-- The positional form of the shortest decimal shows the magnitude it was found for. -/
theorem ofText?_positional_shortest (m : Magnitude) :
    Binary64.ofText? (.ofList (Decimal.shortest m).positional) = some (.finite false m) := by
  obtain ⟨d, hd, nearest⟩ := (Decimal.shortest m).exists_ofText?_positional
  rw [Binary64.ofText?, String.toList_ofList, hd]
  exact congrArg some ((nearest false).trans (Decimal.nearest_shortest false m))

/-- A zero is a number text. -/
theorem isLiteral_zero : Decimal.IsLiteral ['0'] := by
  have numeric : ∀ c ∈ ['0'], Token.isNumeric c = true := by simp [Token.isNumeric, Char.isDigit]
  exact ⟨numeric, by decide, by decide, by decide⟩

/-- A zero reads as the double. -/
theorem ofText?_zero : Binary64.ofText? "0" = some (.zero false) := by decide +kernel

/-- The text of both zeros has the positive one for its value. -/
theorem evaluate_zero : evaluate (some "0") = .ok (.zero false) :=
  evaluate_signed isLiteral_zero ofText?_zero rfl false

/-- **A finite number that is shown has itself for its value**, and either zero the positive one. -/
theorem evaluate_plain (negative : Bool) (m : Magnitude) :
    evaluate (some (Binary64.plain negative m)) =
      .ok (if m.quanta = 0 then .zero false else .finite negative m) := by
  unfold Binary64.plain
  by_cases hm : m.quanta = 0
  · rw [if_pos hm, if_pos hm]
    exact evaluate_zero
  · rw [if_neg hm, if_neg hm, evaluate_signed (Decimal.isLiteral_positional _)
      (ofText?_positional_shortest m) rfl]
    cases negative <;> rfl

/-- What is shown is shown again. -/
theorem calculate_plain (negative : Bool) (m : Magnitude) :
    calculate (some (Binary64.plain negative m)) = .ok (Binary64.plain negative m) := by
  rw [calculate, evaluate_plain]
  by_cases hm : m.quanta = 0
  · rw [if_pos hm, Binary64.plain, if_pos hm]
    rfl
  · rw [if_neg hm]
    rfl

/-- A calculation that succeeds shows a finite number. -/
theorem exists_plain_of_calculate {text : Option CodeText} {result : String}
    (h : calculate text = .ok result) : ∃ negative m, result = Binary64.plain negative m := by
  obtain ⟨x, -, h⟩ := bind_eq_ok.1 h
  cases x with
  | nan => cases h
  | infinite negative => cases h
  | finite negative m =>
    cases h
    exact ⟨negative, m, rfl⟩

/-- **What a calculation shows is a fixed point of calculating.** -/
theorem calculate_result {text : Option CodeText} {result : String}
    (h : calculate text = .ok result) : calculate (some result) = .ok result := by
  obtain ⟨negative, m, rfl⟩ := exists_plain_of_calculate h
  exact calculate_plain negative m

/-- **Showing and evaluating are inverse on the finite numbers.**  Every finite number can be shown,
and the text has the same double for its value, bit for bit, except that the negative zero comes
back as the positive one.  So calculating what a calculation shows changes nothing. -/
theorem evaluate_format :
    (∀ x : Binary64, x.isFinite = true → ∃ text, format x = .ok text ∧
      evaluate (some text) = .ok (if x.isZero then .zero false else x)) ∧
    ∀ (text : Option CodeText) (result : String), calculate text = .ok result →
      calculate (some result) = .ok result := by
  refine ⟨fun x finite => ?_, fun text result => calculate_result⟩
  cases x with
  | nan => cases finite
  | infinite negative => cases finite
  | finite negative m =>
    refine ⟨_, rfl, ?_⟩
    rw [evaluate_plain]
    by_cases hm : m.quanta = 0
    · simp [hm, Binary64.isZero]
    · simp [hm, Binary64.isZero]

/-- The negative double nearest to zero has more than three hundred zeros behind the point, and a
third has sixteen digits there: both come back. -/
theorem evaluate_format_least_and_third :
    (let least : Binary64 := .finite true ⟨1, by decide +kernel⟩
      ∃ text, format least = .ok text ∧ evaluate (some text) = .ok least) ∧
    calculate (some "1/3") = .ok "0.3333333333333333" ∧
      calculate (some "0.3333333333333333") = .ok "0.3333333333333333" := by
  have third : calculate (some "1/3") = .ok "0.3333333333333333" := by decide +kernel
  exact ⟨evaluate_format.1 _ rfl, third, evaluate_format.2 _ _ third⟩

end DeskCalculator
