/-
# The text that the display shows

The display shows canonical text: no sign but a minus, no zero that is not needed, no exponent, and
a point only in a number that is not whole.  What it denotes is exactly what the written form of the
double denotes, the one that files and logs show, although that one may be in exponent notation.
Since a text that is shown also has the double for its value (`evaluate_plain`), two doubles are
shown alike exactly if they are the same number.
-/

import DeskCalculator.Proofs.Decimal.Canonical
import DeskCalculator.Proofs.Evaluation.RoundTrip

namespace DeskCalculator

open Decimal (IsCanonical denoted?)

namespace Binary64

/-- Two finite numbers are the same exactly if both are zeros or all of them agrees. -/
theorem same_finite_iff {s t : Bool} {m n : Magnitude} :
    (finite s m).same (finite t n) = true ↔
      m.quanta = 0 ∧ n.quanta = 0 ∨ finite s m = finite t n := by
  obtain ⟨a, ha⟩ := m
  obtain ⟨b, hb⟩ := n
  simp only [same, beq_iff_eq, signedQuanta, finite.injEq, Magnitude.mk.injEq]
  cases s <;> cases t <;> simp <;> omega

/-- Both zeros are shown as `0`. -/
theorem plain_of_quanta_eq_zero (negative : Bool) {m : Magnitude} (zero : m.quanta = 0) :
    plain negative m = "0" := by
  rw [plain, if_pos zero]

/-- Any other number is shown behind a minus sign if it is negative. -/
theorem toList_plain (negative : Bool) {m : Magnitude} (ne : m.quanta ≠ 0) :
    (plain negative m).toList = signText negative ++ (Decimal.shortest m).positional := by
  rw [plain, if_neg ne, String.toList_ofList]

/-- The written form of a finite number other than zero is its sign and the shortest decimal. -/
theorem toList_literal (negative : Bool) {m : Magnitude} (ne : m.quanta ≠ 0) :
    (literal (.finite negative m)).toList =
      signText negative ++ (Decimal.shortest m).literal := by
  rw [literal, if_neg ne, String.toList_ofList]

/-- What shows zero denotes it behind a minus sign too. -/
theorem denoted?_zero (negative : Bool) {cs : List Char} {e : Int}
    (h : Decimal.ofText? cs = some ⟨0, e⟩) : denoted? (signText negative ++ cs) = some 0 := by
  have zero : (Decimal.ofText? cs).map Decimal.toRat = some 0 := by
    rw [h, Option.map_some, Decimal.toRat, Nat.cast_zero, zero_mul]
  rw [Decimal.denoted?_signText negative zero, neg_zero, ite_self]

/-- **Both written forms of a finite number denote the same number.** -/
theorem exists_denoted? (negative : Bool) (m : Magnitude) :
    ∃ q, denoted? (plain negative m).toList = some q ∧
      denoted? (literal (.finite negative m)).toList = some q := by
  by_cases zero : m.quanta = 0
  · refine ⟨0, ?_, ?_⟩
    · rw [plain_of_quanta_eq_zero negative zero]
      exact denoted?_zero false (e := 0) (by decide)
    · rw [literal, if_pos zero, String.toList_ofList]
      exact denoted?_zero negative (e := -1) (by decide)
  · rw [toList_plain negative zero, toList_literal negative zero]
    exact ⟨_, Decimal.denoted?_signText negative (Decimal.toRat_positional _),
      Decimal.denoted?_signText negative (Decimal.toRat_literal _)⟩

/-- **Two finite numbers are shown alike exactly if they are the same.** -/
theorem plain_eq_plain_iff {s t : Bool} {m n : Magnitude} :
    plain s m = plain t n ↔ (finite s m).same (finite t n) = true := by
  rw [same_finite_iff]
  constructor
  · intro eq
    have value := evaluate_plain s m
    rw [eq, evaluate_plain, Except.ok.injEq] at value
    by_cases hm : m.quanta = 0 <;> by_cases hn : n.quanta = 0
    · exact .inl ⟨hm, hn⟩
    · rw [if_pos hm, if_neg hn] at value
      cases value
      exact .inl ⟨hm, rfl⟩
    · rw [if_neg hm, if_pos hn] at value
      cases value
      exact .inl ⟨rfl, hn⟩
    · rw [if_neg hm, if_neg hn] at value
      exact .inr value.symm
  · rintro (⟨hm, hn⟩ | eq)
    · rw [plain_of_quanta_eq_zero s hm, plain_of_quanta_eq_zero t hn]
    · cases eq
      rfl

/-- **A point is shown exactly if the number is not whole.** -/
theorem point_notMem_plain (negative : Bool) (m : Magnitude) :
    '.' ∉ (plain negative m).toList ↔ (finite negative m).isInteger = true := by
  rw [isInteger, beq_iff_eq]
  by_cases zero : m.quanta = 0
  · rw [plain_of_quanta_eq_zero negative zero, zero]
    exact iff_of_true (by decide) (Nat.zero_mod _)
  · have sign : '.' ∉ signText negative := by cases negative <;> decide
    rw [toList_plain negative zero, List.mem_append, not_or,
      Decimal.point_notMem_positional_shortest zero]
    exact and_iff_right sign

end Binary64

/-- **The display shows canonical text.**  For every finite number that is `0` for both zeros, and
otherwise a minus sign exactly if the number is negative, and canonical digits.  It denotes exactly
the number that the written form denotes, and has a point exactly if that number is not whole.  Two
finite numbers are shown alike exactly if they are equal. -/
theorem format_canonical :
    (∀ x : Binary64, x.isFinite = true → ∃ text, format x = .ok text ∧
      (x.isZero = true → text = "0") ∧
      (x.isZero = false → ∃ cs, IsCanonical cs ∧
        text.toList = Binary64.signText x.isBelowZero ++ cs) ∧
      (∃ q, denoted? text.toList = some q ∧ denoted? x.literal.toList = some q) ∧
      ('.' ∉ text.toList ↔ x.isInteger = true)) ∧
    ∀ x y : Binary64, x.isFinite = true → y.isFinite = true →
      (format x = format y ↔ x.same y = true) := by
  refine ⟨fun x finite => ?_, fun x y hx hy => ?_⟩
  · obtain ⟨negative, m, rfl⟩ := Binary64.exists_eq_finite finite
    refine ⟨_, rfl, fun zero => ?_, fun zero => ?_, Binary64.exists_denoted? negative m,
      Binary64.point_notMem_plain negative m⟩
    · exact Binary64.plain_of_quanta_eq_zero negative (beq_iff_eq.1 zero)
    · have ne : m.quanta ≠ 0 := beq_eq_false_iff_ne.1 zero
      have sign : (Binary64.finite negative m).isBelowZero = negative := by
        rw [Binary64.isBelowZero, zero]
        exact Bool.and_true _
      rw [sign]
      exact ⟨_, Decimal.isCanonical_positional (Decimal.coefficient_shortest_mod_ten ne),
        Binary64.toList_plain negative ne⟩
  · obtain ⟨s, m, rfl⟩ := Binary64.exists_eq_finite hx
    obtain ⟨t, n, rfl⟩ := Binary64.exists_eq_finite hy
    rw [format, format, Except.ok.injEq]
    exact Binary64.plain_eq_plain_iff

/-- Fifteen millionths below zero are written `-1.5e-05` and shown in place; the two zeros are shown
alike. -/
theorem format_canonical_of_small_and_zeros :
    (let small := Binary64.ofBits 0xBEEF75104D551D69
     small.literal = "-1.5e-05" ∧ ∃ text, format small = .ok text ∧ text = "-0.000015" ∧
       (∃ cs, IsCanonical cs ∧ text.toList = '-' :: cs) ∧
       denoted? text.toList = denoted? small.literal.toList) ∧
    format (.zero true) = format (.zero false) := by
  refine ⟨?_, (format_canonical.2 (.zero true) (.zero false) rfl rfl).2 (by decide)⟩
  intro small
  refine ⟨by decide +kernel, ?_⟩
  obtain ⟨text, shown, -, canonical, ⟨q, plain, literal⟩, -⟩ :=
    format_canonical.1 small (by decide +kernel)
  have eq : format small = .ok "-0.000015" := by decide +kernel
  rw [shown] at eq
  have sign : Binary64.signText small.isBelowZero = ['-'] := by decide +kernel
  obtain ⟨cs, digits, toList⟩ := canonical (by decide +kernel)
  rw [sign] at toList
  exact ⟨text, shown, Except.ok.inj eq, ⟨cs, digits, toList⟩, plain.trans literal.symm⟩

end DeskCalculator
