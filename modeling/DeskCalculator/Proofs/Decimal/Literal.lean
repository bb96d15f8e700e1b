/-
# Literals can be read

A literal of the expression language is a run of digits with at most one point, and at least one
digit.  Such a run is either digits alone (`ofText?_digits`) or digits around a point
(`ofText?_point`), and in both forms the reader takes in the whole of it, so every literal shows a
number (`exists_ofText?`).
-/

import DeskCalculator.Decimal.Reader
import DeskCalculator.Token.Basic
import Mathlib.Data.List.TakeWhile

namespace DeskCalculator
namespace Decimal

/-- A point is no digit. -/
theorem isDigit_point : Char.isDigit '.' = false := rfl

/-- Digits alone are a whole number. -/
theorem ofText?_digits {whole : List Char} (h : ∀ c ∈ whole, c.isDigit = true) (ne : whole ≠ []) :
    ofText? whole = some (ofParts whole [] 0) := by
  have ht : whole.takeWhile Char.isDigit = whole := List.takeWhile_eq_self_iff.2 h
  have hd : whole.dropWhile Char.isDigit = [] := List.dropWhile_eq_nil_iff.2 h
  simp only [ofText?, ht, hd, if_neg ne, exponent?, Option.map_some]

/-- Digits around a point are a whole number and a fraction. -/
theorem ofText?_point {whole fraction : List Char} (hw : ∀ c ∈ whole, c.isDigit = true)
    (hf : ∀ c ∈ fraction, c.isDigit = true) (ne : ¬(whole = [] ∧ fraction = [])) :
    ofText? (whole ++ '.' :: fraction) = some (ofParts whole fraction 0) := by
  have ht : (whole ++ '.' :: fraction).takeWhile Char.isDigit = whole := by
    rw [List.takeWhile_append_of_pos hw, List.takeWhile_cons, isDigit_point]
    simp
  have hd : (whole ++ '.' :: fraction).dropWhile Char.isDigit = '.' :: fraction := by
    rw [List.dropWhile_append_of_pos hw, List.dropWhile_cons, isDigit_point]
    simp
  have hft : fraction.takeWhile Char.isDigit = fraction := List.takeWhile_eq_self_iff.2 hf
  have hfd : fraction.dropWhile Char.isDigit = [] := List.dropWhile_eq_nil_iff.2 hf
  simp only [ofText?, ht, hd, hft, hfd, if_neg ne, exponent?, Option.map_some]

/-- Numeric characters without a point are digits. -/
theorem forall_isDigit {cs : List Char} (h : ∀ c ∈ cs, Token.isNumeric c = true)
    (noPoint : '.' ∉ cs) : ∀ c ∈ cs, c.isDigit = true := by
  intro c hc
  have := h c hc
  rw [Token.isNumeric, Bool.or_eq_true, beq_iff_eq] at this
  rcases this with hd | rfl
  · exact hd
  · exact absurd hc noPoint

/-- A literal of the expression language. -/
structure IsLiteral (cs : List Char) : Prop where
  numeric : ∀ c ∈ cs, Token.isNumeric c = true
  ne_nil : cs ≠ []
  points : cs.count '.' < 2
  digits : cs ≠ ['.']

/-- **Every literal shows a number.** -/
theorem exists_ofText? {cs : List Char} (h : IsLiteral cs) : ∃ d, ofText? cs = some d := by
  by_cases hp : '.' ∈ cs
  · -- The first point splits the run; a second one would have been counted.
    obtain ⟨whole, fraction, rfl, hw⟩ := List.eq_append_cons_of_mem hp
    have points := h.points
    have hf : '.' ∉ fraction := by
      rw [List.count_append, List.count_cons_self] at points
      exact List.count_eq_zero.1 (by omega)
    refine ⟨_, ofText?_point (forall_isDigit (fun c hc => h.numeric c (by simp [hc])) hw)
      (forall_isDigit (fun c hc => h.numeric c (by simp [hc])) hf) ?_⟩
    rintro ⟨rfl, rfl⟩
    exact h.digits rfl
  · exact ⟨_, ofText?_digits (forall_isDigit h.numeric hp) h.ne_nil⟩

end Decimal
end DeskCalculator
