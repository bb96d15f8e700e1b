/-
# Canonical text, and the number that it denotes

A decimal is a rational number (`toRat`), and a text denotes the number that it shows, with its sign
and without rounding (`denoted?`).  The two written forms of a decimal denote the decimal itself,
whichever of its shapes the exponent selects (`denoted?_positional`, `denoted?_literal`).

A text is canonical if no digit of it can be left out (`IsCanonical`): the positional form is, where
the coefficient does not end in a zero.  It has a point only if the exponent is negative, and the
shortest decimal for a double has a negative exponent only if the double is not whole
(`exponent_shortest_nonneg`): on the way to fewer digits the search comes past the digits of a whole
number before it comes to any behind the point.
-/

import DeskCalculator.Decimal.Shortest
import DeskCalculator.Proofs.Decimal.Scientific
import Mathlib.Algebra.Field.Rat
import Mathlib.Algebra.Order.Field.Basic
import Mathlib.Tactic.FieldSimp
import Mathlib.Tactic.Ring

namespace DeskCalculator
namespace Decimal

/-- The number that a decimal is. -/
def toRat (d : Decimal) : ℚ := d.coefficient * 10 ^ d.exponent

/-- The number that a text shows behind its sign. -/
def denoted? (cs : List Char) : Option ℚ :=
  let (negative, rest) := Text.splitSign cs
  (ofText? rest).map fun d => if negative then -d.toRat else d.toRat

/-- Canonical text of a number without a sign: the digits of a whole number, alone or in front of a
point and a run of digits that does not end in a zero. -/
inductive IsCanonical : List Char → Prop
  | whole {digits : List Char} (whole : IsWhole digits) : IsCanonical digits
  | point {digits decimals : List Char} (whole : IsWhole digits) (run : IsRun decimals)
      (last : decimals.getLast? ≠ some '0') : IsCanonical (digits ++ '.' :: decimals)

/-- Moving zeros from the coefficient to the exponent does not change the value. -/
theorem toRat_shift (c n : Nat) (e : Int) :
    toRat ⟨c * Nat.pow 10 n, e⟩ = toRat ⟨c, e + n⟩ := by
  have ten : (10 : ℚ) ≠ 0 := by norm_num
  simp only [toRat, Nat.pow_eq, Nat.cast_mul, Nat.cast_pow, zpow_add₀ ten, zpow_natCast]
  push_cast
  ring

/-- **The positional form shows the decimal exactly.** -/
theorem toRat_positional (d : Decimal) :
    (ofText? d.positional).map toRat = some d.toRat := by
  rcases d.positional_cases with ⟨whole, run, -⟩ | ⟨-, digits, decimals, eq, hw, hd, parts⟩
  · rw [ofText?_digits run.digits run.ne_nil, ofParts_positional whole, Option.map_some,
      toRat_shift]
    congr 2
    obtain ⟨c, e⟩ := d
    simp only [Int.zero_add, Int.toNat_of_nonneg whole]
  · rw [eq, ofText?_point hw.digits hd.digits fun h => hw.ne_nil h.1, parts, Option.map_some]

/-- A zero behind the point adds nothing. -/
theorem toRat_ofParts_zero (digits : List Char) :
    (ofParts digits ['0'] 0).toRat = (ofParts digits [] 0).toRat := by
  rw [ofParts_zero, ofParts, List.append_nil]
  exact toRat_shift _ 1 (-1)

/-- **Both shapes of the literal show the decimal exactly.** -/
theorem toRat_literal (d : Decimal) : (ofText? d.literal).map toRat = some d.toRat := by
  unfold literal
  split
  · split
    · rename_i whole
      have positional := toRat_positional d
      rcases d.positional_cases with ⟨-, run, -⟩ | ⟨negative, -⟩
      · rw [ofText?_digits run.digits run.ne_nil] at positional
        rw [ofText?_point run.digits isWhole_zero.digits fun h => run.ne_nil h.1, Option.map_some,
          toRat_ofParts_zero]
        exact positional
      · omega
    · rw [List.append_nil]
      exact toRat_positional d
  · rw [ofText?_scientific, Option.map_some]

/-- What shows a number without a sign does not begin with one. -/
theorem splitSign_of_ofText? {cs : List Char} {d : Decimal} (h : ofText? cs = some d) :
    Text.splitSign cs = (false, cs) := by
  rw [Text.splitSign.eq_def]
  split
  · cases h
  · cases h
  · rfl

/-- A minus sign in front of what shows a number negates it. -/
theorem denoted?_signText (negative : Bool) {cs : List Char} {q : ℚ}
    (h : (ofText? cs).map toRat = some q) :
    denoted? (Binary64.signText negative ++ cs) = some (if negative then -q else q) := by
  obtain ⟨d, hd, rfl⟩ := Option.map_eq_some_iff.1 h
  have sign : Text.splitSign (Binary64.signText negative ++ cs) = (negative, cs) := by
    cases negative with
    | false => exact splitSign_of_ofText? hd
    | true => rfl
  simp only [denoted?, sign, hd, Option.map_some]

/-- The last digit of a number is its remainder by ten. -/
theorem getLast?_toDigits (n : Nat) :
    (Nat.toDigits 10 n).getLast? = some (Nat.digitChar (n % 10)) := by
  rw [Nat.toDigits_eq_if (by decide)]
  split
  · rename_i small
    rw [Nat.mod_eq_of_lt small]
    rfl
  · rw [List.getLast?_append]
    rfl

/-- **The positional form has no digit too many**, if the coefficient does not end in a zero. -/
theorem isCanonical_positional {d : Decimal} (h : d.coefficient % 10 ≠ 0) :
    IsCanonical d.positional := by
  rcases Int.lt_or_le d.exponent 0 with negative | nonneg
  · obtain ⟨whole, fraction, eq, hw, hf, last, -⟩ := exists_positional_eq_point negative
    rw [eq]
    refine .point hw hf ?_
    rw [last, digits, getLast?_toDigits, Ne, Option.some_inj]
    exact digitChar_ne_zero _ (Nat.mod_lt _ (by decide)) h
  · rcases d.positional_cases with ⟨-, run, noZero, -⟩ | ⟨negative, -⟩
    · exact .whole ⟨run, fun zero => absurd zero (noZero fun eq => h (by rw [eq]))⟩
    · omega

/-- The positional form of a whole number has no point, and any other has one. -/
theorem point_notMem_positional (d : Decimal) : '.' ∉ d.positional ↔ 0 ≤ d.exponent := by
  rcases d.positional_cases with ⟨nonneg, run, -⟩ | ⟨negative, digits, decimals, eq, -⟩
  · refine iff_of_true (fun point => ?_) nonneg
    have := run.digits '.' point
    rw [isDigit_point] at this
    cases this
  · refine iff_of_false (fun point => point ?_) (by omega)
    rw [eq]
    exact List.mem_append_right _ List.mem_cons_self

/-- Trimming never lowers the exponent. -/
theorem exponent_le_trim (d : Decimal) : d.exponent ≤ d.trim.exponent := by
  fun_induction trim d with
  | case1 d _ ih => exact (Int.le_add_one (Int.le_refl _)).trans ih
  | case2 => exact Int.le_refl _

/-- A search through the numbers ends at the latest at any number that is a hit. -/
theorem exists_le_of_findSome?_range {α : Type} {f : Nat → Option α} {n k : Nat} {a : α}
    (hk : k < n) (hit : f k = some a) :
    ∃ j ≤ k, ∃ b, f j = some b ∧ (List.range n).findSome? f = some b := by
  have found : ((List.range n).findSome? f).isSome := by
    rw [List.findSome?_isSome_iff]
    exact ⟨k, List.mem_range.2 hk, by rw [hit, Option.isSome_some]⟩
  obtain ⟨b, hb⟩ := Option.isSome_iff_exists.1 found
  obtain ⟨before, j, behind, eq, hj, misses⟩ := List.findSome?_eq_some_iff.1 hb
  refine ⟨j, ?_, b, hj, hb⟩
  have sorted : (before ++ j :: behind).Pairwise (· < ·) := eq ▸ List.pairwise_lt_range
  have mem : k ∈ before ++ j :: behind := eq ▸ List.mem_range.2 hk
  rcases List.mem_append.1 mem with mem | mem
  · rw [misses k mem] at hit
    cases hit
  · rcases List.mem_cons.1 mem with rfl | mem
    · exact Nat.le_refl _
    · exact Nat.le_of_lt (List.rel_of_pairwise_cons (List.pairwise_append.1 sorted).2.1 mem)

/-- Behind the point a whole number has zeros only. -/
theorem expansion_of_unit_dvd {m : Magnitude} {n : Nat} (h : m.quanta = n * Binary64.unit) :
    expansion m = ⟨n * Nat.pow 10 1074, -1074⟩ := by
  have coefficient : m.quanta * Nat.pow 5 1074 = n * Nat.pow 10 1074 := by
    rw [h, Nat.mul_assoc]
    unfold Binary64.unit
    generalize 1074 = k
    exact congrArg (n * ·) (Nat.mul_pow 2 5 k).symm
  rw [expansion, coefficient]

/-- A number on the grid is its own nearer neighbour there. -/
theorem find?_neighbours {p : Decimal → Bool} {n k : Nat} {e : Int} (h : p ⟨n, e + k⟩ = true) :
    (neighbours ⟨n * Nat.pow 10 k, e⟩ k).find? p = some ⟨n, e + k⟩ := by
  have near : Binary64.roundDiv (n * Nat.pow 10 k) (Nat.pow 10 k) = n :=
    Binary64.roundDiv_mul n (Nat.pow_pos (by decide))
  simp only [neighbours, near]
  exact List.find?_cons_of_pos h

/-- The neighbours lie on the grid. -/
theorem exponent_of_mem_neighbours {d d' : Decimal} {dropped : Nat}
    (h : d' ∈ neighbours d dropped) : d'.exponent = d.exponent + dropped := by
  simp only [neighbours, List.mem_cons, List.not_mem_nil, or_false] at h
  rcases h with rfl | rfl <;> rfl

/-- A number with zeros behind its digits has more digits than zeros. -/
theorem lt_length_toDigits {n : Nat} (h : 0 < n) (k : Nat) :
    k < (Nat.toDigits 10 (n * Nat.pow 10 k)).length := by
  rw [← Nat.not_le]
  intro short
  rcases Nat.eq_zero_or_pos k with rfl | hk
  · exact Nat.toDigits_ne_nil (List.eq_nil_of_length_eq_zero (Nat.le_zero.1 short))
  · have small := (Nat.length_toDigits_le_iff (by decide) hk).1 short
    exact Nat.not_le.2 small (Nat.le_mul_of_pos_left _ h)

/-- The search for the shortest decimal, from the number of digits of the expansion. -/
theorem shortest_eq (m : Magnitude) {count : Nat} (h : (expansion m).digits.length = count) :
    shortest m = (((List.range count).findSome? fun kept =>
      (neighbours (expansion m) (count - 1 - kept)).find? (readsBack m)).getD
        (expansion m)).trim := by
  rw [← h]
  rfl

/-- The coefficient of the shortest decimal does not end in a zero. -/
theorem coefficient_shortest_mod_ten {m : Magnitude} (ne : m.quanta ≠ 0) :
    (shortest m).coefficient % 10 ≠ 0 := by
  have trimmed : (shortest m).coefficient = 0 ∨ (shortest m).coefficient % 10 ≠ 0 := by
    rw [shortest_eq m rfl]
    exact trim_mod_ten _
  exact trimmed.resolve_left (coefficient_shortest_ne_zero ne)

/-- **The shortest decimal does without the zeros of the expansion:** the search goes from the
coarse grids to the fine ones, and on the grid that lacks the zeros the number itself is a hit. -/
theorem le_exponent_shortest {m : Magnitude} {n k : Nat} {e : Int} (positive : 0 < n)
    (exact : expansion m = ⟨n * Nat.pow 10 k, e⟩) : e + k ≤ (shortest m).exponent := by
  have reads : readsBack m ⟨n, e + k⟩ = true := by
    rw [readsBack, beq_iff_eq, nearest_shift_pow, ← exact]
    exact nearest_expansion false m
  have hit := find?_neighbours reads
  have long : k < (expansion m).digits.length := by
    rw [exact]
    exact lt_length_toDigits positive k
  obtain ⟨count, hcount⟩ : ∃ count, (expansion m).digits.length = count := ⟨_, rfl⟩
  rw [hcount] at long
  have last : count - 1 - (count - 1 - k) = k := by omega
  have early : count - 1 - k < count := by omega
  rw [← exact] at hit
  conv at hit => lhs; rw [← last]
  obtain ⟨j, hj, d, hd, found⟩ := exists_le_of_findSome?_range
    (f := fun kept => (neighbours (expansion m) (count - 1 - kept)).find? (readsBack m)) early hit
  rw [shortest_eq m hcount, found, Option.getD_some]
  refine Int.le_trans ?_ (exponent_le_trim d)
  rw [exponent_of_mem_neighbours (List.mem_of_find?_eq_some hd), exact]
  simp only []
  omega

/-- **The shortest decimal for a whole number has no digit behind the point.** -/
theorem exponent_shortest_nonneg {m : Magnitude} (ne : m.quanta ≠ 0)
    (h : m.quanta % Binary64.unit = 0) : 0 ≤ (shortest m).exponent := by
  obtain ⟨n, eq⟩ := Nat.dvd_of_mod_eq_zero h
  rw [Nat.mul_comm] at eq
  have positive : 0 < n := Nat.pos_of_ne_zero fun zero => ne (by rw [eq, zero, Nat.zero_mul])
  exact le_exponent_shortest positive (expansion_of_unit_dvd eq)

/-- Rounding leaves the grid of a power of two, or does not move at all. -/
theorem two_pow_dvd_roundedQuanta (n j : Nat) :
    Nat.pow 2 j ∣ Binary64.roundedQuanta (n * Nat.pow 2 j) 1 := by
  unfold Binary64.roundedQuanta
  simp only [Nat.div_one, Nat.one_mul]
  generalize Binary64.spacing (n * Nat.pow 2 j) = k
  rcases Nat.le_total j k with coarse | fine
  · exact Nat.dvd_mul_left_of_dvd (Nat.pow_dvd_pow 2 coarse) _
  · have split : n * Nat.pow 2 j = n * Nat.pow 2 (j - k) * Nat.pow 2 k := by
      simp only [Nat.pow_eq]
      rw [Nat.mul_assoc, ← Nat.pow_add, Nat.sub_add_cancel fine]
    have onGrid : Binary64.roundDiv (n * Nat.pow 2 j) (Nat.pow 2 k) = n * Nat.pow 2 (j - k) := by
      rw [split]
      exact Binary64.roundDiv_mul _ (Nat.two_pow_pos k)
    rw [onGrid, ← split]
    exact Nat.dvd_mul_left _ _

/-- A whole number is rounded to a whole number. -/
theorem unit_dvd_roundedQuanta (n : Nat) :
    Binary64.unit ∣ Binary64.roundedQuanta (n * Binary64.unit) 1 := by
  unfold Binary64.unit
  generalize 1074 = j
  exact two_pow_dvd_roundedQuanta n j

/-- A whole number rounds to a whole number. -/
theorem unit_dvd_of_exponent_nonneg {d : Decimal} {m : Magnitude}
    (reads : d.nearest false = .finite false m) (h : 0 ≤ d.exponent) :
    m.quanta % Binary64.unit = 0 := by
  have fraction : (-d.exponent).toNat = 0 := by omega
  rw [nearest_eq_ofRatio, fraction, Nat.pow_eq, Nat.pow_eq, Nat.pow_zero] at reads
  unfold Binary64.ofRatio at reads
  split at reads
  · cases reads
    exact Nat.mod_eq_zero_of_dvd (unit_dvd_roundedQuanta _)
  · cases reads

/-- **The shortest decimal for a double has a point exactly if the double is not whole.** -/
theorem point_notMem_positional_shortest {m : Magnitude} (ne : m.quanta ≠ 0) :
    '.' ∉ (shortest m).positional ↔ m.quanta % Binary64.unit = 0 := by
  rw [point_notMem_positional]
  exact ⟨unit_dvd_of_exponent_nonneg (nearest_shortest false m), exponent_shortest_nonneg ne⟩

end Decimal
end DeskCalculator
