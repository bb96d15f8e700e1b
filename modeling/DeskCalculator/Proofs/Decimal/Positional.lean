/-
# The positional form reads back

A decimal written in place around the point is a literal, and the number that the literal shows
rounds to the same double, though it need not be the same decimal: zeros at the end of a whole
number go from the exponent to the coefficient, which does not change the number
(`nearest_shift_pow`).

The positional form has two shapes, digits alone and digits around a point (`positional_cases`);
what follows is read off the shapes.  The digits in front of the point do not begin with a zero that
is not needed (`IsWhole`): the digits of a coefficient have none in front.
-/

import DeskCalculator.Decimal.Notation
import DeskCalculator.Proofs.Decimal.Literal

namespace DeskCalculator
namespace Decimal

/-- Moving zeros from the coefficient to the exponent changes nothing. -/
theorem nearest_shift_pow (negative : Bool) (c : Nat) (e : Int) (k : Nat) :
    (Decimal.mk c (e + k)).nearest negative =
      (Decimal.mk (c * Nat.pow 10 k) e).nearest negative := by
  rw [Nat.pow_eq]
  induction k generalizing c with
  | zero => rw [Nat.pow_zero, Nat.mul_one, Int.natCast_zero, Int.add_zero]
  | succ k ih =>
    rw [Int.natCast_succ, ← Int.add_assoc, nearest_shift, ih, Nat.mul_assoc, ← Nat.pow_succ']

/-- A decimal without a coefficient is zero. -/
theorem nearest_of_coefficient_eq_zero (negative : Bool) {d : Decimal} (h : d.coefficient = 0) :
    d.nearest negative = .zero negative := by
  obtain ⟨c, e⟩ := d
  subst h
  rfl

/-- What the shortest decimal reads back as is not zero, so neither is its coefficient. -/
theorem coefficient_shortest_ne_zero {m : Magnitude} (ne : m.quanta ≠ 0) :
    (shortest m).coefficient ≠ 0 := by
  intro zero
  have reads := nearest_shortest false m
  rw [nearest_of_coefficient_eq_zero false zero] at reads
  cases reads
  exact ne rfl

/-- Zeros are digits. -/
theorem isDigit_of_mem_zeros {n : Nat} {c : Char} (h : c ∈ List.replicate n '0') :
    c.isDigit = true := by
  rw [List.eq_of_mem_replicate h]
  rfl

/-- A text that is not empty begins as it does with more behind it. -/
theorem head?_append_of_ne_nil {cs : List Char} (h : cs ≠ []) (ds : List Char) :
    (cs ++ ds).head? = cs.head? := by
  cases cs with
  | nil => exact absurd rfl h
  | cons c cs => rfl

/-- Of the ten digits only one is shown as a zero. -/
theorem digitChar_ne_zero : ∀ d < 10, d ≠ 0 → Nat.digitChar d ≠ '0' := by decide

/-- The digits of a number do not begin with a zero, unless it is zero. -/
theorem head?_toDigits {n : Nat} (h : n ≠ 0) : (Nat.toDigits 10 n).head? ≠ some '0' := by
  induction n using Nat.strongRecOn with
  | ind n ih =>
    rw [Nat.toDigits_eq_if (by decide)]
    split
    · rename_i small
      rw [List.head?_cons, Ne, Option.some_inj]
      exact digitChar_ne_zero n small h
    · rw [head?_append_of_ne_nil Nat.toDigits_ne_nil]
      exact ih (n / 10) (by omega) (by omega)

/-- A run of digits, at least one. -/
structure IsRun (cs : List Char) : Prop where
  digits : ∀ c ∈ cs, c.isDigit = true
  ne_nil : cs ≠ []

/-- The digits of a whole number: one zero, or a run that begins with another digit. -/
structure IsWhole (cs : List Char) : Prop extends IsRun cs where
  noZero : cs.head? = some '0' → cs = ['0']

/-- The digits of a number are a run of digits. -/
theorem isRun_toDigits (n : Nat) : IsRun (Nat.toDigits 10 n) :=
  ⟨fun _ => Nat.isDigit_of_mem_toDigits (by decide) (by decide), Nat.toDigits_ne_nil⟩

/-- The digits of a number begin with a zero only if that is all. -/
theorem isWhole_toDigits (n : Nat) : IsWhole (Nat.toDigits 10 n) := by
  refine ⟨isRun_toDigits n, fun zero => ?_⟩
  by_cases h : n = 0
  · rw [h, Nat.toDigits_zero]
  · exact absurd zero (head?_toDigits h)

/-- A zero alone is a whole part. -/
theorem isWhole_zero : IsWhole ['0'] := by
  have h := isWhole_toDigits 0
  rwa [Nat.toDigits_zero] at h

/-- The digits of a decimal are a run of digits. -/
theorem isRun_digits (d : Decimal) : IsRun d.digits := isRun_toDigits _

/-- A run of digits with digits behind it is one. -/
theorem IsRun.append {cs ds : List Char} (h : IsRun cs) (digits : ∀ c ∈ ds, c.isDigit = true) :
    IsRun (cs ++ ds) := by
  refine ⟨fun c hc => ?_, List.append_ne_nil_of_left_ne_nil h.ne_nil _⟩
  rcases List.mem_append.1 hc with hc | hc
  · exact h.digits c hc
  · exact digits c hc

/-- The digits of a coefficient show it, also behind zeros. -/
theorem ofDigitChars_zeros_digits (n : Nat) (d : Decimal) :
    Nat.ofDigitChars 10 (List.replicate n '0' ++ d.digits) 0 = d.coefficient := by
  rw [Nat.ofDigitChars_append, Nat.ofDigitChars_replicate_zero, Nat.mul_zero]
  exact Nat.ofDigitChars_ten_toDigits

/-- Zeros behind the digits of a coefficient multiply it. -/
theorem ofDigitChars_digits_zeros (n : Nat) (d : Decimal) :
    Nat.ofDigitChars 10 (d.digits ++ List.replicate n '0') 0 =
      d.coefficient * Nat.pow 10 n := by
  rw [Nat.ofDigitChars_append, Nat.ofDigitChars_replicate_zero, Nat.mul_comm]
  exact congrArg (· * 10 ^ n) Nat.ofDigitChars_ten_toDigits

/-- A whole number is its digits and zeros behind them. -/
theorem positional_of_nonneg {d : Decimal} (h : 0 ≤ d.exponent) :
    d.positional = d.digits ++ List.replicate d.exponent.toNat '0' := by
  unfold positional
  simp only []
  rw [if_pos (by omega)]

/-- The zeros behind the digits of a whole number belong to its coefficient. -/
theorem ofParts_positional {d : Decimal} (h : 0 ≤ d.exponent) :
    ofParts d.positional [] 0 = ⟨d.coefficient * Nat.pow 10 d.exponent.toNat, 0⟩ := by
  rw [ofParts, List.append_nil, positional_of_nonneg h, ofDigitChars_digits_zeros]
  rfl

/-- A zero behind the point belongs to the coefficient. -/
theorem ofParts_zero (digits : List Char) :
    ofParts digits ['0'] 0 = ⟨Nat.ofDigitChars 10 digits 0 * 10, -1⟩ := by
  rw [ofParts, Nat.ofDigitChars_append, Nat.ofDigitChars_cons, Nat.ofDigitChars_nil, Nat.mul_comm]
  rfl

/-- A number that is not whole is digits around a point, and the last of them is that of its
coefficient. -/
theorem exists_positional_eq_point {d : Decimal} (h : d.exponent < 0) :
    ∃ whole fraction, d.positional = whole ++ '.' :: fraction ∧ IsWhole whole ∧ IsRun fraction ∧
      fraction.getLast? = d.digits.getLast? ∧ ofParts whole fraction 0 = d := by
  obtain ⟨c, e⟩ := d
  have run := isRun_digits ⟨c, e⟩
  unfold positional
  simp only [] at h ⊢
  rw [if_neg (by omega)]
  split
  · rename_i short
    generalize hn : (Decimal.mk c e).digits.length - (-e).toNat = n
    have length : ((Decimal.mk c e).digits.drop n).length = (-e).toNat := by
      rw [List.length_drop]
      omega
    refine ⟨_, _, rfl, ⟨⟨fun x hx => ?_, ?_⟩, fun zero => ?_⟩, ⟨fun x hx => ?_, ?_⟩, ?_, ?_⟩
    · exact run.digits x (List.mem_of_mem_take hx)
    · rw [Ne, List.take_eq_nil_iff, not_or]
      exact ⟨by omega, run.ne_nil⟩
    · -- Two digits or more begin with no zero.
      rw [List.head?_take, if_neg (by omega)] at zero
      have short' : 1 < (Decimal.mk c e).digits.length := by omega
      rw [digits, (isWhole_toDigits c).noZero zero] at short'
      exact absurd short' (by decide)
    · exact run.digits x (List.mem_of_mem_drop hx)
    · intro nil
      rw [nil, List.length_nil] at length
      omega
    · rw [List.getLast?_drop, if_neg (by omega)]
    · have coefficient := ofDigitChars_zeros_digits 0 (Decimal.mk c e)
      rw [List.replicate_zero, List.nil_append] at coefficient
      rw [ofParts, List.take_append_drop, coefficient, length]
      congr 1
      omega
  · rename_i long
    refine ⟨['0'], _, rfl, isWhole_zero, ⟨fun x hx => ?_, ?_⟩, ?_, ?_⟩
    · rcases List.mem_append.1 hx with hx | hx
      · exact isDigit_of_mem_zeros hx
      · exact run.digits x hx
    · exact List.append_ne_nil_of_right_ne_nil _ run.ne_nil
    · rw [List.getLast?_append, List.getLast?_eq_some_getLast run.ne_nil, Option.some_or]
    · have length : (List.replicate ((-e).toNat - (Decimal.mk c e).digits.length) '0' ++
          (Decimal.mk c e).digits).length = (-e).toNat := by
        rw [List.length_append, List.length_replicate]
        omega
      rw [ofParts, length, ← List.append_assoc, ← List.replicate_one,
        List.replicate_append_replicate, ofDigitChars_zeros_digits]
      congr 1
      omega

/-- **The positional form is digits, or digits around a point, and shows the decimal.** -/
theorem positional_cases (d : Decimal) :
    (0 ≤ d.exponent ∧ IsRun d.positional ∧
      (d.coefficient ≠ 0 → d.positional.head? ≠ some '0') ∧
      ∀ negative, (ofParts d.positional [] 0).nearest negative = d.nearest negative) ∨
    (d.exponent < 0 ∧ ∃ whole fraction, d.positional = whole ++ '.' :: fraction ∧
      IsWhole whole ∧ IsRun fraction ∧ ofParts whole fraction 0 = d) := by
  rcases Int.lt_or_le d.exponent 0 with negative | whole
  · obtain ⟨whole, fraction, eq, hw, hf, -, parts⟩ := exists_positional_eq_point negative
    exact .inr ⟨negative, whole, fraction, eq, hw, hf, parts⟩
  · have run := isRun_digits d
    refine .inl ⟨whole, ?_, fun ne => ?_, fun negative => ?_⟩
    · rw [positional_of_nonneg whole]
      exact run.append fun x => isDigit_of_mem_zeros
    · rw [positional_of_nonneg whole, head?_append_of_ne_nil run.ne_nil]
      exact head?_toDigits ne
    · rw [ofParts_positional whole, ← nearest_shift_pow]
      congr 2
      omega

/-- A digit belongs to a number. -/
theorem isNumeric_of_isDigit {c : Char} (h : c.isDigit = true) : Token.isNumeric c = true := by
  rw [Token.isNumeric, h, Bool.true_or]

/-- There is no point among digits. -/
theorem count_point_eq_zero {cs : List Char} (h : ∀ c ∈ cs, c.isDigit = true) :
    cs.count '.' = 0 :=
  List.count_eq_zero.2 fun hp => by
    have := h '.' hp
    rw [isDigit_point] at this
    cases this

/-- **The positional form is a literal.** -/
theorem isLiteral_positional (d : Decimal) : IsLiteral d.positional := by
  rcases d.positional_cases with ⟨-, run, -⟩ | ⟨-, whole, fraction, eq, hw, hf, -⟩
  · refine ⟨fun c hc => isNumeric_of_isDigit (run.digits c hc), run.ne_nil, ?_, fun eq => ?_⟩
    · rw [count_point_eq_zero run.digits]
      decide
    · have := run.digits '.' (by rw [eq]; exact List.mem_singleton_self _)
      rw [isDigit_point] at this
      cases this
  · rw [eq]
    refine ⟨fun c hc => ?_, by simp, ?_, fun h => ?_⟩
    · rcases List.mem_append.1 hc with hc | hc
      · exact isNumeric_of_isDigit (hw.digits c hc)
      · rcases List.mem_cons.1 hc with rfl | hc
        · rfl
        · exact isNumeric_of_isDigit (hf.digits c hc)
    · rw [List.count_append, List.count_cons_self, count_point_eq_zero hw.digits,
        count_point_eq_zero hf.digits]
      decide
    · -- The digit in front of the point would have no place.
      have := congrArg List.length h
      rw [List.length_append, List.length_cons, List.length_singleton] at this
      exact hw.ne_nil (List.eq_nil_of_length_eq_zero (by omega))

/-- **The positional form shows a number that rounds as the decimal does.** -/
theorem exists_ofText?_positional (d : Decimal) :
    ∃ d', ofText? d.positional = some d' ∧
      ∀ negative, d'.nearest negative = d.nearest negative := by
  rcases d.positional_cases with ⟨-, run, -, reads⟩ | ⟨-, whole, fraction, eq, hw, hf, parts⟩
  · exact ⟨_, ofText?_digits run.digits run.ne_nil, reads⟩
  · refine ⟨d, ?_, fun _ => rfl⟩
    rw [eq, ofText?_point hw.digits hf.digits fun h => hw.ne_nil h.1, parts]

end Decimal
end DeskCalculator
