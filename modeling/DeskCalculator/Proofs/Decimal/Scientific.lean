/-
# The scientific form reads back

A decimal in scientific form is a digit, a fraction unless there is none, and an exponent
(`scientific_cases`).  The reader takes in the whole of it and finds the same decimal: not only one
of the same value, since no digit is added and none is left out.
-/

import DeskCalculator.Proofs.Decimal.Positional

namespace DeskCalculator
namespace Decimal

/-- What stands behind digits is no further digit. -/
def EndsRun (rest : List Char) : Prop := ∀ c, rest.head? = some c → c.isDigit = false

/-- A whole number with its sign. -/
def signed (negative : Bool) (n : Nat) : Int := if negative then -n else n

variable {digits rest : List Char}

/-- What is no digit ends a run of digits. -/
theorem endsRun_cons {c : Char} (h : c.isDigit = false) : EndsRun (c :: rest) := by
  intro d hd
  obtain rfl := Option.some.inj hd
  exact h

/-- The leading digits of a run and what ends it are the run. -/
theorem takeWhile_run (h : IsRun digits) (ends : EndsRun rest) :
    (digits ++ rest).takeWhile Char.isDigit = digits := by
  rw [List.takeWhile_append_of_pos h.digits]
  cases rest with
  | nil => simp
  | cons c rest => simp [ends c rfl]

/-- Behind the leading digits of a run stands what ends it. -/
theorem dropWhile_run (h : IsRun digits) (ends : EndsRun rest) :
    (digits ++ rest).dropWhile Char.isDigit = rest := by
  rw [List.dropWhile_append_of_pos h.digits]
  cases rest with
  | nil => rfl
  | cons c rest => simp [ends c rfl]

/-- A zero in front changes neither a run nor what it shows. -/
theorem isRun_padded (n : Nat) :
    ∃ padded, (if (Nat.toDigits 10 n).length < 2 then '0' :: Nat.toDigits 10 n
        else Nat.toDigits 10 n) = padded ∧
      IsRun padded ∧ Nat.ofDigitChars 10 padded 0 = n := by
  have run := isRun_toDigits n
  refine ⟨_, rfl, ?_⟩
  split
  · refine ⟨⟨List.forall_mem_cons.2 ⟨rfl, run.digits⟩, List.cons_ne_nil _ _⟩, ?_⟩
    rw [Nat.ofDigitChars_cons]
    exact Nat.ofDigitChars_ten_toDigits
  · exact ⟨run, Nat.ofDigitChars_ten_toDigits⟩

/-- **The scientific form is a digit, a fraction unless there is none, and an exponent,** and shows
the decimal. -/
theorem scientific_cases (d : Decimal) :
    ∃ first others power, IsWhole [first] ∧ (others = [] ∨ IsRun others) ∧ IsRun power ∧
      d.scientific = first :: ((if others.isEmpty then [] else '.' :: others) ++
        'e' :: (if d.leading < 0 then '-' else '+') :: power) ∧
      ofParts [first] others (signed (d.leading < 0) (Nat.ofDigitChars 10 power 0)) =
        d := by
  obtain ⟨first, others, digits⟩ := List.exists_cons_of_ne_nil (isRun_digits d).ne_nil
  have isDigit := (isRun_digits d).digits
  rw [digits, List.forall_mem_cons] at isDigit
  obtain ⟨power, padded, run, shows⟩ := isRun_padded d.leading.natAbs
  refine ⟨first, others, power, ⟨⟨by simpa using isDigit.1, List.cons_ne_nil _ _⟩, by simp⟩,
    (Classical.em (others = [])).imp_right (⟨isDigit.2, ·⟩), run, ?_, ?_⟩
  · simp only [scientific, digits, padded, List.tail_cons]
    rfl
  · -- The exponent is that of the first digit, less one for each digit behind the point.
    have coefficient : Nat.ofDigitChars 10 (first :: others) 0 = d.coefficient := by
      rw [← digits]
      exact Nat.ofDigitChars_ten_toDigits
    have leading : d.leading = others.length + d.exponent := by
      rw [Decimal.leading, digits, List.length_cons]
      omega
    have sign : signed (d.leading < 0) d.leading.natAbs = d.leading := by
      unfold signed
      split
      · rename_i negative
        have := of_decide_eq_true negative
        omega
      · rename_i positive
        rw [decide_eq_true_eq] at positive
        omega
    rw [ofParts, List.singleton_append, coefficient, shows, sign, leading]
    congr 1
    omega

/-- A sign in front of a text is split off. -/
theorem splitSign_signed (negative : Bool) (cs : List Char) :
    Text.splitSign ((if negative then '-' else '+') :: cs) = (negative, cs) := by
  cases negative <;> rfl

/-- An exponent with its sign is read to the last digit. -/
theorem exponent?_signed (negative : Bool) {power : List Char} (h : IsRun power) :
    exponent? ('e' :: (if negative then '-' else '+') :: power) =
      some (signed negative (Nat.ofDigitChars 10 power 0)) := by
  simp only [exponent?, splitSign_signed]
  rw [if_pos ⟨.inl trivial, h.ne_nil, List.all_eq_true.2 h.digits⟩]
  rfl

/-- Digits in front of an exponent are a whole number. -/
theorem ofText?_letter (h : IsRun digits) {c : Char} (letter : c.isDigit = false) (point : c ≠ '.')
    (rest : List Char) :
    ofText? (digits ++ c :: rest) = (exponent? (c :: rest)).map (ofParts digits []) := by
  rw [ofText?, takeWhile_run h (endsRun_cons letter), dropWhile_run h (endsRun_cons letter)]
  split
  · rename_i eq
    exact absurd (List.cons.inj eq).1 point
  · rw [if_neg h.ne_nil]

/-- Digits around a point, in front of an exponent, are a whole number and a fraction. -/
theorem ofText?_point_letter {decimals : List Char} (h : IsRun digits) (hd : IsRun decimals)
    (ends : EndsRun rest) :
    ofText? (digits ++ '.' :: (decimals ++ rest)) =
      (exponent? rest).map (ofParts digits decimals) := by
  have point : EndsRun ('.' :: (decimals ++ rest)) := endsRun_cons rfl
  rw [ofText?, takeWhile_run h point, dropWhile_run h point]
  simp only [takeWhile_run hd ends, dropWhile_run hd ends]
  rw [if_neg fun ne => h.ne_nil ne.1]

/-- **The scientific form shows the decimal.** -/
theorem ofText?_scientific (d : Decimal) : ofText? d.scientific = some d := by
  obtain ⟨first, others, power, whole, fraction, run, eq, parts⟩ := scientific_cases d
  have exp := exponent?_signed (d.leading < 0) run
  simp only [decide_eq_true_eq] at exp
  have letter : EndsRun ('e' :: (if d.leading < 0 then '-' else '+') :: power) := endsRun_cons rfl
  rw [eq]
  rcases fraction with rfl | h
  · have reads := ofText?_letter whole.toIsRun (c := 'e') rfl (by decide)
      ((if d.leading < 0 then '-' else '+') :: power)
    rw [exp, Option.map_some, parts] at reads
    exact reads
  · have reads := ofText?_point_letter whole.toIsRun h letter
    rw [exp, Option.map_some, parts] at reads
    rw [if_neg (by simpa using h.ne_nil)]
    exact reads

end Decimal
end DeskCalculator
