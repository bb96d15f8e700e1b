/-
# Written numbers read back

A number is read as far as it goes: digits, then a fraction and an exponent if they are there.  So a
written number reads back in front of anything that does not go on with it (`EndsNumber`).  A whole
number comes back as itself (`isScalar_toString`), and so does a double, since the digits that are
written are those of a decimal that rounds to it (`isScalar_number`).
-/

import DeskCalculator.Proofs.Decimal.Scientific
import DeskCalculator.Proofs.Except
import DeskCalculator.Settings.Parser
import DeskCalculator.Settings.Writer

namespace DeskCalculator
namespace Settings
namespace Json

open Decimal (EndsRun IsRun IsWhole dropWhile_run endsRun_cons isRun_toDigits isWhole_toDigits
  isWhole_zero scientific_cases signed takeWhile_run)

/-- What stands behind a number does not go on with it. -/
def EndsNumber (rest : List Char) : Prop :=
  ∀ c, rest.head? = some c → c.isDigit = false ∧ c ≠ '.' ∧ c ≠ 'e' ∧ c ≠ 'E'

variable {digits decimals power rest : List Char}

/-- What ends a number ends a run of digits. -/
theorem EndsNumber.endsRun (h : EndsNumber rest) : EndsRun rest := fun c hc => (h c hc).1

/-- The digits of a whole number are read to the last. -/
theorem whole?_append (h : IsWhole digits) (ends : EndsRun rest) :
    whole? (digits ++ rest) = some (digits, rest) := by
  rw [whole?.eq_def]
  split
  · rename_i tail eq
    have zero : digits.head? = some '0' := by
      rw [← Decimal.head?_append_of_ne_nil h.ne_nil rest, eq]
      rfl
    obtain rfl := h.noZero zero
    rw [(List.cons.inj eq).2.symm]
    rfl
  · simp only [takeWhile_run h.toIsRun ends, dropWhile_run h.toIsRun ends, if_neg h.ne_nil]

/-- A point with a run of digits behind it is a fraction. -/
theorem fraction_point (h : IsRun decimals) (ends : EndsRun rest) :
    fraction ('.' :: (decimals ++ rest)) = (decimals, rest) := by
  simp only [fraction, takeWhile_run h ends, dropWhile_run h ends, if_neg h.ne_nil]

/-- Without a point there is no fraction. -/
theorem fraction_of_head?_ne (h : rest.head? ≠ some '.') : fraction rest = ([], rest) := by
  unfold fraction
  split
  · exact absurd rfl h
  · rfl

/-- Without an `e` there is no exponent. -/
theorem exponent_of_head?_ne (h : ∀ c, rest.head? = some c → c ≠ 'e' ∧ c ≠ 'E') :
    exponent rest = (none, rest) := by
  cases rest with
  | nil => rfl
  | cons c rest =>
    obtain ⟨small, large⟩ := h c rfl
    simp [exponent, small, large]

/-- What ends a number is no exponent. -/
theorem EndsNumber.exponent (h : EndsNumber rest) : Json.exponent rest = (none, rest) :=
  exponent_of_head?_ne fun c hc => (h c hc).2.2

/-- What ends a number is no fraction. -/
theorem EndsNumber.fraction (h : EndsNumber rest) : Json.fraction rest = ([], rest) :=
  fraction_of_head?_ne fun hc => (h '.' hc).2.1 rfl

/-- An exponent with its sign is read to the last digit. -/
theorem exponent_append (negative : Bool) (h : IsRun power) (ends : EndsRun rest) :
    exponent ('e' :: (if negative then '-' else '+') :: (power ++ rest)) =
      (some (signed negative (Nat.ofDigitChars 10 power 0)), rest) := by
  simp only [exponent, Decimal.splitSign_signed, takeWhile_run h ends, dropWhile_run h ends]
  rw [if_pos ⟨.inl trivial, h.ne_nil⟩]
  rfl

/-- Digits without a fraction and an exponent are a whole number. -/
theorem magnitude_of_none {negative : Bool} {cs behind : List Char}
    (whole : whole? cs = some (digits, behind)) (point : fraction behind = ([], behind))
    (power : exponent behind = (none, rest)) :
    magnitude negative cs = (integer negative digits).map (·, rest) := by
  simp only [magnitude, whole, point, power, required, bind, Except.bind]
  cases integer negative digits <;> rfl

/-- Digits with a fraction or an exponent are a number. -/
theorem magnitude_of_ne_none {negative : Bool} {cs behind behind' : List Char} {power : Option Int}
    (whole : whole? cs = some (digits, behind)) (point : fraction behind = (decimals, behind'))
    (exp : exponent behind' = (power, rest)) (ne : decimals ≠ [] ∨ power ≠ none) :
    magnitude negative cs =
      .ok (.number ((Decimal.ofParts digits decimals (power.getD 0)).nearest negative), rest) := by
  simp only [magnitude, whole, point, exp, required, bind, Except.bind]
  cases decimals with
  | nil =>
    cases power with
    | none => simp at ne
    | some e => rfl
  | cons c decimals => cases power <;> rfl

/-- Digits alone are a whole number. -/
theorem magnitude_whole (negative : Bool) (h : IsWhole digits)
    (short : digits.length ≤ Text.maxDigits) (ends : EndsNumber rest) :
    magnitude negative (digits ++ rest) =
      .ok (.integer (signed negative (Nat.ofDigitChars 10 digits 0)), rest) := by
  have fits : ¬Text.maxDigits < digits.length := by omega
  rw [magnitude_of_none (whole?_append h ends.endsRun) ends.fraction ends.exponent, integer,
    if_neg fits]
  rfl

/-- Digits around a point are a number. -/
theorem magnitude_point (negative : Bool) (h : IsWhole digits) (hd : IsRun decimals)
    (ends : EndsNumber rest) :
    magnitude negative (digits ++ '.' :: (decimals ++ rest)) =
      .ok (.number ((Decimal.ofParts digits decimals 0).nearest negative), rest) :=
  magnitude_of_ne_none (whole?_append h (endsRun_cons rfl)) (fraction_point hd ends.endsRun)
    ends.exponent (.inl hd.ne_nil)

/-- The scientific form reads back as the same decimal. -/
theorem magnitude_scientific (negative : Bool) (d : Decimal) (ends : EndsNumber rest) :
    magnitude negative (d.scientific ++ rest) = .ok (.number (d.nearest negative), rest) := by
  obtain ⟨first, others, power, whole, decimals, run, eq, parts⟩ := scientific_cases d
  have exp := exponent_append (d.leading < 0) run ends.endsRun
  simp only [decide_eq_true_eq] at exp
  generalize (if d.leading < 0 then '-' else '+') = sign at eq exp
  generalize hp : (if others.isEmpty then [] else '.' :: others) = point at eq
  have fraction : fraction (point ++ 'e' :: sign :: (power ++ rest)) =
      (others, 'e' :: sign :: (power ++ rest)) ∧
      EndsRun (point ++ 'e' :: sign :: (power ++ rest)) := by
    rw [← hp]
    rcases decimals with rfl | h
    · exact ⟨fraction_of_head?_ne (by simp), endsRun_cons rfl⟩
    · rw [if_neg (by simpa using h.ne_nil)]
      exact ⟨fraction_point h (endsRun_cons rfl), endsRun_cons rfl⟩
  have eq : d.scientific ++ rest = [first] ++ (point ++ 'e' :: sign :: (power ++ rest)) := by
    rw [eq]
    simp
  rw [eq, magnitude_of_ne_none (whole?_append whole fraction.2) fraction.1 exp (.inr nofun),
    Option.getD_some, parts]

/-- A zero behind the point does not change a number. -/
theorem nearest_ofParts_zero (negative : Bool) (digits : List Char) :
    (Decimal.ofParts digits ['0'] 0).nearest negative =
      (Decimal.ofParts digits [] 0).nearest negative := by
  rw [Decimal.ofParts_zero, Decimal.ofParts, List.append_nil]
  exact (Decimal.nearest_shift negative _ (-1)).symm

/-- **The written form of a decimal that is not zero reads back.** -/
theorem magnitude_literal (negative : Bool) {d : Decimal} (ne : d.coefficient ≠ 0)
    (ends : EndsNumber rest) :
    magnitude negative (d.literal ++ rest) = .ok (.number (d.nearest negative), rest) := by
  unfold Decimal.literal
  split
  · rcases d.positional_cases with
      ⟨whole, run, noZero, reads⟩ | ⟨places, digits, decimals, eq, hw, hd, parts⟩
    · have h : IsWhole d.positional := ⟨run, fun zero => absurd zero (noZero ne)⟩
      rw [if_pos whole, List.append_assoc, ← reads, ← nearest_ofParts_zero]
      exact magnitude_point negative h isWhole_zero.toIsRun ends
    · rw [if_neg (by omega), List.append_nil, eq, List.append_assoc, List.cons_append,
        magnitude_point negative hw hd ends, parts]
  · exact magnitude_scientific negative d ends

/-- The written form of a decimal begins with a digit. -/
theorem exists_literal_eq_cons (d : Decimal) : ∃ c cs, d.literal = c :: cs ∧ c.isDigit = true := by
  have cons {cs : List Char} (run : IsRun cs) (more : List Char) :
      ∃ c cs', cs ++ more = c :: cs' ∧ c.isDigit = true := by
    obtain ⟨c, cs, rfl⟩ := List.exists_cons_of_ne_nil run.ne_nil
    exact ⟨c, cs ++ more, rfl, run.digits c List.mem_cons_self⟩
  unfold Decimal.literal
  split
  · rcases d.positional_cases with ⟨-, run, -⟩ | ⟨-, digits, decimals, eq, hw, -⟩
    · exact cons run _
    · rw [eq, List.append_assoc]
      exact cons hw.toIsRun _
  · obtain ⟨first, others, power, whole, -, -, eq, -⟩ := scientific_cases d
    exact ⟨first, _, eq, whole.digits first List.mem_cons_self⟩

/-- What begins with a digit, or with one behind a minus sign, is read as a number. -/
theorem scalar_signText_append (negative : Bool) {c : Char} (h : c.isDigit = true)
    (cs : List Char) :
    scalar (Binary64.signText negative ++ c :: cs) = magnitude negative (c :: cs) := by
  have ne {d : Char} (hd : d.isDigit = false) : c ≠ d := by
    rintro rfl
    rw [h] at hd
    cases hd
  cases negative with
  | false =>
    simp only [Binary64.signText, Bool.false_eq_true, if_false, List.nil_append]
    rw [scalar.eq_def]
    split
    case h_8 => rfl
    all_goals
      rename_i eq
      exact absurd (List.cons.inj eq).1 (ne rfl)
  | true =>
    simp only [Binary64.signText, if_true, List.singleton_append]
    rw [scalar.eq_def]
    split
    case h_6 eq => exact absurd (List.cons.inj (List.cons.inj eq).2).1 (ne rfl)
    case h_7 eq => rw [(List.cons.inj eq).2]
    case h_8 other => exact absurd rfl (other _)
    all_goals
      rename_i eq
      exact absurd (List.cons.inj eq).1 (by decide)

/-- A value on its own begins with a letter, a digit or a minus sign. -/
def beginsScalar (c : Char) : Bool := c.isAlphanum || c == '-'

/-- A number begins like a value on its own, with its sign or without. -/
theorem exists_signText_eq_cons (negative : Bool) {c : Char} (h : c.isDigit = true)
    (cs : List Char) :
    ∃ d ds, Binary64.signText negative ++ c :: cs = d :: ds ∧ beginsScalar d = true := by
  cases negative with
  | false => exact ⟨c, cs, rfl, by simp [beginsScalar, Char.isAlphanum, h]⟩
  | true => exact ⟨'-', c :: cs, rfl, rfl⟩

/-- A text that is read as a value on its own, wherever it ends. -/
structure IsScalar (cs : List Char) (v : Value) : Prop where
  head : ∃ c cs', cs = c :: cs' ∧ beginsScalar c = true
  reads : ∀ {rest}, EndsNumber rest → scalar (cs ++ rest) = .ok (v, rest)

/-- The null value reads back. -/
theorem isScalar_null : IsScalar ['n', 'u', 'l', 'l'] .null := ⟨⟨'n', _, rfl, rfl⟩, fun _ => rfl⟩

/-- A truth value reads back. -/
theorem isScalar_bool (b : Bool) :
    IsScalar (if b then ['t', 'r', 'u', 'e'] else ['f', 'a', 'l', 's', 'e']) (.bool b) := by
  cases b with
  | false => exact ⟨⟨'f', _, rfl, rfl⟩, fun _ => rfl⟩
  | true => exact ⟨⟨'t', _, rfl, rfl⟩, fun _ => rfl⟩

/-- A number behind its sign is a value if it is one without. -/
theorem isScalar_signText_append {cs : List Char} {v : Value} (negative : Bool)
    (head : ∃ c cs', cs = c :: cs' ∧ c.isDigit = true)
    (reads : ∀ {rest}, EndsNumber rest → magnitude negative (cs ++ rest) = .ok (v, rest)) :
    IsScalar (Binary64.signText negative ++ cs) v := by
  obtain ⟨c, cs, rfl, digit⟩ := head
  refine ⟨exists_signText_eq_cons negative digit cs, fun ends => ?_⟩
  rw [List.append_assoc, List.cons_append, scalar_signText_append negative digit]
  exact reads ends

/-- **A written double reads back:** an infinity, NaN and both zeros too. -/
theorem isScalar_number (x : Binary64) : IsScalar (number x) (.number x) := by
  cases x with
  | nan => exact ⟨⟨'N', _, rfl, rfl⟩, fun _ => rfl⟩
  | infinite negative =>
    cases negative with
    | false => exact ⟨⟨'I', _, rfl, rfl⟩, fun _ => rfl⟩
    | true => exact ⟨⟨'-', _, rfl, rfl⟩, fun _ => rfl⟩
  | finite negative m =>
    rw [number, Binary64.literal, String.toList_ofList]
    · split
      · rename_i zero
        obtain ⟨quanta, representable⟩ := m
        subst zero
        have reads {rest : List Char} (ends : EndsNumber rest) :
            magnitude negative (['0', '.', '0'] ++ rest) = .ok (.number (.zero negative), rest) :=
          magnitude_point negative isWhole_zero isWhole_zero.toIsRun ends
        exact isScalar_signText_append negative ⟨'0', _, rfl, rfl⟩ reads
      · rename_i nonzero
        refine isScalar_signText_append negative (exists_literal_eq_cons _) fun ends => ?_
        rw [magnitude_literal negative (Decimal.coefficient_shortest_ne_zero nonzero) ends,
          Decimal.nearest_shortest]
    all_goals nofun

/-- A whole number is written as its sign and its digits. -/
theorem toList_toString (i : Int) :
    (toString i).toList = Binary64.signText (i < 0) ++ Nat.toDigits 10 i.natAbs := by
  rw [Int.toString_eq_repr, Int.repr_eq_if]
  split
  · rename_i h
    rw [Nat.toList_repr, Binary64.signText, if_neg (by simpa using h), List.nil_append]
    congr 1
    omega
  · rename_i h
    rw [String.toList_append, Nat.toList_repr, Binary64.signText, if_pos (by simpa using h)]
    congr 2
    omega

/-- **A written whole number reads back,** unless it is too long to be written. -/
theorem isScalar_toString {i : Int} (h : (Nat.toDigits 10 i.natAbs).length ≤ Text.maxDigits) :
    IsScalar (toString i).toList (.integer i) := by
  have value : signed (i < 0) (Nat.ofDigitChars 10 (Nat.toDigits 10 i.natAbs) 0) = i := by
    rw [Nat.ofDigitChars_ten_toDigits, signed]
    simp only [decide_eq_true_eq]
    split <;> omega
  obtain ⟨c, cs, digits⟩ := List.exists_cons_of_ne_nil (isRun_toDigits i.natAbs).ne_nil
  have digit := (isRun_toDigits i.natAbs).digits c (by simp [digits])
  rw [toList_toString]
  refine isScalar_signText_append _ ⟨c, cs, digits, digit⟩ fun ends => ?_
  rw [magnitude_whole _ (isWhole_toDigits _) h ends, value]

end Json
end Settings
end DeskCalculator
