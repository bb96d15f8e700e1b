/-
# Texts that show a whole number

`Shows` is the grammar: margins, a sign or none, digits of any script with single underscores
between them, and margins again.  Reading takes in exactly these texts (`wholeNumber_eq_ok_iff`),
since neither a digit nor an underscore can be mistaken for a margin.

A text shows a whole number only if it has at most `Text.maxDigits` digits, leading zeros included,
so the number has no more of them when it is written (`length_toDigits_of_wholeNumber`): whatever
can be typed as a whole number can be kept in a file.
-/

import DeskCalculator.Text.WholeNumber
import Mathlib.Data.List.TakeWhile

namespace DeskCalculator
namespace Text

/-- Digits that are read are below ten. -/
theorem lt_ten_of_moreDigits? {cs : List Char} {digits : List Nat}
    (h : moreDigits? cs = some digits) : ∀ d ∈ digits, d < 10 := by
  fun_induction moreDigits? cs generalizing digits with
  | case1 =>
    cases h
    exact List.forall_mem_nil _
  | case2 c rest ih =>
    obtain ⟨d, hd, h⟩ := Option.bind_eq_some_iff.1 h
    obtain ⟨more, hm, h⟩ := Option.bind_eq_some_iff.1 h
    cases h
    exact List.forall_mem_cons.2 ⟨digit?_lt hd, ih hm⟩
  | case3 c rest _ ih =>
    obtain ⟨d, hd, h⟩ := Option.bind_eq_some_iff.1 h
    obtain ⟨more, hm, h⟩ := Option.bind_eq_some_iff.1 h
    cases h
    exact List.forall_mem_cons.2 ⟨digit?_lt hd, ih hm⟩

/-- Digits that are read from the first on are below ten. -/
theorem lt_ten_of_digits? {cs : List Char} {digits : List Nat} (h : digits? cs = some digits) :
    ∀ d ∈ digits, d < 10 := by
  cases cs with
  | nil => cases h
  | cons c rest =>
    obtain ⟨d, hd, h⟩ := Option.bind_eq_some_iff.1 h
    obtain ⟨more, hm, h⟩ := Option.bind_eq_some_iff.1 h
    cases h
    exact List.forall_mem_cons.2 ⟨digit?_lt hd, lt_ten_of_moreDigits? hm⟩

/-- Digits behind a total show less than the next total would with as many zeros behind it. -/
theorem foldl_digits_lt {digits : List Nat} (h : ∀ d ∈ digits, d < 10) (total : Nat) :
    digits.foldl (fun total d => 10 * total + d) total <
      (total + 1) * Nat.pow 10 digits.length := by
  rw [Nat.pow_eq]
  induction digits generalizing total with
  | nil => simp
  | cons d digits ih =>
    obtain ⟨small, h⟩ := List.forall_mem_cons.1 h
    rw [List.foldl_cons, List.length_cons, Nat.pow_succ']
    calc
      _ < (10 * total + d + 1) * 10 ^ digits.length := ih h _
      _ ≤ (total + 1) * 10 * 10 ^ digits.length := Nat.mul_le_mul_right _ (by omega)
      _ = (total + 1) * (10 * 10 ^ digits.length) := Nat.mul_assoc ..

/-- Digits make a number below the power of ten of their count. -/
theorem ofDigits_lt {digits : List Nat} (h : ∀ d ∈ digits, d < 10) :
    ofDigits digits < Nat.pow 10 digits.length := by
  have := foldl_digits_lt h 0
  rwa [Nat.zero_add, Nat.one_mul] at this

/-- **A whole number that is read is short enough to be written.** -/
theorem length_toDigits_of_wholeNumber {s : String} {i : Int} (h : wholeNumber s = .ok i) :
    (Nat.toDigits 10 i.natAbs).length ≤ maxDigits := by
  unfold wholeNumber at h
  simp only [] at h
  split at h
  · cases h
  · rename_i digits read
    split at h
    · cases h
    · rename_i short
      split at h
      · cases h
        have abs (negative : Bool) (n : Nat) : (if negative then -(n : Int) else n).natAbs = n := by
          split <;> omega
        rw [abs, Nat.length_toDigits_le_iff (by decide) (by decide)]
        calc
          _ < 10 ^ digits.length := ofDigits_lt (lt_ten_of_digits? read)
          _ ≤ 10 ^ maxDigits := Nat.pow_le_pow_right (by decide) (Nat.not_lt.1 short)
      · cases h

/-- A text reads as a whole number exactly if reading it does not fail. -/
theorem wholeNumber?_eq_some_iff {s : String} {i : Int} :
    wholeNumber? s = some i ↔ wholeNumber s = .ok i := by
  unfold wholeNumber?
  cases wholeNumber s <;> simp [Except.toOption]

/-- What may stand behind a digit of a number: digits with their values, each behind a single
underscore or none. -/
inductive MoreDigits : List Char → List Nat → Prop
  | none : MoreDigits [] []
  | digit {c : Char} {d : Nat} {cs : List Char} {ds : List Nat} (h : digit? c = some d)
      (more : MoreDigits cs ds) : MoreDigits (c :: cs) (d :: ds)
  | joint {c : Char} {d : Nat} {cs : List Char} {ds : List Nat} (h : digit? c = some d)
      (more : MoreDigits cs ds) : MoreDigits ('_' :: c :: cs) (d :: ds)

/-- The digits of a number with their values, the first one not behind an underscore. -/
inductive Digits : List Char → List Nat → Prop
  | digit {c : Char} {d : Nat} {cs : List Char} {ds : List Nat} (h : digit? c = some d)
      (more : MoreDigits cs ds) : Digits (c :: cs) (d :: ds)

/-- A sign or none, and whether it is a minus. -/
inductive Sign : List Char → Bool → Prop
  | none : Sign [] false
  | plus : Sign ['+'] false
  | minus : Sign ['-'] true

/-- A text that shows a whole number: a sign and at most 4300 digits, between margins. -/
inductive Shows : String → Int → Prop
  | mk {before sign cs after : List Char} {negative : Bool} {ds : List Nat}
      (front : ∀ c ∈ before, isMargin c = true) (hs : Sign sign negative) (digits : Digits cs ds)
      (short : ds.length ≤ maxDigits) (back : ∀ c ∈ after, isMargin c = true) :
      Shows (.ofList (before ++ (sign ++ cs) ++ after))
        (if negative then -(ofDigits ds : Int) else ofDigits ds)

/-- An underscore is no digit. -/
theorem digit?_underscore : digit? '_' = none := by decide

/-- Further digits are read exactly if the grammar has them. -/
theorem moreDigits?_eq_some_iff {cs : List Char} {ds : List Nat} :
    moreDigits? cs = some ds ↔ MoreDigits cs ds := by
  constructor
  · intro h
    fun_induction moreDigits? cs generalizing ds with
    | case1 =>
      cases h
      exact .none
    | case2 c rest ih =>
      obtain ⟨d, hd, h⟩ := Option.bind_eq_some_iff.1 h
      obtain ⟨more, hm, h⟩ := Option.bind_eq_some_iff.1 h
      cases h
      exact .joint hd (ih hm)
    | case3 c rest _ ih =>
      obtain ⟨d, hd, h⟩ := Option.bind_eq_some_iff.1 h
      obtain ⟨more, hm, h⟩ := Option.bind_eq_some_iff.1 h
      cases h
      exact .digit hd (ih hm)
  · intro h
    induction h with
    | none => rfl
    | @digit c d cs ds h more ih =>
      have ne : c ≠ '_' := by
        rintro rfl
        rw [digit?_underscore] at h
        cases h
      rw [moreDigits?.eq_def]
      split
      · rename_i eq
        cases eq
      · rename_i eq
        exact absurd (List.cons.inj eq).1 ne
      · rename_i eq
        obtain ⟨rfl, rfl⟩ := List.cons.inj eq
        rw [h, ih]
        rfl
    | joint h more ih =>
      rw [moreDigits?, h, ih]
      rfl

/-- Digits are read exactly if the grammar has them. -/
theorem digits?_eq_some_iff {cs : List Char} {ds : List Nat} :
    digits? cs = some ds ↔ Digits cs ds := by
  constructor
  · intro h
    cases cs with
    | nil => cases h
    | cons c rest =>
      obtain ⟨d, hd, h⟩ := Option.bind_eq_some_iff.1 h
      obtain ⟨more, hm, h⟩ := Option.bind_eq_some_iff.1 h
      cases h
      exact .digit hd (moreDigits?_eq_some_iff.1 hm)
  · rintro ⟨h, more⟩
    rw [digits?, h, moreDigits?_eq_some_iff.2 more]
    rfl

/-- A digit is a digit or a joint. -/
theorem isDigitOrJoint_of_digit? {c : Char} {d : Nat} (h : digit? c = some d) :
    isDigitOrJoint c = true := by
  rw [isDigitOrJoint, h, Option.isSome_some, Bool.or_true]

/-- Further digits are made of digits and joints. -/
theorem MoreDigits.isDigitOrJoint {cs : List Char} {ds : List Nat} (h : MoreDigits cs ds) :
    ∀ c ∈ cs, isDigitOrJoint c = true := by
  induction h with
  | none => exact List.forall_mem_nil _
  | digit h more ih => exact List.forall_mem_cons.2 ⟨isDigitOrJoint_of_digit? h, ih⟩
  | joint h more ih =>
    exact List.forall_mem_cons.2 ⟨rfl, List.forall_mem_cons.2 ⟨isDigitOrJoint_of_digit? h, ih⟩⟩

/-- Digits are made of digits and joints. -/
theorem Digits.isDigitOrJoint {cs : List Char} {ds : List Nat} (h : Digits cs ds) :
    ∀ c ∈ cs, isDigitOrJoint c = true := by
  cases h with
  | digit h more => exact List.forall_mem_cons.2 ⟨isDigitOrJoint_of_digit? h, more.isDigitOrJoint⟩

/-- There is a digit at least. -/
theorem Digits.ne_nil {cs : List Char} {ds : List Nat} (h : Digits cs ds) : cs ≠ [] := by
  cases h with
  | digit h more => exact List.cons_ne_nil _ _

/-- No digit of any script is a blank. -/
theorem isBlank_of_digit? {c : Char} {d : Nat} (h : digit? c = some d) : isBlank c = false := by
  obtain ⟨z, hz, -⟩ := Option.map_eq_some_iff.1 h
  have range := List.find?_some hz
  simp only [Bool.and_eq_true, decide_eq_true_eq] at range
  -- The ten digits from a zero on lie in front of every run of blanks or behind it.
  have apart : ∀ z ∈ zeros, 0x30 ≤ z ∧
      ∀ b ∈ [0x85, 0xA0, 0x1680, 0x2000, 0x2028, 0x202F, 0x205F, 0x3000],
        z + 9 < b ∨ b + 10 < z := by decide
  have := apart z (List.mem_of_find?_eq_some hz)
  simp only [List.forall_mem_cons] at this
  simp only [isBlank, Bool.or_eq_false_iff, Bool.and_eq_false_iff, decide_eq_false_iff_not,
    beq_eq_false_iff_ne]
  omega

/-- Neither a digit nor a joint is taken off as a margin. -/
theorem isMargin_of_isDigitOrJoint {c : Char} (h : isDigitOrJoint c = true) :
    isMargin c = false := by
  simp only [isDigitOrJoint, Bool.or_eq_true, beq_iff_eq, Option.isSome_iff_exists] at h
  rcases h with rfl | ⟨d, h⟩
  · rfl
  · rw [isMargin, isBlank_of_digit? h, Bool.false_and]

/-- The margins are what trimming takes away. -/
theorem exists_eq_append_trimMargin (cs : List Char) :
    ∃ before after, cs = before ++ trimMargin cs ++ after ∧
      (∀ c ∈ before, isMargin c = true) ∧ ∀ c ∈ after, isMargin c = true := by
  refine ⟨cs.takeWhile isMargin, ((cs.dropWhile isMargin).reverse.takeWhile isMargin).reverse,
    ?_, fun c => List.mem_takeWhile_imp, fun c hc => ?_⟩
  · rw [trimMargin, List.append_assoc, ← List.reverse_append, List.takeWhile_append_dropWhile,
      List.reverse_reverse, List.takeWhile_append_dropWhile]
  · exact List.mem_takeWhile_imp (List.mem_reverse.1 hc)

/-- What stands between margins is what trimming leaves, if no margin is at its ends. -/
theorem trimMargin_append {before cs after : List Char} (front : ∀ c ∈ before, isMargin c = true)
    (back : ∀ c ∈ after, isMargin c = true) (ne : cs ≠ [])
    (inside : ∀ c ∈ cs, isMargin c = false) : trimMargin (before ++ cs ++ after) = cs := by
  obtain ⟨c, rest, rfl⟩ := List.exists_cons_of_ne_nil ne
  obtain ⟨last, init, reversed⟩ := List.exists_cons_of_ne_nil (List.reverse_ne_nil_iff.2 ne)
  have hlast : isMargin last = false :=
    inside last (List.mem_reverse.1 (by rw [reversed]; exact List.mem_cons_self))
  rw [trimMargin, List.append_assoc, List.dropWhile_append_of_pos front, List.cons_append,
    List.dropWhile_cons_of_neg (by simpa using inside c List.mem_cons_self), ← List.cons_append,
    List.reverse_append, List.dropWhile_append_of_pos fun c hc => back c (List.mem_reverse.1 hc),
    reversed, List.dropWhile_cons_of_neg (by simpa using hlast), ← reversed, List.reverse_reverse]

/-- A sign is taken off. -/
theorem exists_sign (cs : List Char) :
    ∃ sign, cs = sign ++ (splitSign cs).2 ∧ Sign sign (splitSign cs).1 := by
  unfold splitSign
  split
  · exact ⟨['-'], rfl, .minus⟩
  · exact ⟨['+'], rfl, .plus⟩
  · exact ⟨[], rfl, .none⟩

/-- The sign in front of digits is split off. -/
theorem splitSign_append {sign cs : List Char} {negative : Bool} {ds : List Nat}
    (h : Sign sign negative) (digits : Digits cs ds) : splitSign (sign ++ cs) = (negative, cs) := by
  cases h with
  | plus => rfl
  | minus => rfl
  | none =>
    cases digits with
    | @digit c d cs ds h more =>
      have ne {s : Char} (hs : digit? s = none) : c ≠ s := by
        rintro rfl
        rw [h] at hs
        cases hs
      rw [List.nil_append, splitSign.eq_def]
      split
      · rename_i eq
        exact absurd (List.cons.inj eq).1 (ne (by decide))
      · rename_i eq
        exact absurd (List.cons.inj eq).1 (ne (by decide))
      · rfl

/-- A sign is not taken off as a margin. -/
theorem Sign.isMargin {sign : List Char} {negative : Bool} (h : Sign sign negative) :
    ∀ c ∈ sign, isMargin c = false := by
  cases h with
  | none => exact List.forall_mem_nil _
  | plus => exact List.forall_mem_singleton.2 rfl
  | minus => exact List.forall_mem_singleton.2 rfl

/-- **What is read as a whole number is what shows one.** -/
theorem wholeNumber_eq_ok_iff {s : String} {i : Int} : wholeNumber s = .ok i ↔ Shows s i := by
  constructor
  · intro h
    obtain ⟨before, after, eq, front, back⟩ := exists_eq_append_trimMargin s.toList
    obtain ⟨sign, signed, hs⟩ := exists_sign (trimMargin s.toList)
    unfold wholeNumber at h
    simp only [] at h
    split at h
    · cases h
    · rename_i digits read
      split at h
      · cases h
      · rename_i short
        split at h
        · rename_i all
          cases h
          rw [List.takeWhile_eq_self_iff.2 (List.all_eq_true.1 all)] at read
          have shows := Shows.mk front hs (digits?_eq_some_iff.1 read) (Nat.not_lt.1 short) back
          rwa [← signed, ← eq, String.ofList_toList] at shows
        · cases h
  · intro h
    cases h with
    | @mk before sign cs after negative ds front hs digits short back =>
      have joints := digits.isDigitOrJoint
      have trimmed := trimMargin_append front back
        (List.append_ne_nil_of_right_ne_nil sign digits.ne_nil) (List.forall_mem_append.2
          ⟨hs.isMargin, fun c hc => isMargin_of_isDigitOrJoint (joints c hc)⟩)
      rw [wholeNumber, String.toList_ofList, trimmed, splitSign_append hs digits]
      simp only [List.takeWhile_eq_self_iff.2 joints, digits?_eq_some_iff.2 digits,
        if_neg (Nat.not_lt.2 short), List.all_eq_true.2 joints, if_true]

end Text
end DeskCalculator
