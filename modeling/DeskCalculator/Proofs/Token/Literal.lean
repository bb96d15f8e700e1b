/-
# Tokens of a literal

A text in the alphabet is sanitized and validated without a change, so its tokens are those that
the scanner finds in it (`tokensOf_eq_scan`).  A literal is one piece of its text, which gives one
number token (`ofPiece_literal`).
-/

import DeskCalculator.Calculation
import DeskCalculator.Proofs.Token.WellFormed

namespace DeskCalculator

namespace Token

/-- The characters that the scanner has a use for: its three classes taken together. -/
def isInAlphabet (c : Char) : Bool := isNumeric c || isLetter c || (symbol? c).isSome

/-- The alphabet is a part of the printable ASCII characters. -/
theorem toNat_of_isInAlphabet {c : Char} (h : isInAlphabet c = true) :
    0x24 < c.toNat ∧ c.toNat < 0x7B := by
  rw [isInAlphabet, Bool.or_eq_true, Bool.or_eq_true] at h
  rcases h with (h | h) | h
  · rw [isNumeric, Bool.or_eq_true, beq_iff_eq] at h
    rcases h with h | rfl
    · obtain ⟨lower, upper⟩ := Char.isDigit_iff_toNat.1 h
      exact ⟨Nat.lt_of_lt_of_le (by decide) lower, Nat.lt_of_le_of_lt upper (by decide)⟩
    · decide
  · have runs := toNat_of_isLetter h
    omega
  · obtain ⟨kind, hk⟩ := Option.isSome_iff_exists.1 h
    rcases symbol?_eq_some hk with ⟨-, hc⟩ | ⟨-, rfl⟩ | ⟨-, rfl⟩ | ⟨-, rfl⟩
    · simp only [operators, List.mem_cons, List.not_mem_nil, or_false] at hc
      rcases hc with rfl | rfl | rfl | rfl | rfl | rfl <;> decide
    · decide
    · decide
    · decide

/-- There is no blank in the alphabet. -/
theorem isBlank_of_isInAlphabet {c : Char} (h : isInAlphabet c = true) :
    Text.isBlank c = false := by
  have := toNat_of_isInAlphabet h
  simp [Text.isBlank]
  omega

/-- The signs of the alphabet are plain already. -/
theorem plainSign_of_isInAlphabet {c : Char} (h : isInAlphabet c = true) : plainSign c = c := by
  have range := toNat_of_isInAlphabet h
  unfold plainSign
  split
  · exact absurd range (by decide)
  · exact absurd range (by decide)
  · exact absurd range (by decide)
  · rfl

/-- The validator lets no character pass that is above the letters. -/
theorem toNat_of_isAdmitted {c : Char} (h : isAdmitted c = true) : c.toNat < 0x7B := by
  have below {d : Char} (hd : d.toNat < 0x7B) (le : c ≤ d) : c.toNat < 0x7B :=
    Nat.lt_of_le_of_lt (UInt32.le_iff_toNat_le.1 (Char.le_def.1 le)) hd
  simp only [isAdmitted, Bool.or_eq_true, Bool.and_eq_true, decide_eq_true_eq,
    List.contains_iff_mem] at h
  obtain ((⟨-, digit⟩ | sign) | ⟨-, capital⟩) | ⟨-, letter⟩ := h
  · exact below (by decide) digit
  · have signs : ['+', '-', '*', '/', '^', '(', ')', '.', ',', '%'].all
        (decide <| ·.toNat < 0x7B) = true := by decide
    exact of_decide_eq_true (List.all_eq_true.1 signs c sign)
  · exact below (by decide) capital
  · exact below (by decide) letter

/-- **The validator and the scanner have one alphabet,** though each of them states its own: the
validator a class of signs and ranges, the scanner three classes of characters. -/
theorem isAdmitted_eq_isInAlphabet : isAdmitted = isInAlphabet := by
  funext c
  by_cases low : c.toNat < 0x7B
  · have table : ∀ n < 0x7B, isAdmitted (Char.ofNat n) = isInAlphabet (Char.ofNat n) := by
      decide +kernel
    have same := table c.toNat low
    rwa [Char.ofNat_toNat] at same
  · rw [Bool.eq_false_iff.2 fun admitted => low (toNat_of_isAdmitted admitted),
      Bool.eq_false_iff.2 fun inside => low (toNat_of_isInAlphabet inside).2]

end Token

/-- A text in the alphabet is sanitized already. -/
theorem sanitize_eq_self {text : CodeText}
    (h : ∀ p ∈ text.points, p.isIn Token.isInAlphabet = true) : sanitize text = text := by
  have kept : text.points.filter (!·.isIn Text.isBlank) = text.points := by
    refine List.filter_eq_self.2 fun p hp => ?_
    obtain ⟨c, rfl, hc⟩ := CodePoint.isIn_iff.1 (h p hp)
    rw [CodePoint.isIn_ofChar, Token.isBlank_of_isInAlphabet hc]
    rfl
  have same : text.points.map (·.mapChar plainSign) = text.points := by
    rw [List.map_congr_left (g := id), List.map_id]
    intro p hp
    obtain ⟨c, rfl, hc⟩ := CodePoint.isIn_iff.1 (h p hp)
    rw [CodePoint.mapChar_ofChar, Token.plainSign_of_isInAlphabet hc]
    rfl
  rw [sanitize, kept, same]

/-- A text in the alphabet is valid. -/
theorem validate_eq_ok {text : CodeText}
    (h : ∀ p ∈ text.points, p.isIn Token.isInAlphabet = true) : validate text = .ok () := by
  have none : text.points.findIdx? (!·.isIn Token.isInAlphabet) = none := by
    refine List.findIdx?_eq_none_iff.2 fun p hp => ?_
    rw [h p hp]
    rfl
  rw [validate, Token.isAdmitted_eq_isInAlphabet, none]

/-- **A text in the alphabet is what the scanner is given.** -/
theorem tokensOf_eq_scan {text : CodeText}
    (h : ∀ p ∈ text.points, p.isIn Token.isInAlphabet = true) :
    tokensOf (some text) = Token.scan text := by
  rw [tokensOf, Option.getD_some, sanitize_eq_self h, validate_eq_ok h]
  rfl

namespace Token

/-- Digits and the point are in the alphabet. -/
theorem isInAlphabet_of_isNumeric {c : Char} (h : isNumeric c = true) : isInAlphabet c = true := by
  rw [isInAlphabet, h, Bool.true_or, Bool.true_or]

/-- A run of numeric characters is one piece. -/
theorem pieces_numeric {cs : List Char} (h : ∀ c ∈ cs, isNumeric c = true) (ne : cs ≠ []) :
    pieces (cs.map CodePoint.ofChar) = [cs.map CodePoint.ofChar] := by
  refine List.splitBy_of_isChain (by simpa using ne) (List.Pairwise.isChain ?_)
  refine List.pairwise_map.2 (List.Pairwise.imp_of_mem (R := fun _ _ => True) ?_
    (List.pairwise_of_forall fun _ _ => trivial))
  intro c d hc hd _
  rw [joins, CodePoint.isIn_ofChar, CodePoint.isIn_ofChar, h c hc, h d hd]
  rfl

/-- The piece of a literal is a number token. -/
theorem ofPiece_literal {cs : List Char} (h : Decimal.IsLiteral cs) (position : Nat) :
    ofPiece (position, cs.map CodePoint.ofChar) = .ok ⟨.number, .ofList cs, position⟩ := by
  have points : (cs.map CodePoint.ofChar).count (.ofChar '.') < 2 := by
    rw [List.count_map_of_injective cs CodePoint.ofChar fun _ _ => CodePoint.ofChar_inj.1]
    exact h.points
  have digits : cs.map CodePoint.ofChar ≠ [.ofChar '.'] := by
    intro eq
    refine h.digits (List.map_injective_iff.2 (fun _ _ => CodePoint.ofChar_inj.1) ?_)
    rw [eq]
    rfl
  have text := CodeText.shown_map_ofChar cs
  cases cs with
  | nil => exact absurd rfl h.ne_nil
  | cons c cs =>
    have numeric : (CodePoint.ofChar c).isIn isNumeric = true := by
      rw [CodePoint.isIn_ofChar]
      exact h.numeric c List.mem_cons_self
    rw [List.map_cons] at points digits text ⊢
    simp only [ofPiece, numeric, if_true, if_neg (Nat.not_le.2 points), if_neg digits, text]

/-- A literal and a minus sign in front of it are in the alphabet. -/
theorem isInAlphabet_of_mem_signed {cs : List Char} (h : Decimal.IsLiteral cs) (negative : Bool) :
    ∀ p ∈ (CodeText.ofString (.ofList (Binary64.signText negative ++ cs))).points,
      p.isIn isInAlphabet = true := by
  intro p hp
  rw [CodeText.ofString, String.toList_ofList] at hp
  obtain ⟨c, hc, rfl⟩ := List.mem_map.1 hp
  rw [CodePoint.isIn_ofChar]
  rcases List.mem_append.1 hc with hc | hc
  · cases negative with
    | false => cases hc
    | true =>
      obtain rfl := List.mem_singleton.1 hc
      decide
  · exact isInAlphabet_of_isNumeric (h.numeric c hc)

end Token
end DeskCalculator
