/-
# What the scanner promises about its tokens

The parser looks at the kind of a token and trusts its text.  The scanner earns that trust
(`wellFormed_of_scan`): the text of a number token can be read, and the text of an operator token is
one of the six operators.  Whatever the scanner refuses is a fault of the expression and nothing
else (`isFault_of_scan`).

A piece of a text is a chain of neighbours that belong together, so its first code point decides
what all of it is: a run of numeric characters, a run of letters, or that one code point alone.
-/

import DeskCalculator.Proofs.Decimal.Literal
import DeskCalculator.Proofs.Except
import DeskCalculator.Token.Scan
import Mathlib.Data.List.Count
import Mathlib.Data.List.SplitBy

namespace DeskCalculator

/-- A failure that is a fault of the expression, before anything names the text. -/
def Failure.IsFault (failure : Failure) : Prop := ∃ f, failure = .fault f none

/-- Raising a fault fails with that fault. -/
theorem Fault.isFault_of_raise {α : Type} {f : Fault} {e : Failure}
    (h : (f.raise : Except Failure α) = .error e) : e.IsFault := by
  cases h
  exact ⟨f, rfl⟩

namespace Token

/-- An operator token whose text is one of some signs. -/
def IsSign (symbols : List Char) (t : Token) : Prop :=
  t.kind = .operator ∧ ∃ c ∈ symbols, t.text = String.singleton c

/-- A token whose text is one of its kind. -/
structure WellFormed (t : Token) : Prop where
  number : t.kind = .number → ∃ x, Binary64.ofText? t.text = some x
  operator : t.kind = .operator → t.IsSign operators

/-- The letters are those of ASCII, in two runs. -/
theorem toNat_of_isLetter {c : Char} (h : isLetter c = true) :
    65 ≤ c.toNat ∧ c.toNat ≤ 90 ∨ 97 ≤ c.toNat ∧ c.toNat ≤ 122 := by
  have runs : (decide (c.val ≥ 'A'.val ∧ c.val ≤ 'Z'.val) ||
      (decide (c.val ≥ 'a'.val) && decide (c.val ≤ 'z'.val))) = true := h
  simp only [Bool.or_eq_true, Bool.and_eq_true, decide_eq_true_eq, ge_iff_le,
    UInt32.le_iff_toNat_le] at runs
  exact runs

/-- A character of a number is no letter. -/
theorem isLetter_of_isNumeric {c : Char} (h : isNumeric c = true) : isLetter c = false := by
  rw [isNumeric, Bool.or_eq_true, beq_iff_eq] at h
  rcases h with h | rfl
  · obtain ⟨lower, upper⟩ := Char.isDigit_iff_toNat.1 h
    refine Bool.eq_false_iff.2 fun letter => ?_
    have runs := toNat_of_isLetter letter
    have nine : '9'.toNat = 57 := rfl
    omega
  · rfl

/-- No character is both of a number and of a name. -/
theorem isIn_isLetter_of_isNumeric {p : CodePoint} (h : p.isIn isNumeric = true) :
    p.isIn isLetter = false := by
  obtain ⟨c, rfl, hc⟩ := CodePoint.isIn_iff.1 h
  rw [CodePoint.isIn_ofChar]
  exact isLetter_of_isNumeric hc

/-- A class of characters each of which belongs to one token with all of them, and with no other. -/
def IsClass (accepts : Char → Bool) : Prop :=
  ∀ p q : CodePoint, p.isIn accepts = true →
    joins p q = q.isIn accepts ∧ joins q p = q.isIn accepts

/-- Characters of numbers are one class for the scanner. -/
theorem isClass_isNumeric : IsClass isNumeric := by
  intro p q hp
  simp [joins, hp, isIn_isLetter_of_isNumeric hp]

/-- Letters are one class for the scanner. -/
theorem isClass_isLetter : IsClass isLetter := by
  intro p q hp
  have numeric : p.isIn isNumeric = false := by
    refine Bool.eq_false_iff.2 fun h => ?_
    rw [isIn_isLetter_of_isNumeric h] at hp
    cases hp
  simp [joins, hp, numeric]

/-- A piece that begins with a character of a class is a run of that class. -/
theorem IsClass.forall_of_isChain {accepts : Char → Bool} (h : IsClass accepts) :
    ∀ {p : CodePoint} {ps : List CodePoint}, (p :: ps).IsChain (joins · ·) →
      p.isIn accepts = true → ∀ q ∈ p :: ps, q.isIn accepts = true
  | p, [], _, hp, q, hq => by
      rw [List.mem_singleton] at hq
      exact hq ▸ hp
  | p, q :: ps, chain, hp, r, hr => by
      rw [List.isChain_cons_cons] at chain
      rcases List.mem_cons.1 hr with rfl | hr
      · exact hp
      · refine h.forall_of_isChain chain.2 ?_ r hr
        rw [← (h p q hp).1]
        exact chain.1

/-- A piece that begins with neither a numeric character nor a letter is that code point alone. -/
theorem eq_nil_of_isChain {p : CodePoint} {ps : List CodePoint}
    (chain : (p :: ps).IsChain (joins · ·)) (hn : p.isIn isNumeric = false)
    (hl : p.isIn isLetter = false) : ps = [] := by
  cases ps with
  | nil => rfl
  | cons q ps =>
    rw [List.isChain_cons_cons] at chain
    simp [joins, hn, hl] at chain

/-- The text of a number piece shows a number. -/
theorem exists_ofText?_shown {ps : List CodePoint} (h : ∀ p ∈ ps, p.isIn isNumeric = true)
    (ne : ps ≠ []) (points : ps.count (.ofChar '.') < 2) (digits : ps ≠ [.ofChar '.']) :
    ∃ x, Binary64.ofText? (CodeText.mk ps).shown = some x := by
  obtain ⟨cs, rfl, hcs⟩ := CodePoint.exists_map_ofChar h
  rw [List.count_map_of_injective cs CodePoint.ofChar fun _ _ => CodePoint.ofChar_inj.1] at points
  obtain ⟨d, hd⟩ := Decimal.exists_ofText? ⟨hcs, by rintro rfl; exact ne rfl, points,
    by rintro rfl; exact digits rfl⟩
  exact ⟨d.nearest false, by simp [CodeText.shown_map_ofChar, Binary64.ofText?, hd]⟩

/-- The characters that are tokens by themselves: the operators, the parentheses and the comma. -/
theorem symbol?_eq_some {c : Char} {kind : Kind} (h : symbol? c = some kind) :
    kind = .operator ∧ c ∈ operators ∨ kind = .opening ∧ c = '(' ∨ kind = .closing ∧ c = ')' ∨
      kind = .comma ∧ c = ',' := by
  unfold symbol? at h
  split at h
  · rename_i hc
    exact .inl ⟨(Option.some.inj h).symm, List.contains_iff_mem.1 hc⟩
  · split at h
    · rename_i hc
      exact .inr (.inl ⟨(Option.some.inj h).symm, hc⟩)
    · split at h
      · rename_i hc
        exact .inr (.inr (.inl ⟨(Option.some.inj h).symm, hc⟩))
      · split at h
        · rename_i hc
          exact .inr (.inr (.inr ⟨(Option.some.inj h).symm, hc⟩))
        · cases h

/-- What is a token by itself is no number and no name, and an operator only if it is one of the
six. -/
theorem kind_of_symbol? {c : Char} {kind : Kind} (h : symbol? c = some kind) :
    kind ≠ .number ∧ kind ≠ .identifier ∧ (kind = .operator → c ∈ operators) := by
  rcases symbol?_eq_some h with ⟨rfl, hc⟩ | ⟨rfl, -⟩ | ⟨rfl, -⟩ | ⟨rfl, -⟩
  · exact ⟨by decide, by decide, fun _ => hc⟩
  · exact ⟨by decide, by decide, by rintro ⟨⟩⟩
  · exact ⟨by decide, by decide, by rintro ⟨⟩⟩
  · exact ⟨by decide, by decide, by rintro ⟨⟩⟩

/-- **A piece gives a well-formed token or a fault.** -/
theorem wellFormed_of_ofPiece {position : Nat} {piece : List CodePoint} {t : Token}
    (chain : piece.IsChain (joins · ·)) (h : ofPiece (position, piece) = .ok t) :
    t.WellFormed := by
  cases piece with
  | nil => cases h; exact ⟨by rintro ⟨⟩, by rintro ⟨⟩⟩
  | cons p ps =>
    simp only [ofPiece] at h
    split at h
    · rename_i hn
      split at h
      · cases h
      · split at h
        · cases h
        · rename_i points digits
          cases h
          exact ⟨fun _ => exists_ofText?_shown (isClass_isNumeric.forall_of_isChain chain hn)
            (List.cons_ne_nil _ _) (by omega) digits, by rintro ⟨⟩⟩
    · split at h
      · cases h; exact ⟨by rintro ⟨⟩, by rintro ⟨⟩⟩
      · rename_i hn hl
        split at h
        · rename_i kind hk
          cases h
          -- What is a token by itself has no neighbours in its piece.
          obtain rfl := eq_nil_of_isChain chain (Bool.eq_false_iff.2 hn) (Bool.eq_false_iff.2 hl)
          obtain ⟨c, hp, hc⟩ := Option.bind_eq_some_iff.1 hk
          obtain rfl := CodePoint.ofChar_of_char? hp
          obtain ⟨notNumber, -, isOperator⟩ := kind_of_symbol? hc
          exact ⟨fun hkind => absurd hkind notNumber, fun hkind =>
            ⟨hkind, c, isOperator hkind, CodeText.shown_map_ofChar [c]⟩⟩
        · cases h

/-- A piece is refused only with a fault. -/
theorem isFault_of_ofPiece {piece : Nat × List CodePoint} {e : Failure}
    (h : ofPiece piece = .error e) : e.IsFault := by
  obtain ⟨position, piece⟩ := piece
  cases piece with
  | nil => cases h
  | cons p ps =>
    simp only [ofPiece] at h
    split at h
    · split at h
      · exact Fault.isFault_of_raise h
      · split at h
        · exact Fault.isFault_of_raise h
        · cases h
    · split at h
      · cases h
      · split at h
        · cases h
        · exact Fault.isFault_of_raise h

/-- Locating the pieces of a text keeps them. -/
theorem mem_of_mem_locate :
    ∀ {pieces : List (List CodePoint)} {start : Nat} {piece : Nat × List CodePoint},
      piece ∈ locate start pieces → piece.2 ∈ pieces
  | [], _, _, h => by cases h
  | first :: rest, start, piece, h => by
      rw [locate] at h
      rcases List.mem_cons.1 h with rfl | h
      · exact List.mem_cons_self
      · exact List.mem_cons_of_mem _ (mem_of_mem_locate h)

/-- **Scanned tokens are well-formed.** -/
theorem wellFormed_of_scan {text : CodeText} {ts : List Token} (h : scan text = .ok ts) :
    ∀ t ∈ ts, t.WellFormed := by
  intro t ht
  obtain ⟨⟨position, piece⟩, hp, hpiece⟩ := exists_of_mem_mapM h t ht
  exact wellFormed_of_ofPiece (List.isChain_of_mem_splitBy (mem_of_mem_locate hp)) hpiece

/-- **A scan fails with a fault only.** -/
theorem isFault_of_scan {text : CodeText} {e : Failure} (h : scan text = .error e) :
    e.IsFault := by
  obtain ⟨piece, -, hpiece⟩ := exists_of_mapM_error h
  exact isFault_of_ofPiece hpiece

end Token
end DeskCalculator
