/-
# Written texts read back

A written text stands between quotes, its code points one behind the other, each as itself, behind a
backslash, or as one or two numbers of four hexadecimal digits.  Reading takes every one of these
forms back to the halves of the code point (`points?_escaped`), and the halves are joined
(`text?_escaped`), which gives the text itself if no two of them stood beside each other in it.
-/

import DeskCalculator.Proofs.Text.Joined
import DeskCalculator.Settings.Parser
import DeskCalculator.Settings.Writer

namespace DeskCalculator
namespace Settings
namespace Json

/-- A hexadecimal digit has its value. -/
theorem hexDigit?_digitChar : ∀ n < 16, hexDigit? (Nat.digitChar n) = some n := by decide

/-- **Four hexadecimal digits show a number below 2¹⁶.** -/
theorem exists_hex_eq {n : Nat} (h : n < 0x10000) :
    ∃ a b c d, Text.hex 4 n = [a, b, c, d] ∧ unit? a b c d = some n := by
  refine ⟨Nat.digitChar (n / 16 / 16 / 16), Nat.digitChar (n / 16 / 16 % 16),
    Nat.digitChar (n / 16 % 16), Nat.digitChar (n % 16), ?_, ?_⟩
  · have base : (1 : Nat) < 16 := by decide
    have zero : Nat.digitChar 0 = '0' := rfl
    -- One case for each number of digits.
    have h1 := Nat.toDigits_eq_if (n := n) base
    have h2 := Nat.toDigits_eq_if (n := n / 16) base
    have h3 := Nat.toDigits_eq_if (n := n / 16 / 16) base
    have h4 := Nat.toDigits_of_lt_base (n := n / 16 / 16 / 16) (b := 16) (by omega)
    rcases Nat.lt_or_ge n 16 with s1 | s1
    · rw [if_pos s1] at h1
      have q1 : n / 16 = 0 := by omega
      have r1 : n % 16 = n := Nat.mod_eq_of_lt s1
      simp [Text.hex, h1, q1, r1, zero, List.replicate]
    · rw [if_neg (by omega)] at h1
      rcases Nat.lt_or_ge (n / 16) 16 with s2 | s2
      · rw [if_pos s2] at h2
        have q2 : n / 16 / 16 = 0 := by omega
        have r2 : n / 16 % 16 = n / 16 := Nat.mod_eq_of_lt s2
        simp [Text.hex, h1, h2, q2, r2, zero, List.replicate]
      · rw [if_neg (by omega)] at h2
        rcases Nat.lt_or_ge (n / 16 / 16) 16 with s3 | s3
        · rw [if_pos s3] at h3
          have q3 : n / 16 / 16 / 16 = 0 := by omega
          have r3 : n / 16 / 16 % 16 = n / 16 / 16 := Nat.mod_eq_of_lt s3
          simp [Text.hex, h1, h2, h3, q3, r3, zero]
        · rw [if_neg (by omega)] at h3
          simp [Text.hex, h1, h2, h3, h4]
  · rw [unit?, hexDigit?_digitChar _ (by omega), hexDigit?_digitChar _ (by omega),
      hexDigit?_digitChar _ (by omega), hexDigit?_digitChar _ (by omega)]
    simp only [Option.bind_eq_bind, Option.bind_some, Option.pure_def, Option.some.injEq]
    omega

/-- A number of four digits is read as one code point. -/
theorem points?_unitEscape {n : Nat} (h : n < 0x10000) (rest : List Char) :
    points? (unitEscape n ++ rest) =
      (points? rest).map fun (ps, r) => (.ofNat 0x110000 n :: ps, r) := by
  obtain ⟨a, b, c, d, hex, unit⟩ := exists_hex_eq h
  rw [unitEscape, hex]
  simp only [List.cons_append, List.nil_append, points?, unit]
  cases points? rest <;> rfl

/-- A character that stands for itself is read as itself. -/
theorem points?_cons {c : Char} (quote : c ≠ '"') (backslash : c ≠ '\\')
    (printable : ¬c.toNat < 0x20) (rest : List Char) :
    points? (c :: rest) = (points? rest).map fun (ps, r) => (.ofChar c :: ps, r) := by
  rw [points?.eq_def]
  split
  · rename_i h
    cases h
  · rename_i h
    exact absurd (List.cons.inj h).1 quote
  · rename_i h
    exact absurd (List.cons.inj h).1 backslash
  · rename_i h
    exact absurd (List.cons.inj h).1 backslash
  · rename_i h
    obtain ⟨rfl, rfl⟩ := List.cons.inj h
    rw [if_neg printable]
    cases points? rest <;> rfl

/-- A letter behind a backslash is read as what it stands for. -/
theorem points?_backslash {letter c : Char} (h : simpleEscape? letter = some c) (ne : letter ≠ 'u')
    (rest : List Char) :
    points? ('\\' :: letter :: rest) = (points? rest).map fun (ps, r) => (.ofChar c :: ps, r) := by
  rw [points?.eq_def]
  split
  · rename_i h'
    cases h'
  · rename_i h'
    exact absurd (List.cons.inj h').1 (by decide)
  · rename_i h'
    exact absurd (List.cons.inj (List.cons.inj h').2).1 ne
  · rename_i h'
    obtain ⟨-, h'⟩ := List.cons.inj h'
    obtain ⟨rfl, rfl⟩ := List.cons.inj h'
    rw [h]
    cases points? rest <;> rfl
  · rename_i other h'
    obtain ⟨rfl, rfl⟩ := List.cons.inj h'
    exact absurd rfl (other letter rest rfl)

/-- A code point below 2¹⁶ may be written as one number. -/
theorem points?_unitEscape_val {p : CodePoint} (small : p.val < 0x10000) (rest : List Char) :
    points? (unitEscape p.val ++ rest) =
      (points? rest).map fun (ps, r) => (p.halves ++ ps, r) := by
  have back : Fin.ofNat 0x110000 p.val = p := Fin.ext (CodePoint.val_ofNat p.isLt)
  have alone : p.halves = [p] := if_pos small
  rw [points?_unitEscape small, back, alone]
  rfl

/-- A character above U+FFFF is written as two numbers. -/
theorem points?_unitEscapes {p : CodePoint} (large : ¬p.val < 0x10000) (rest : List Char) :
    points? (unitEscape (0xD800 + (p.val - 0x10000) / 0x400) ++
        unitEscape (0xDC00 + (p.val - 0x10000) % 0x400) ++ rest) =
      (points? rest).map fun (ps, r) => (p.halves ++ ps, r) := by
  have bound := p.isLt
  have remainder : (p.val - 0x10000) % 0x400 < 0x400 := Nat.mod_lt _ (by decide)
  have two : p.halves = _ := if_neg large
  rw [List.append_assoc, points?_unitEscape (by omega), points?_unitEscape (by omega), two]
  cases points? rest <;> rfl

/-- The written form of a character is read as its halves. -/
theorem points?_escapedChar (c : Char) (rest : List Char) :
    points? (escapedChar c ++ rest) =
      (points? rest).map fun (ps, r) => ((CodePoint.ofChar c).halves ++ ps, r) := by
  by_cases small : c.toNat < 0x10000
  · have alone : (CodePoint.ofChar c).halves = [.ofChar c] := if_pos small
    unfold escapedChar
    split
    · rename_i h
      rw [alone]
      refine points?_backslash ?_ ?_ rest
      · rcases h with rfl | rfl <;> rfl
      · rcases h with rfl | rfl <;> decide
    rename_i noQuote
    rw [not_or] at noQuote
    split
    · subst c
      exact points?_backslash rfl (by decide) rest
    split
    · subst c
      exact points?_backslash rfl (by decide) rest
    split
    · subst c
      exact points?_backslash rfl (by decide) rest
    split
    · subst c
      exact points?_backslash rfl (by decide) rest
    split
    · subst c
      exact points?_backslash rfl (by decide) rest
    simp only []
    split
    · rename_i printable
      rw [alone]
      exact points?_cons noQuote.1 noQuote.2 (by omega) rest
    · exact points?_unitEscape_val (p := .ofChar c) small rest
  · -- A large character is none of those with a letter of their own.
    have ne {d : Char} (hd : d.toNat < 0x10000) : c ≠ d := fun h => small (h ▸ hd)
    have written : escapedChar c = unitEscape (0xD800 + (c.toNat - 0x10000) / 0x400) ++
        unitEscape (0xDC00 + (c.toNat - 0x10000) % 0x400) := by
      unfold escapedChar
      rw [if_neg (not_or.2 ⟨ne (by decide), ne (by decide)⟩), if_neg (ne (by decide)),
        if_neg (ne (by decide)), if_neg (ne (by decide)), if_neg (ne (by decide)),
        if_neg (ne (by decide))]
      simp only []
      rw [if_neg (by omega), if_neg small]
    rw [written]
    exact points?_unitEscapes (p := .ofChar c) small rest

/-- **The written form of a code point is read as its halves.** -/
theorem points?_escaped (p : CodePoint) (rest : List Char) :
    points? (escaped p ++ rest) = (points? rest).map fun (ps, r) => (p.halves ++ ps, r) := by
  unfold escaped
  split
  · rename_i c hc
    obtain rfl := CodePoint.ofChar_of_char? hc
    exact points?_escapedChar c rest
  · rename_i half
    refine points?_unitEscape_val ?_ rest
    have bound := p.isLt
    by_cases valid : p.val.isValidChar
    · rw [CodePoint.char?, dif_pos valid] at half
      cases half
    · unfold Nat.isValidChar at valid
      omega

/-- What stands between the quotes is read up to the closing one. -/
theorem points?_flatMap_escaped (ps : List CodePoint) (rest : List Char) :
    points? (ps.flatMap escaped ++ '"' :: rest) = some (ps.flatMap CodePoint.halves, rest) := by
  induction ps with
  | nil => simp [points?]
  | cons p ps ih =>
    rw [List.flatMap_cons, List.append_assoc, points?_escaped, ih]
    rfl

/-- A written text begins with a quote. -/
theorem quoted_append (s : CodeText) (rest : List Char) :
    quoted s ++ rest = '"' :: (s.points.flatMap escaped ++ '"' :: rest) := by
  simp [quoted]

/-- **A written text reads back with its halves joined.** -/
theorem text?_escaped (s : CodeText) (rest : List Char) :
    text? (s.points.flatMap escaped ++ '"' :: rest) = some (s.joined, rest) := by
  rw [text?, points?_flatMap_escaped]
  rfl

end Json
end Settings
end DeskCalculator
