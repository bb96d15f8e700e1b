/-
# Halves of characters

A written text names a character above U+FFFF by its two halves, and reading joins a first half with
a second half behind it.  So a text comes back from its halves if no first half in it stands in
front of a second one (`join_flatMap_halves`).  Every text of characters is of that kind, and so is
whatever joining gives (`isJoined_join`), also where halves are left over.
-/

import DeskCalculator.Text.CodePoint

namespace DeskCalculator
namespace CodePoint

/-- The halves of a character above U+FFFF; any other code point is alone. -/
def halves (p : CodePoint) : List CodePoint :=
  if p.val < 0x10000 then [p]
  else
    [.ofNat 0x110000 (0xD800 + (p.val - 0x10000) / 0x400),
      .ofNat 0x110000 (0xDC00 + (p.val - 0x10000) % 0x400)]

/-- No first half stands in front of a second half. -/
def IsJoined : List CodePoint → Prop
  | high :: low :: rest =>
    ¬(high.isHighHalf = true ∧ low.isLowHalf = true) ∧ IsJoined (low :: rest)
  | _ => True

/-- The rest of a joined text is joined. -/
theorem IsJoined.tail {p : CodePoint} {ps : List CodePoint} (h : IsJoined (p :: ps)) :
    IsJoined ps := by
  cases ps with
  | nil => trivial
  | cons q ps => exact h.2

/-- A number in range is its own code point. -/
theorem val_ofNat {n : Nat} (h : n < 0x110000) : (Fin.ofNat 0x110000 n).val = n :=
  Nat.mod_eq_of_lt h

/-- A first half alone goes in front of what follows, unless a second half does. -/
theorem join_cons {p : CodePoint} {ps : List CodePoint}
    (h : ∀ q, ps.head? = some q → ¬(p.isHighHalf = true ∧ q.isLowHalf = true)) :
    join (p :: ps) = p :: join ps := by
  cases ps with
  | nil => simp [join]
  | cons q ps =>
    have apart : (p.isHighHalf && q.isLowHalf) = false := by
      simpa using h q rfl
    rw [join, apart]
    rfl

/-- The halves of a character make it again. -/
theorem join_halves {p : CodePoint} (h : ¬p.val < 0x10000) (ps : List CodePoint) :
    join (halves p ++ ps) = p :: join ps := by
  have bound := p.isLt
  have quotient : (p.val - 0x10000) / 0x400 < 0x400 := by omega
  have remainder : (p.val - 0x10000) % 0x400 < 0x400 := Nat.mod_lt _ (by decide)
  have high := val_ofNat (n := 0xD800 + (p.val - 0x10000) / 0x400) (by omega)
  have low := val_ofNat (n := 0xDC00 + (p.val - 0x10000) % 0x400) (by omega)
  have isHigh : isHighHalf (.ofNat 0x110000 (0xD800 + (p.val - 0x10000) / 0x400)) = true := by
    simp only [isHighHalf, high, Bool.and_eq_true, decide_eq_true_eq]
    omega
  have isLow : isLowHalf (.ofNat 0x110000 (0xDC00 + (p.val - 0x10000) % 0x400)) = true := by
    simp only [isLowHalf, low, Bool.and_eq_true, decide_eq_true_eq]
    omega
  have whole : 0x10000 + (0xD800 + (p.val - 0x10000) / 0x400 - 0xD800) * 0x400 +
      (0xDC00 + (p.val - 0x10000) % 0x400 - 0xDC00) = p.val := by
    have := Nat.div_add_mod (p.val - 0x10000) 0x400
    omega
  have back : Fin.ofNat 0x110000 p.val = p := Fin.ext (val_ofNat bound)
  simp only [halves, if_neg h, List.cons_append, List.nil_append, join, isHigh, isLow,
    Bool.and_self, if_true, high, low, whole, back]

/-- What stands first among the halves of a code point is a second half only if it is one itself. -/
theorem isLowHalf_of_head?_halves {p q : CodePoint} {ps : List CodePoint}
    (h : (halves p ++ ps).head? = some q) (low : q.isLowHalf = true) : p.isLowHalf = true := by
  unfold halves at h
  split at h
  · obtain rfl : p = q := Option.some.inj h
    exact low
  · rename_i large
    have bound := p.isLt
    obtain rfl : Fin.ofNat 0x110000 (0xD800 + (p.val - 0x10000) / 0x400) = q := Option.some.inj h
    simp only [isLowHalf, Bool.and_eq_true, decide_eq_true_eq] at low
    rw [val_ofNat (by omega)] at low
    omega

/-- **A text in which all halves are joined comes back from its halves.** -/
theorem join_flatMap_halves {ps : List CodePoint} (h : IsJoined ps) :
    join (ps.flatMap halves) = ps := by
  induction ps with
  | nil => rfl
  | cons p ps ih =>
    rw [List.flatMap_cons]
    by_cases small : p.val < 0x10000
    · have alone : halves p = [p] := if_pos small
      rw [alone, List.singleton_append, join_cons, ih h.tail]
      rintro q hq ⟨high, low⟩
      -- The first of the halves that follow belongs to the next code point.
      cases ps with
      | nil => cases hq
      | cons r ps =>
        rw [List.flatMap_cons] at hq
        exact h.1 ⟨high, isLowHalf_of_head?_halves hq low⟩
    · rw [join_halves small, ih h.tail]

/-- A character is no half. -/
theorem isHighHalf_ofChar (c : Char) : (ofChar c).isHighHalf = false := by
  have h := c.valid
  unfold UInt32.isValidChar Nat.isValidChar at h
  have hv : (ofChar c).val = c.val.toNat := rfl
  simp only [isHighHalf, hv, Bool.and_eq_false_iff, decide_eq_false_iff_not]
  omega

/-- All halves are joined in a text of characters. -/
theorem isJoined_map_ofChar (cs : List Char) : IsJoined (cs.map ofChar) := by
  induction cs with
  | nil => trivial
  | cons c cs ih =>
    cases cs with
    | nil => trivial
    | cons d cs =>
      refine ⟨fun h => ?_, ih⟩
      rw [isHighHalf_ofChar] at h
      exact Bool.false_ne_true h.1

/-- What joining puts first is the first code point, or a character made of two. -/
theorem head?_join {p q : CodePoint} {ps : List CodePoint} (h : (join (p :: ps)).head? = some q) :
    q = p ∨ q.isLowHalf = false := by
  cases ps with
  | nil =>
    simp only [join, List.head?_cons, Option.some.injEq] at h
    exact .inl h.symm
  | cons r ps =>
    rw [join] at h
    split at h
    · rename_i pair
      right
      simp only [Bool.and_eq_true, isHighHalf, isLowHalf, decide_eq_true_eq] at pair
      obtain rfl := Option.some.inj h
      simp only [isLowHalf, Bool.and_eq_false_iff, decide_eq_false_iff_not]
      rw [val_ofNat (by omega)]
      omega
    · exact .inl (Option.some.inj h).symm

/-- **Joining leaves no first half in front of a second one.** -/
theorem isJoined_join (ps : List CodePoint) : IsJoined (join ps) := by
  fun_induction join ps with
  | case1 high low rest pair ih =>
    cases hj : join rest with
    | nil => trivial
    | cons q qs =>
      rw [hj] at ih
      refine ⟨fun h => ?_, ih⟩
      simp only [Bool.and_eq_true, isHighHalf, isLowHalf, decide_eq_true_eq] at pair h
      rw [val_ofNat (by omega)] at h
      omega
  | case2 high low rest apart ih =>
    cases hj : join (low :: rest) with
    | nil => trivial
    | cons q qs =>
      rw [hj] at ih
      refine ⟨fun h => ?_, ih⟩
      rcases head?_join (show (join (low :: rest)).head? = some q by rw [hj]; rfl) with rfl | no
      · exact apart (by rw [h.1, h.2]; rfl)
      · rw [no] at h
        exact Bool.false_ne_true h.2
  | case3 ps short =>
    cases ps with
    | nil => trivial
    | cons p ps =>
      cases ps with
      | nil => trivial
      | cons q ps => exact absurd rfl (short p q ps)

end CodePoint

/-- No first half in a text stands in front of a second half. -/
def CodeText.IsJoined (t : CodeText) : Prop := CodePoint.IsJoined t.points

/-- A text as it comes back from its halves: each first half joined with a second one behind it. -/
def CodeText.joined (t : CodeText) : CodeText :=
  ⟨CodePoint.join (t.points.flatMap CodePoint.halves)⟩

/-- A joined text comes back from its halves as it is. -/
theorem CodeText.joined_of_isJoined {t : CodeText} (h : t.IsJoined) : t.joined = t := by
  rw [joined, CodePoint.join_flatMap_halves h]

/-- All halves are joined in a text of characters. -/
theorem CodeText.isJoined_ofString (s : String) : (ofString s).IsJoined :=
  CodePoint.isJoined_map_ofChar s.toList

end DeskCalculator
