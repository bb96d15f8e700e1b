/-
# Texts of code points

A settings file can name one half of a character above U+FFFF without the other one. Such a half is
a code point but no character, so a text that may hold one is a list of code points. A `String` is
such a text too, one without halves.
-/

import DeskCalculator.Text.Quoted

namespace DeskCalculator

/-- A code point: a character, or half of one. -/
abbrev CodePoint := Fin 0x110000

namespace CodePoint

/-- There are code points, so every number gives one, modulo their number. -/
instance : @NeZero Nat Zero.ofOfNat0 0x110000 := ⟨by decide⟩

/-- The code point of a character. -/
def ofChar (c : Char) : CodePoint := ⟨c.toNat, by
  have h := c.valid
  unfold UInt32.isValidChar Nat.isValidChar at h
  unfold Char.toNat
  omega⟩

/-- The character at a code point; half of a character is none. -/
def char? (p : CodePoint) : Option Char :=
  if h : p.val.isValidChar then some (Char.ofNatAux p.val h) else none

/-- Whether a code point is the first half of a character above U+FFFF. -/
def isHighHalf (p : CodePoint) : Bool := 0xD800 ≤ p.val && p.val ≤ 0xDBFF

/-- Whether a code point is the second half of a character above U+FFFF. -/
def isLowHalf (p : CodePoint) : Bool := 0xDC00 ≤ p.val && p.val ≤ 0xDFFF

/-- Makes one character of every first half with a second half behind it. -/
def join : List CodePoint → List CodePoint
  | high :: low :: rest =>
    if high.isHighHalf && low.isLowHalf then
      .ofNat 0x110000 (0x10000 + (high.val - 0xD800) * 0x400 + (low.val - 0xDC00)) :: join rest
    else high :: join (low :: rest)
  | ps => ps

/-- Whether a code point is a character of a class. -/
def isIn (accepts : Char → Bool) (p : CodePoint) : Bool := p.char?.any accepts

/-- A code point with another character in its place; half of a character stays what it is. -/
def mapChar (f : Char → Char) (p : CodePoint) : CodePoint :=
  match p.char? with
  | some c => ofChar (f c)
  | none => p

/-- The code point of a character is that character. -/
@[simp] theorem char?_ofChar (c : Char) : (ofChar c).char? = some c := by
  have h : c.toNat.isValidChar := c.valid
  unfold char? ofChar
  rw [dif_pos h]
  rfl

/-- What is a character is the code point of it. -/
theorem ofChar_of_char? {p : CodePoint} {c : Char} (h : p.char? = some c) : p = ofChar c := by
  by_cases valid : p.val.isValidChar
  · rw [char?, dif_pos valid] at h
    cases h
    rfl
  · rw [char?, dif_neg valid] at h
    cases h

/-- Different characters have different code points. -/
theorem ofChar_inj {c d : Char} : ofChar c = ofChar d ↔ c = d := by
  refine ⟨fun h => ?_, fun h => h ▸ rfl⟩
  have := congrArg char? h
  rwa [char?_ofChar, char?_ofChar, Option.some_inj] at this

/-- A character is in a class if the class accepts it. -/
@[simp] theorem isIn_ofChar (accepts : Char → Bool) (c : Char) :
    (ofChar c).isIn accepts = accepts c := by
  rw [isIn, char?_ofChar, Option.any_some]

/-- Mapping the code point of a character maps the character. -/
@[simp] theorem mapChar_ofChar (f : Char → Char) (c : Char) :
    (ofChar c).mapChar f = ofChar (f c) := by
  rw [mapChar, char?_ofChar]

/-- Only characters are in a class. -/
theorem isIn_iff {accepts : Char → Bool} {p : CodePoint} :
    p.isIn accepts = true ↔ ∃ c, p = ofChar c ∧ accepts c = true := by
  constructor
  · intro h
    obtain ⟨c, hp, hc⟩ := (Option.any_eq_true _ _).1 h
    exact ⟨c, ofChar_of_char? hp, hc⟩
  · rintro ⟨c, rfl, hc⟩
    rw [isIn_ofChar, hc]

/-- Code points of a class of characters are characters. -/
theorem exists_map_ofChar {accepts : Char → Bool} {ps : List CodePoint}
    (h : ∀ p ∈ ps, p.isIn accepts = true) :
    ∃ cs : List Char, ps = cs.map ofChar ∧ ∀ c ∈ cs, accepts c = true := by
  induction ps with
  | nil => exact ⟨[], rfl, fun _ h => absurd h List.not_mem_nil⟩
  | cons p ps ih =>
    obtain ⟨cs, rfl, hcs⟩ := ih fun q hq => h q (List.mem_cons_of_mem _ hq)
    obtain ⟨c, rfl, hc⟩ := isIn_iff.1 (h p List.mem_cons_self)
    exact ⟨c :: cs, rfl, List.forall_mem_cons.2 ⟨hc, hcs⟩⟩

end CodePoint

/-- A text in which halves of characters may stand alone. -/
structure CodeText where
  points : List CodePoint
  deriving DecidableEq

namespace CodeText

/-- A text without halves. -/
def ofString (s : String) : CodeText := ⟨s.toList.map CodePoint.ofChar⟩

instance : Coe String CodeText := ⟨ofString⟩

instance : Append CodeText := ⟨fun s t => ⟨s.points ++ t.points⟩⟩

/-- The text as a string, if there are no halves in it. -/
def toString? (t : CodeText) : Option String := (t.points.mapM CodePoint.char?).map String.ofList

/-- The text with U+FFFD in the place of every half. -/
def shown (t : CodeText) : String := .ofList (t.points.map fun p => p.char?.getD '\uFFFD')

/-- The text between quotes, the halves escaped. -/
def quoted (t : CodeText) : String :=
  let quote := Text.quoteFor (t.points.filterMap CodePoint.char?)
  let escaped := t.points.flatMap fun p =>
    match p.char? with
    | some c => Text.escaped quote c
    | none => '\\' :: 'u' :: Text.hex 4 p.val
  .ofList (quote :: (escaped ++ [quote]))

/-- The text between quotes, or what stands for it where there is none. -/
def quotedOrAbsent : Option CodeText → String
  | some t => t.quoted
  | none => Text.absent

/-- A string is a text that is one. -/
theorem toString?_ofString (s : String) : (ofString s).toString? = some s := by
  have h (cs : List Char) : (cs.map CodePoint.ofChar).mapM CodePoint.char? = some cs := by
    induction cs with
    | nil => rfl
    | cons c cs ih => simp [CodePoint.char?_ofChar, ih]
  simp [toString?, ofString, h]

/-- A string is shown as it is. -/
theorem shown_ofString (s : String) : (ofString s).shown = s := by
  have h (cs : List Char) : cs.map ((fun p => p.char?.getD '\uFFFD') ∘ CodePoint.ofChar) = cs := by
    induction cs with
    | nil => rfl
    | cons c cs ih =>
      rw [List.map_cons, ih]
      simp [CodePoint.char?_ofChar]
  rw [shown, ofString, List.map_map, h, String.ofList_toList]

/-- Characters are shown as they are. -/
theorem shown_map_ofChar (cs : List Char) :
    (CodeText.mk (cs.map CodePoint.ofChar)).shown = String.ofList cs := by
  have h := shown_ofString (String.ofList cs)
  rwa [ofString, String.toList_ofList] at h

/-- A string is quoted alike as a text of code points. -/
theorem quoted_ofString (s : String) : (ofString s).quoted = Text.quoted s := by
  have h (cs : List Char) : (cs.map CodePoint.ofChar).filterMap CodePoint.char? = cs := by
    induction cs with
    | nil => rfl
    | cons c cs ih => simp [CodePoint.char?_ofChar, ih]
  simp [quoted, Text.quoted, ofString, h, List.flatMap_map, CodePoint.char?_ofChar]

end CodeText
end DeskCalculator
