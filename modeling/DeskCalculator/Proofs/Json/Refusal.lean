/-
# Why a text is refused

Whatever a reader leaves is the end of what it was given, so what is wrong further on is wrong with
the text as a whole (`Ends`).  If a reading runs out of room, there are more opening brackets in the
text than there was room for; if it meets a number that is too long, there is a run of as many
digits (`refused_of_read`).  A text with neither is read, or it is malformed.

Both happen.  More brackets in a row than there is room for are refused (`read_replicate`), and so is
a whole number with too many digits (`read_of_long`).
-/

import DeskCalculator.Proofs.Json.Storable

namespace DeskCalculator
namespace Settings
namespace Json

open Decimal (IsWhole)

/-! ## What is refused -/

/-- The opening brackets in a text, wherever they stand. -/
def openings (cs : List Char) : Nat := cs.countP fun c => c == '[' || c == '\x7b'

/-- There are more digits in a row in a text than are read as a number. -/
def HasLongRun (cs : List Char) : Prop :=
  ∃ run, run <:+: cs ∧ (∀ c ∈ run, c.isDigit = true) ∧ Text.maxDigits < run.length

/-- What there is in a text that is refused. -/
inductive Refused (room : Nat) (cs : List Char) : Unreadable → Prop
  | malformed : Refused room cs .malformed
  | numberTooLong (long : HasLongRun cs) : Refused room cs .numberTooLong
  | tooNested (deep : room < openings cs) : Refused room cs .tooNested

variable {α β : Type} {room bound : Nat} {cs rest : List Char} {e : Unreadable}

/-- What is wrong with the end of a text is wrong with the text. -/
theorem Refused.of_suffix (h : Refused room rest e) (le : rest <:+ cs) : Refused room cs e := by
  cases h with
  | malformed => exact .malformed
  | numberTooLong long =>
    obtain ⟨run, within, digits, long⟩ := long
    exact .numberTooLong ⟨run, within.trans le.isInfix, digits, long⟩
  | tooNested deep => exact .tooNested (Nat.lt_of_lt_of_le deep (le.sublist.countP_le))

/-- A bracket in front takes the room of one container. -/
theorem Refused.opened (h : Refused room rest e) {c : Char} (opens : c = '[' ∨ c = '\x7b') :
    Refused (room + 1) (c :: rest) e := by
  cases h with
  | malformed => exact .malformed
  | numberTooLong long =>
    exact (Refused.numberTooLong long).of_suffix (List.suffix_cons c rest)
  | tooNested deep =>
    refine .tooNested ?_
    rw [openings, List.countP_cons_of_pos (by simpa using opens)]
    exact Nat.succ_lt_succ deep

/-! ## How readers end -/

/-- A reader of a text leaves the end of it, or the text has what it is refused for. -/
inductive Ends (room : Nat) (cs : List Char) : Except Unreadable (α × List Char) → Prop
  | ok {a : α} {rest : List Char} (left : rest <:+ cs) : Ends room cs (.ok (a, rest))
  | error {e : Unreadable} (refused : Refused room cs e) : Ends room cs (.error e)

/-- How a reader ends on the end of a text is how it ends on the text. -/
theorem Ends.of_suffix {x : Except Unreadable (α × List Char)} (h : Ends room rest x)
    (le : rest <:+ cs) : Ends room cs x := by
  cases h with
  | ok left => exact .ok (left.trans le)
  | error refused => exact .error (refused.of_suffix le)

/-- One reader after another ends as they do. -/
theorem Ends.bind {x : Except Unreadable (α × List Char)}
    {f : α × List Char → Except Unreadable (β × List Char)} (h : Ends room cs x)
    (next : ∀ a rest, rest <:+ cs → Ends room rest (f (a, rest))) : Ends room cs (x >>= f) := by
  cases h with
  | @ok a rest left => exact (next a rest left).of_suffix left
  | error refused => exact .error refused

/-- A part that has to be there ends the reading where it ends, or is malformed. -/
theorem ends_required {o : Option (α × List Char)}
    (h : ∀ a rest, o = some (a, rest) → rest <:+ cs) : Ends room cs (required o) := by
  cases o with
  | none => exact .error .malformed
  | some a => exact .ok (h _ _ rfl)

/-- Blanks are skipped in front. -/
theorem suffix_skipBlanks (cs : List Char) : skipBlanks cs <:+ cs := List.dropWhile_suffix isBlank

/-- Behind a text stands what is behind its closing quote. -/
theorem suffix_of_points? {ps : List CodePoint} (h : points? cs = some (ps, rest)) :
    rest <:+ cs := by
  fun_induction points? cs generalizing ps rest with
  | case1 => cases h
  | case2 =>
    cases h
    exact List.suffix_cons ..
  | case3 a b c d tail ih =>
    obtain ⟨n, -, h⟩ := Option.bind_eq_some_iff.1 h
    obtain ⟨⟨ps, behind⟩, inner, h⟩ := Option.bind_eq_some_iff.1 h
    cases h
    exact (ih inner).trans (List.suffix_append ['\\', 'u', a, b, c, d] tail)
  | case4 c tail _ ih =>
    obtain ⟨c', -, h⟩ := Option.bind_eq_some_iff.1 h
    obtain ⟨⟨ps, behind⟩, inner, h⟩ := Option.bind_eq_some_iff.1 h
    cases h
    exact (ih inner).trans (List.suffix_append ['\\', c] tail)
  | case5 => cases h
  | case6 c tail _ _ _ _ ih =>
    obtain ⟨⟨ps, behind⟩, inner, h⟩ := Option.bind_eq_some_iff.1 h
    cases h
    exact (ih inner).trans (List.suffix_cons c tail)

/-- A text ends at its closing quote. -/
theorem ends_text (room : Nat) (cs : List Char) : Ends room cs (required (text? cs)) := by
  refine ends_required fun s rest h => ?_
  obtain ⟨⟨ps, behind⟩, points, h⟩ := Option.bind_eq_some_iff.1 h
  cases h
  exact suffix_of_points? points

/-- The digits in front of a point stand at the beginning. -/
theorem append_of_whole? {digits : List Char} (h : whole? cs = some (digits, rest)) :
    digits ++ rest = cs := by
  rw [whole?.eq_def] at h
  split at h
  · cases h
    rfl
  · simp only [] at h
    split at h
    · cases h
    · cases h
      exact List.takeWhile_append_dropWhile

/-- A fraction is behind its point. -/
theorem suffix_fraction (cs : List Char) : (fraction cs).2 <:+ cs := by
  unfold fraction
  split
  · simp only []
    split
    · exact List.suffix_refl _
    · exact (List.dropWhile_suffix _).trans (List.suffix_cons ..)
  · exact List.suffix_refl _

/-- An exponent is behind its letter and its sign. -/
theorem suffix_exponent (cs : List Char) : (exponent cs).2 <:+ cs := by
  have sign (cs : List Char) : (Text.splitSign cs).2 <:+ cs := by
    unfold Text.splitSign
    split
    · exact List.suffix_cons ..
    · exact List.suffix_cons ..
    · exact List.suffix_refl _
  unfold exponent
  split
  · simp only []
    split
    · exact ((List.dropWhile_suffix _).trans (sign _)).trans (List.suffix_cons ..)
    · exact List.suffix_refl _
  · exact List.suffix_refl _

/-- Digits are read as a whole number unless they are too many. -/
theorem integer_cases (negative : Bool) (digits : List Char) :
    (∃ v, integer negative digits = .ok v) ∨
      integer negative digits = .error .numberTooLong ∧ Text.maxDigits < digits.length := by
  unfold integer
  split
  · rename_i long
    exact .inr ⟨rfl, long⟩
  · exact .inl ⟨_, rfl⟩

/-- **A number that is too long is a run of digits in the text.** -/
theorem ends_magnitude (room : Nat) (negative : Bool) (cs : List Char) :
    Ends room cs (magnitude negative cs) := by
  unfold magnitude
  cases whole : whole? cs with
  | none => exact .error .malformed
  | some parts =>
    obtain ⟨digits, behind⟩ := parts
    have split := append_of_whole? whole
    have left : (exponent (fraction behind).2).2 <:+ cs :=
      ((suffix_exponent _).trans (suffix_fraction _)).trans ⟨digits, split⟩
    simp only [required, bind, Except.bind]
    split
    · rename_i rest none
      rw [none] at left
      rcases integer_cases negative digits with ⟨v, read⟩ | ⟨read, long⟩
      · rw [read]
        exact .ok left
      · rw [read]
        exact .error (.numberTooLong
          ⟨digits, split ▸ (List.prefix_append digits behind).isInfix, isDigit_of_whole? whole, long⟩)
    · rename_i read _
      rw [read] at left
      exact .ok left

/-- A value on its own is refused for nothing but its digits. -/
theorem ends_scalar (room : Nat) (cs : List Char) : Ends room cs (scalar cs) := by
  unfold scalar
  split
  case h_1 => exact .ok (List.suffix_append ['n', 'u', 'l', 'l'] _)
  case h_2 => exact .ok (List.suffix_append ['t', 'r', 'u', 'e'] _)
  case h_3 => exact .ok (List.suffix_append ['f', 'a', 'l', 's', 'e'] _)
  case h_4 => exact .ok (List.suffix_append ['N', 'a', 'N'] _)
  case h_5 => exact .ok (List.suffix_append ['I', 'n', 'f', 'i', 'n', 'i', 't', 'y'] _)
  case h_6 => exact .ok (List.suffix_append ['-', 'I', 'n', 'f', 'i', 'n', 'i', 't', 'y'] _)
  case h_7 => exact (ends_magnitude room true _).of_suffix (List.suffix_cons ..)
  case h_8 => exact ends_magnitude room false _

/-! ## Containers -/

/-- How readers end within a bound on the steps. -/
structure EndsUpTo (bound : Nat) : Prop where
  value : ∀ room cs, Ends room cs (Json.value room bound cs)
  items : ∀ room cs, Ends room cs (Json.items room bound cs)
  entries : ∀ room cs, Ends room cs (Json.entries room bound cs)

/-- What is read behind a bracket ends as a whole with one container more. -/
theorem Ends.opened {x : Except Unreadable (α × List Char)} (h : Ends room cs x) {c : Char}
    (opens : c = '[' ∨ c = '\x7b') : Ends (room + 1) (c :: cs) x := by
  cases h with
  | ok left => exact .ok (left.trans (List.suffix_cons c cs))
  | error refused => exact .error (refused.opened opens)

/-- A bracket is refused where there is no room. -/
theorem refused_bracket {c : Char} (opens : c = '[' ∨ c = '\x7b') (cs : List Char) :
    Refused 0 (c :: cs) .tooNested := by
  refine .tooNested ?_
  rw [openings, List.countP_cons_of_pos (by simpa using opens)]
  exact Nat.succ_pos _

/-- A value ends as what stands in it does. -/
theorem EndsUpTo.value_succ (h : EndsUpTo bound) (room : Nat) (cs : List Char) :
    Ends room cs (Json.value room (bound + 1) cs) := by
  rw [Json.value.eq_def]
  split
  case h_1 eq => cases eq
  case h_2 rest _ =>
    refine ((ends_text _ rest).bind fun s rest _ => ?_).of_suffix (List.suffix_cons ..)
    exact .ok (List.suffix_refl rest)
  case h_3 => exact .error (refused_bracket (.inl rfl) _)
  case h_4 room _ rest eq =>
    cases eq
    refine Ends.opened ?_ (.inl rfl)
    have within := suffix_skipBlanks rest
    split
    · rename_i eq
      rw [eq] at within
      exact .ok ((List.suffix_cons ..).trans within)
    · refine ((h.items room _).bind fun vs rest _ => ?_).of_suffix within
      exact .ok (List.suffix_refl rest)
  case h_5 => exact .error (refused_bracket (.inr rfl) _)
  case h_6 room _ rest eq =>
    cases eq
    refine Ends.opened ?_ (.inr rfl)
    have within := suffix_skipBlanks rest
    split
    · rename_i eq
      rw [eq] at within
      exact .ok ((List.suffix_cons ..).trans within)
    · refine ((h.entries room _).bind fun pairs rest _ => ?_).of_suffix within
      exact .ok (List.suffix_refl rest)
  case h_7 => exact ends_scalar _ _

/-- Behind a mark and the blanks after it stands the end of what was left. -/
theorem suffix_behind {c : Char} {tail : List Char} (eq : skipBlanks cs = c :: tail) :
    skipBlanks tail <:+ cs :=
  ((suffix_skipBlanks tail).trans (List.suffix_cons c tail)).trans (eq ▸ suffix_skipBlanks cs)

/-- Items end as the values do that stand in them. -/
theorem EndsUpTo.items_succ (h : EndsUpTo bound) (room : Nat) (cs : List Char) :
    Ends room cs (Json.items room (bound + 1) cs) := by
  rw [Json.items]
  refine (h.value room cs).bind fun v rest _ => ?_
  simp only []
  split
  · rename_i eq
    exact .ok ((List.suffix_cons ..).trans (eq ▸ suffix_skipBlanks rest))
  · rename_i eq
    refine ((h.items room _).bind fun vs rest _ => ?_).of_suffix (suffix_behind eq)
    exact .ok (List.suffix_refl rest)
  · exact .error .malformed

/-- Entries end as the values do that stand in them. -/
theorem EndsUpTo.entries_succ (h : EndsUpTo bound) (room : Nat) (cs : List Char) :
    Ends room cs (Json.entries room (bound + 1) cs) := by
  rw [Json.entries.eq_def]
  split
  case h_1 eq => cases eq
  case h_2 tail eq =>
    cases eq
    refine Ends.of_suffix ?_ (List.suffix_cons '"' tail)
    refine (ends_text room tail).bind fun k rest _ => ?_
    simp only []
    split
    · rename_i eq
      refine Ends.of_suffix ?_ (suffix_behind eq)
      refine (h.value room _).bind fun v rest _ => ?_
      simp only []
      split
      · rename_i eq
        exact .ok ((List.suffix_cons ..).trans (eq ▸ suffix_skipBlanks rest))
      · rename_i eq
        refine ((h.entries room _).bind fun more rest _ => ?_).of_suffix (suffix_behind eq)
        exact .ok (List.suffix_refl rest)
      · exact .error .malformed
    · exact .error .malformed
  case h_3 => exact .error .malformed

/-- Whatever the bound on the steps is, readers end so. -/
theorem endsUpTo (bound : Nat) : EndsUpTo bound := by
  induction bound with
  | zero =>
    refine ⟨fun _ _ => ?_, fun _ _ => .error .malformed, fun _ _ => .error .malformed⟩
    rw [value]
    exact .error .malformed
  | succ bound ih => exact ⟨ih.value_succ, ih.items_succ, ih.entries_succ⟩

/-! ## Whole texts -/

/-- **A text that is refused has what it is refused for:** a run of too many digits, or more
opening brackets than there is room for. -/
theorem refused_of_read (h : read room cs = .error e) : Refused (room + 1) cs e := by
  have ends := ((endsUpTo (2 * cs.length + 1)).value (room + 1) (skipBlanks cs)).of_suffix
    (suffix_skipBlanks cs)
  unfold read at h
  cases value : value (room + 1) (2 * cs.length + 1) (skipBlanks cs) with
  | error e' =>
    rw [value] at h ends
    cases h
    cases ends with
    | error refused => exact refused
  | ok r =>
    rw [value] at h
    simp only [bind, Except.bind] at h
    split at h
    · cases h
    · cases h
      exact .malformed

/-- **A whole number with too many digits is refused,** with a sign or without, and whatever stands
behind it. -/
theorem read_of_long (negative : Bool) {digits : List Char} (whole : IsWhole digits)
    (long : Text.maxDigits < digits.length) (ends : EndsNumber rest) (room : Nat) :
    read room (Binary64.signText negative ++ (digits ++ rest)) = .error .numberTooLong := by
  obtain ⟨c, cs, eq⟩ := List.exists_cons_of_ne_nil whole.ne_nil
  have digit := whole.digits c (by simp [eq])
  have scalar : scalar (Binary64.signText negative ++ (digits ++ rest)) =
      .error .numberTooLong := by
    rw [eq, List.cons_append, scalar_signText_append negative digit, ← List.cons_append, ← eq,
      magnitude_of_none (whole?_append whole ends.endsRun) ends.fraction ends.exponent, integer,
      if_pos long]
    rfl
  obtain ⟨d, ds, begin, scalarBegin⟩ := exists_signText_eq_cons negative digit (cs ++ rest)
  rw [eq, List.cons_append, begin] at scalar ⊢
  rw [read, skipBlanks_cons (isBlank_of_beginsScalar scalarBegin),
    value_of_beginsScalar scalarBegin, scalar]
  rfl

end Json
end Settings
end DeskCalculator
