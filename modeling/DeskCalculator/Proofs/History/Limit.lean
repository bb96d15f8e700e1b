/-
# What a setting asks for as a limit

The limit of the history can be any value that a settings file holds.  Some values stand for a whole
number (`Value.StandsFor`): a truth value for one or zero, a double for its whole part, a text for
the number that it shows.  Such a value asks for that number, moved into the range from 1 to 10, and
any other one for 10, NaN among them.  Only an infinity asks for nothing and fails (`limit_cases`).
-/

import DeskCalculator.History
import DeskCalculator.Proofs.Text.WholeNumber

namespace DeskCalculator

/-- A text that is all characters is the text of them. -/
theorem CodePoint.map_ofChar_of_mapM {ps : List CodePoint} {cs : List Char}
    (h : ps.mapM char? = some cs) : cs.map ofChar = ps := by
  induction ps generalizing cs with
  | nil =>
    cases h
    rfl
  | cons p ps ih =>
    rw [List.mapM_cons] at h
    obtain ⟨c, hc, h⟩ := Option.bind_eq_some_iff.1 h
    obtain ⟨rest, hrest, h⟩ := Option.bind_eq_some_iff.1 h
    cases h
    rw [List.map_cons, ofChar_of_char? hc, ih hrest]

/-- A text is the code points of its characters, if it has only characters. -/
theorem CodeText.toString?_eq_some_iff {t : CodeText} {s : String} :
    t.toString? = some s ↔ t = s := by
  constructor
  · intro h
    obtain ⟨cs, hcs, rfl⟩ := Option.map_eq_some_iff.1 h
    rw [ofString, String.toList_ofList, CodePoint.map_ofChar_of_mapM hcs]
  · rintro rfl
    exact toString?_ofString s

/-- The whole part of a finite number. -/
theorem Binary64.truncate?_eq_some_iff {negative : Bool} {m : Magnitude} {n : Nat} :
    (finite negative m).truncate? = some (if negative then -(n : Int) else n) ↔
      n * unit ≤ m.quanta ∧ m.quanta < (n + 1) * unit := by
  rw [← Nat.le_div_iff_mul_le unit_pos, ← Nat.div_lt_iff_lt_mul unit_pos, truncate?,
    Option.some_inj]
  generalize m.quanta / unit = whole
  cases negative <;> simp <;> omega

namespace Settings.Value

/-- A value stands for a whole number. -/
inductive StandsFor : Value → Int → Prop
  | bool (b : Bool) : StandsFor (.bool b) (if b then 1 else 0)
  | integer (i : Int) : StandsFor (.integer i) i
  /-- The whole part of a number, toward zero. -/
  | number {negative : Bool} {m : Magnitude} {n : Nat} (low : n * Binary64.unit ≤ m.quanta)
      (high : m.quanta < (n + 1) * Binary64.unit) :
      StandsFor (.number (.finite negative m)) (if negative then -(n : Int) else n)
  | text {s : String} {i : Int} (shows : Text.Shows s i) : StandsFor (.text s) i

/-- An infinity of either sign. -/
def IsInfinite (v : Value) : Prop := ∃ negative, v = .number (.infinite negative)

end Settings.Value

namespace History

open Settings (Value)

variable {v : Value}

/-- A clamped limit is the number moved between one and ten. -/
theorem clamp_eq (i : Int) : (clamp i : Int) = max 1 (min i 10) := by
  unfold clamp maxEntries
  omega

/-- A value that stands for a whole number asks for it, moved into the range. -/
theorem limit_of_standsFor {i : Int} (h : v.StandsFor i) : limit v = .ok (clamp i) := by
  cases h with
  | bool b => rfl
  | integer i => rfl
  | number low high =>
    rw [limit, Binary64.truncate?_eq_some_iff.2 ⟨low, high⟩]
    · rfl
    · exact nofun
  | text shows =>
    rw [limit, CodeText.toString?_eq_some_iff.2 rfl, Option.bind_some,
      Text.wholeNumber?_eq_some_iff.2 (Text.wholeNumber_eq_ok_iff.2 shows)]
    rfl

/-- A value that stands for none, and is no infinity either, asks for the most there is. -/
theorem limit_of_not_standsFor (none : ∀ i, ¬v.StandsFor i) (finite : ¬v.IsInfinite) :
    limit v = .ok maxEntries := by
  cases v with
  | bool b => exact absurd (.bool b) (none _)
  | integer i => exact absurd (.integer i) (none i)
  | number x =>
    cases x with
    | nan => rfl
    | infinite negative => exact absurd ⟨negative, rfl⟩ finite
    | finite negative m =>
      let n := m.quanta / Binary64.unit
      have whole : (Binary64.finite negative m).truncate? =
          some (if negative then -(n : Int) else n) := rfl
      obtain ⟨low, high⟩ := Binary64.truncate?_eq_some_iff.1 whole
      exact absurd (.number low high) (none _)
  | text t =>
    cases read : t.toString?.bind Text.wholeNumber? with
    | none =>
      rw [limit, read]
      rfl
    | some i =>
      obtain ⟨s, characters, shows⟩ := Option.bind_eq_some_iff.1 read
      obtain rfl := CodeText.toString?_eq_some_iff.1 characters
      exact absurd (.text (Text.wholeNumber_eq_ok_iff.1 (Text.wholeNumber?_eq_some_iff.1 shows)))
        (none i)
  | null => rfl
  | list items => rfl
  | dictionary entries => rfl
  | foreign => rfl

/-- An infinity is no limit. -/
theorem limit_of_isInfinite (h : v.IsInfinite) : limit v = .error .infiniteLimit := by
  obtain ⟨negative, rfl⟩ := h
  rfl

/-- **A setting fails as a limit, or asks for one to ten entries.**  It fails if it is an infinity.
Otherwise it asks for the whole number that it stands for, moved into the range, and for ten if it
stands for none. -/
theorem limit_cases (v : Value) :
    (v.IsInfinite ∧ limit v = .error .infiniteLimit) ∨
      (¬v.IsInfinite ∧ ∃ n, limit v = .ok n ∧ 1 ≤ n ∧ n ≤ 10 ∧
        (∀ i, v.StandsFor i → (n : Int) = max 1 (min i 10)) ∧
        ((∀ i, ¬v.StandsFor i) → n = 10)) := by
  by_cases infinite : v.IsInfinite
  · exact .inl ⟨infinite, limit_of_isInfinite infinite⟩
  right
  by_cases whole : ∃ i, v.StandsFor i
  · obtain ⟨i, hi⟩ := whole
    obtain ⟨low, high⟩ := clamp_bounds i
    refine ⟨infinite, clamp i, limit_of_standsFor hi, low, high, fun j hj => ?_,
      fun none => absurd hi (none i)⟩
    -- Two numbers that a value stands for would ask for the same.
    have same := (limit_of_standsFor hi).symm.trans (limit_of_standsFor hj)
    rw [Except.ok.inj same, clamp_eq]
  · have none : ∀ i, ¬v.StandsFor i := fun i hi => whole ⟨i, hi⟩
    exact ⟨infinite, maxEntries, limit_of_not_standsFor none infinite, by decide, Nat.le_refl _,
      fun i hi => absurd hi (none i), fun _ => rfl⟩

end History
end DeskCalculator
