/-
# The shortest decimal that reads back

Of the decimals that round to a given double, `shortest` has the fewest digits, and of those with
as few the one nearest to it. A double is itself a decimal,
`n / 2 ^ 1074 = n * 5 ^ 1074 / 10 ^ 1074`, so the search goes through the digit counts of that exact
expansion: on each grid only the two neighbours of the number can be hits, the nearer one first, and
on the last grid the expansion itself is one. So `nearest_shortest`: whatever is found rounds to the
double that it was found for.
-/

import DeskCalculator.Decimal.Basic

namespace DeskCalculator
namespace Decimal

/-- A magnitude with all its decimal digits. -/
def expansion (m : Magnitude) : Decimal := ⟨m.quanta * Nat.pow 5 1074, -1074⟩

/-- The two neighbours of a decimal on the grid that lacks its last `dropped` digits, the nearer
one first; of two equally near, the even one. -/
def neighbours (d : Decimal) (dropped : Nat) : List Decimal :=
  let scale := Nat.pow 10 dropped
  let below := d.coefficient / scale
  let near := Binary64.roundDiv d.coefficient scale
  let far := if near = below then below + 1 else below
  [⟨near, d.exponent + dropped⟩, ⟨far, d.exponent + dropped⟩]

/-- Whether a decimal rounds to the magnitude. -/
def readsBack (m : Magnitude) (d : Decimal) : Bool := d.nearest false == .finite false m

/-- The decimal with the fewest digits that rounds to the magnitude, without zeros at its end. -/
def shortest (m : Magnitude) : Decimal :=
  let exact := expansion m
  let count := exact.digits.length
  let hit? := (List.range count).findSome? fun kept =>
    (neighbours exact (count - 1 - kept)).find? (readsBack m)
  (hit?.getD exact).trim

/-- All digits together round to the magnitude that they are the digits of. -/
theorem nearest_expansion (negative : Bool) (m : Magnitude) :
    (expansion m).nearest negative = .finite negative m := by
  have h1 : Int.toNat (-1074) = 0 := rfl
  have h2 : Int.toNat (- -1074) = 1074 := rfl
  rw [nearest_eq_ofRatio, expansion]
  simp only [h1, h2]
  unfold Binary64.unit
  generalize 1074 = k
  simp only [Nat.pow_eq]
  rw [Nat.pow_zero, Nat.mul_one, Nat.mul_assoc, ← Nat.mul_pow]
  exact Binary64.ofRatio_mul negative m (Nat.pow_pos (by decide))

/-- A decimal is nearest to the same magnitude on both sides of zero. -/
theorem nearest_neg (negative : Bool) (d : Decimal) :
    d.nearest negative = (d.nearest false).withSign negative := by
  rw [nearest_eq_ofRatio, nearest_eq_ofRatio]
  unfold Binary64.ofRatio
  split <;> rfl

/-- **The shortest decimal reads back.** -/
theorem nearest_shortest (negative : Bool) (m : Magnitude) :
    (shortest m).nearest negative = .finite negative m := by
  unfold shortest
  simp only [nearest_trim]
  generalize List.range (expansion m).digits.length = counts
  cases h : counts.findSome? fun kept =>
    (neighbours (expansion m) ((expansion m).digits.length - 1 - kept)).find? (readsBack m) with
  | none => exact nearest_expansion negative m
  | some d =>
    obtain ⟨kept, -, hk⟩ := List.exists_of_findSome?_eq_some h
    have hd := List.find?_some hk
    rw [readsBack, beq_iff_eq] at hd
    rw [Option.getD_some, nearest_neg, hd]
    rfl

end Decimal
end DeskCalculator
