/-
# The 64 bits of a double

The interchange format has a sign bit, an eleven-bit exponent field and a fraction of 52 bits. In
quanta the format reads `k * 2 ^ 52 + n / 2 ^ k` for a magnitude `n` on a grid of spacing `2 ^ k`:
a normal significand has its 53rd bit set and so raises the exponent field to `k + 1`, a subnormal
one leaves it at zero. `ofBits_toBits`: the bits of a double determine it.
-/

import DeskCalculator.Binary64.Rounding

namespace DeskCalculator
namespace Binary64

/-- The exponent field shared by NaN and the infinities. -/
def maxField : Nat := 2047

/-- The sign bit's weight. -/
def signBit (negative : Bool) : Nat := if negative then Nat.pow 2 63 else 0

/-- The bits of a double, as a number below `2 ^ 64`; NaN is the positive quiet one. -/
def toBits : Binary64 → Nat
  | .nan => maxField * Nat.pow 2 52 + Nat.pow 2 51
  | .infinite negative => signBit negative + maxField * Nat.pow 2 52
  | .finite negative m =>
    let k := spacing m.quanta
    signBit negative + k * Nat.pow 2 52 + m.quanta / Nat.pow 2 k

/-- The double that 64 bits stand for. -/
def ofBits (bits : Nat) : Binary64 :=
  let negative := bits / Nat.pow 2 63 % 2 == 1
  let field := bits / Nat.pow 2 52 % Nat.pow 2 11
  let fraction := bits % Nat.pow 2 52
  if field = maxField then
    if fraction = 0 then .infinite negative else .nan
  else if field = 0 then
    ofQuanta negative fraction
  else
    ofQuanta negative ((Nat.pow 2 52 + fraction) * Nat.pow 2 (field - 1))

/-- A bit pattern with an exponent field shows its significand, shifted by the field. -/
theorem ofBits_normal (negative : Bool) {k q : Nat} (hk : k ≤ 2045) (hlow : Nat.pow 2 52 ≤ q)
    (hhigh : q < Nat.pow 2 53) :
    ofBits (signBit negative + k * Nat.pow 2 52 + q) = ofQuanta negative (q * Nat.pow 2 k) := by
  simp only [Nat.pow_eq] at *
  have hs : signBit negative = 0 ∧ negative = false ∨
      signBit negative = 2 ^ 63 ∧ negative = true := by cases negative <;> simp [signBit]
  generalize signBit negative = s at *
  have hsign : ((s + k * 2 ^ 52 + q) / 2 ^ 63 % 2 == 1) = negative := by
    rcases hs with ⟨rfl, rfl⟩ | ⟨rfl, rfl⟩
    · rw [beq_eq_false_iff_ne]; omega
    · rw [beq_iff_eq]; omega
  have hfield : (s + k * 2 ^ 52 + q) / 2 ^ 52 % 2 ^ 11 = k + 1 := by omega
  have hfraction : (s + k * 2 ^ 52 + q) % 2 ^ 52 = q - 2 ^ 52 := by omega
  unfold ofBits
  simp only [Nat.pow_eq, hsign, hfield, hfraction, maxField]
  rw [if_neg (by omega), if_neg (by omega), Nat.add_sub_cancel, Nat.add_sub_cancel' hlow]

/-- A bit pattern with an empty exponent field shows its significand as it is. -/
theorem ofBits_subnormal (negative : Bool) {q : Nat} (h : q < Nat.pow 2 52) :
    ofBits (signBit negative + 0 * Nat.pow 2 52 + q) = ofQuanta negative q := by
  simp only [Nat.pow_eq] at *
  have hs : signBit negative = 0 ∧ negative = false ∨
      signBit negative = 2 ^ 63 ∧ negative = true := by cases negative <;> simp [signBit]
  generalize signBit negative = s at *
  have hsign : ((s + 0 * 2 ^ 52 + q) / 2 ^ 63 % 2 == 1) = negative := by
    rcases hs with ⟨rfl, rfl⟩ | ⟨rfl, rfl⟩
    · rw [beq_eq_false_iff_ne]; omega
    · rw [beq_iff_eq]; omega
  have hfield : (s + 0 * 2 ^ 52 + q) / 2 ^ 52 % 2 ^ 11 = 0 := by omega
  have hfraction : (s + 0 * 2 ^ 52 + q) % 2 ^ 52 = q := by omega
  unfold ofBits
  simp only [Nat.pow_eq, hsign, hfield, hfraction, maxField]
  rw [if_neg (by omega), if_pos trivial]

/-- **The bits of a double determine it.** -/
theorem ofBits_toBits (x : Binary64) : ofBits x.toBits = x := by
  cases x with
  | nan => decide
  | infinite negative => cases negative <;> decide
  | finite negative m =>
    have hlt := lt_two_pow_spacing m.quanta
    have hbound : spacing m.quanta ≤ 2045 := by
      rcases Nat.eq_zero_or_pos (spacing m.quanta) with h | h
      · omega
      · have := lt_of_two_pow_lt_limit
          (Nat.lt_of_le_of_lt (two_pow_spacing_le (Nat.ne_of_gt h)) m.representable.1)
        omega
    have hq : m.quanta / Nat.pow 2 (spacing m.quanta) * Nat.pow 2 (spacing m.quanta) = m.quanta :=
      Nat.div_mul_cancel (Nat.dvd_of_mod_eq_zero m.representable.2)
    have hhigh : m.quanta / Nat.pow 2 (spacing m.quanta) < Nat.pow 2 53 := by
      simp only [Nat.pow_eq] at *
      rw [Nat.div_lt_iff_lt_mul (Nat.two_pow_pos _), ← Nat.pow_add]
      exact hlt
    unfold toBits
    simp only []
    rcases Nat.lt_or_ge (m.quanta / Nat.pow 2 (spacing m.quanta)) (Nat.pow 2 52) with h | h
    · have h0 : spacing m.quanta = 0 := by
        rcases Nat.eq_zero_or_pos (spacing m.quanta) with h0 | h0
        · exact h0
        · have := two_pow_spacing_le (Nat.ne_of_gt h0)
          simp only [Nat.pow_eq] at *
          rw [Nat.pow_add, ← Nat.le_div_iff_mul_le (Nat.two_pow_pos _)] at this
          omega
      rw [h0] at h ⊢
      rw [ofBits_subnormal negative h, Nat.pow_eq, Nat.pow_zero, Nat.div_one, ofQuanta_quanta]
    · rw [ofBits_normal negative hbound h hhigh, hq, ofQuanta_quanta]

/-- The ratio of a circle's circumference to its diameter, rounded. -/
def pi : Binary64 := ofBits 0x400921FB54442D18

/-- Euler's number, rounded. -/
def euler : Binary64 := ofBits 0x4005BF0A8B145769

/-- A whole number, rounded. -/
def ofNat (n : Nat) : Binary64 := ofQuanta false (n * unit)

/-- A whole number, rounded, with its sign. -/
def ofInt (i : Int) : Binary64 := ofQuanta (i < 0) (i.natAbs * unit)

/-- One. -/
def one : Binary64 := ofNat 1

end Binary64
end DeskCalculator
