/-
# Power series in fixed point

A number is held as a whole number of units of `2 ^ -places`. Each function below drops at most one
unit per term and has far fewer terms than `2 ^ slackBits`, so `slackBits` guard bits cover all
that it drops.

| value | series |
| --- | --- |
| `π` | `16 arctan (1/5) - 4 arctan (1/239)` |
| `ln 2` | `2 artanh (1/3)` |
| `ln 10` | `3 ln 2 + 2 artanh (1/9)` |
| `ln x` | `e ln 2 + 2 artanh ((f - 1) / (f + 1))` for `x = f * 2 ^ e`, `3/4 ≤ f < 3/2` |
| `sin t`, `cos t`, `exp t` | Taylor's |
-/

namespace DeskCalculator
namespace Series

/-- Guard bits: the bits of a result that its rounding errors may have reached. -/
def slackBits : Nat := 16

/-- An upper bound on the error of the sums here, in units of the last place. -/
def slack : Nat := Nat.pow 2 slackBits

/-- `term - term * f + term * f * f - …` with the `n`-th term further divided by `2 n + 1`, where
multiplying by `f` is dividing by `d`. -/
def arctanTerms (d : Nat) : Nat → Nat → Nat → Nat
  | 0, _, _ => 0
  | fuel + 1, odd, term =>
    if term = 0 then 0 else term / odd - arctanTerms d fuel (odd + 2) (term / d)

/-- The arctangent of `1 / k`. -/
def arctanInverse (places k : Nat) : Nat :=
  arctanTerms (k * k) places 1 (Nat.pow 2 places / k)

/-- The ratio of a circle's circumference to its diameter. -/
def pi (places : Nat) : Nat :=
  let p := places + slackBits
  (16 * arctanInverse p 5 - 4 * arctanInverse p 239) / slack

/-- `term + term * s / 3 + term * s² / 5 + …` for the square `s` of the argument. -/
def artanhTerms (places square : Nat) : Nat → Nat → Nat → Nat
  | 0, _, _ => 0
  | fuel + 1, odd, term =>
    if term = 0 then 0
    else term / odd + artanhTerms places square fuel (odd + 2) (term * square / Nat.pow 2 places)

/-- The area tangent of `num / den`, which is at most a third. -/
def artanh (places num den : Nat) : Nat :=
  let z := num * Nat.pow 2 places / den
  artanhTerms places (z * z / Nat.pow 2 places) places 1 z

/-- The natural logarithm of two. -/
def ln2 (places : Nat) : Nat := 2 * artanh (places + slackBits) 1 3 / slack

/-- The natural logarithm of ten. -/
def ln10 (places : Nat) : Nat :=
  let p := places + slackBits
  (3 * ln2 p + 2 * artanh p 1 9) / slack

/-- The natural logarithm of `n * 2 ^ -point` for `n` other than zero. -/
def ln (places n point : Nat) : Int :=
  let p := places + slackBits
  let top := if 3 * Nat.pow 2 n.log2 ≤ 2 * n then n.log2 + 1 else n.log2
  let base := Nat.pow 2 top
  let whole : Int := ((top : Int) - point) * ln2 p
  let part : Int :=
    if base ≤ n then 2 * artanh p (n - base) (n + base)
    else -(2 * artanh p (base - n) (n + base) : Nat)
  (whole + part) / slack

/-- `term - term * s / (i (i + 1)) + …` for the square `s` of the argument, the index growing by
two: the tail shared by the sine and the cosine. -/
def circularTerms (places square : Nat) : Nat → Nat → Nat → Nat
  | 0, _, _ => 0
  | fuel + 1, i, term =>
    if term = 0 then 0
    else
      term - circularTerms places square fuel (i + 2)
        (term * square / Nat.pow 2 places / (i * (i + 1)))

/-- The sine of an angle below one. -/
def sin (places t : Nat) : Nat :=
  circularTerms places (t * t / Nat.pow 2 places) places 2 t

/-- The cosine of an angle below one. -/
def cos (places t : Nat) : Nat :=
  circularTerms places (t * t / Nat.pow 2 places) places 1 (Nat.pow 2 places)

/-- `term + term * t / i + term * t² / (i (i + 1)) + …`. -/
def expTerms (places t : Nat) : Nat → Nat → Nat → Nat
  | 0, _, _ => 0
  | fuel + 1, i, term =>
    if term = 0 then 0
    else term + expTerms places t fuel (i + 1) (term * t / Nat.pow 2 places / i)

/-- The exponential of a number below one. -/
def exp (places t : Nat) : Nat := expTerms places t places 1 (Nat.pow 2 places)

end Series
end DeskCalculator
