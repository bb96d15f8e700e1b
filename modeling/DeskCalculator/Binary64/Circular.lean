/-
# Sine, cosine and tangent

The circular functions of an angle in radians, rounded correctly. `toRadians` turns degrees into
radians by the double nearest to `π / 180`, with the rounding of that product; it keeps finite
angles finite.

An angle is reduced to `t` with `|t| ≤ π / 4` by a whole number `k` of quarter turns:

| `k mod 4` | sine | cosine |
| ---: | --- | --- |
| 0 | `sin t` | `cos t` |
| 1 | `cos t` | `-sin t` |
| 2 | `-sin t` | `-cos t` |
| 3 | `-cos t` | `sin t` |

Below `2 ^ -27` the sine and the tangent of a double are nearer to it than to its neighbours, and
the cosine is nearer to one.
-/

import DeskCalculator.Binary64.Enclosure
import DeskCalculator.Binary64.Series

namespace DeskCalculator
namespace Binary64

/-- One degree in radians. -/
def degree : Binary64 := pi / ofNat 180

/-- Degrees to radians. -/
def toRadians (x : Binary64) : Binary64 := x * degree

/-- The sine and the cosine of `n` quanta, in units of `2 ^ -places`, each with an error below
`Series.slack`. -/
def sinCos (places n : Nat) : Int × Int :=
  let wide := places + (n.log2 - 1074) + 8
  let angle := n * Nat.pow 2 wide / unit
  let quarter := Series.pi wide / 2
  let turns := (angle + quarter / 2) / quarter
  let rest : Int := (angle : Int) - (turns * quarter : Nat)
  let t := rest.natAbs / Nat.pow 2 (wide - places)
  let s : Int := if rest < 0 then -(Series.sin places t : Int) else Series.sin places t
  let c : Int := Series.cos places t
  match turns % 4 with
  | 0 => (s, c)
  | 1 => (c, -s)
  | 2 => (-s, -c)
  | _ => (-c, s)

/-- Magnitudes that differ from their sine by less than rounding shows: below `2 ^ -27`. -/
def isSmallAngle (n : Nat) : Bool := n < Nat.pow 2 1047

/-- The sine of an angle; an infinite angle has none. -/
def sin : Binary64 → Binary64
  | .finite negative m =>
    if isSmallAngle m.quanta then .finite negative m
    else
      let y := settle (fun p =>
        let places := p + Series.slackBits
        .around (sinCos places m.quanta).1 Series.slack places) workingPlaces
      if negative then -y else y
  | _ => .nan

/-- The cosine of an angle; an infinite angle has none. -/
def cos : Binary64 → Binary64
  | .finite _ m =>
    if isSmallAngle m.quanta then one
    else
      settle (fun p =>
        let places := p + Series.slackBits
        .around (sinCos places m.quanta).2 Series.slack places) workingPlaces
  | _ => .nan

/-- The tangent of an angle; an infinite angle has none. -/
def tan : Binary64 → Binary64
  | .finite negative m =>
    if isSmallAngle m.quanta then .finite negative m
    else
      let y := settle (fun p =>
        let places := p + Series.slackBits
        let (s, c) := sinCos places m.quanta
        .quotient s c Series.slack places) workingPlaces
      if negative then -y else y
  | _ => .nan

end Binary64
end DeskCalculator
