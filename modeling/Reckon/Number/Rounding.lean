/-
  Rounding to decimal places, halves away from zero.

  * `roundTo value places` scales by a power of ten, rounds, and scales back; a
    negative number of places rounds to tens, hundreds and so on.  Values that
    are whole at the scale, and values that are not finite, stay as they are.
-/
import Reckon.Number.Basic

namespace Reckon.Number

/-- The most decimal places that any float has use for. -/
def mostPlaces : Int := 308

/-- Powers of ten with a lower exponent than this are zero. -/
def leastExponent : Int := -400

/-- Floats from here on are whole numbers. -/
def wholeFrom : Float := 4503599627370496

/-- Exponents where the power of ten, computed in floating point, is the float after the nearest
    one. -/
def roundedUp : List Int := [23, 210]

/-- The float that a power of ten is computed as. -/
def tenTo (places : Int) : Float :=
  let nearest := Binary64.ofDecimal 1 places
  if places ∈ roundedUp then Float.ofBits (nearest.toBits + 1) else nearest

/-- The power of ten to scale by, the exponent being widened to a float first. -/
def scaleOf (places : Int) : Except Fault Float :=
  if places < leastExponent then (Number.int places).toFloat.map fun _ => 0
  else .ok (tenTo places)

/-- The whole number nearest to a float that is not negative, halves upward. -/
def roundHalfUp (x : Float) : Float :=
  let whole := Binary64.truncate x
  let below := Binary64.ofInt whole
  if x - below ≥ 0.5 then Binary64.ofInt (whole + 1) else below

/-- The value rounded to a number of decimal places. -/
def roundTo (value : Float) (places : Int) : Except Fault Float :=
  if !value.isFinite || places > mostPlaces then .ok value
  else do
    let scale ← scaleOf places
    if scale == 0 then return Binary64.copySign 0 value
    let scaled := value.abs * scale
    if scaled ≥ wholeFrom then return value
    return Binary64.copySign (roundHalfUp scaled) value / scale

end Reckon.Number
