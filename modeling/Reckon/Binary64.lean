/-
  Binary floating point in 64 bits, seen as exact numbers.

  A finite double is a multiple of `2 ^ -1074`; `magnitude` gives its absolute
  value in that unit, a natural number, so that rounding, truncation and
  remainders are computed exactly and with whole numbers.

  * `nearest num den` is the double nearest to `num / den`, the one with the
    even significand if two are equally near, infinity if that double would be
    `2 ^ 1024` or more;
  * `ofInt`, `ofDecimal` widen integers and read decimal numerals with it;
  * `truncate` and `remainder` are exact;
  * `interval` are the numbers whose nearest double is the given one, from which
    `text` takes the shortest digits.
-/
import Reckon.Decimal.Layout

namespace Reckon.Binary64

/-! ## Fields -/

/-- One in the unit `2 ^ -1074`. -/
def one : Nat := Nat.pow 2 1074

/-- The biased exponent. -/
def exponentField (x : Float) : Nat := x.toBits.toNat / Nat.pow 2 52 % Nat.pow 2 11

/-- The fraction, without the leading bit of a normal number. -/
def fractionField (x : Float) : Nat := x.toBits.toNat % Nat.pow 2 52

/-- The sign bit, set for the negative zero too. -/
def isNegative (x : Float) : Bool := x.toBits.toNat / Nat.pow 2 63 = 1

/-- The distance from a finite double to the next larger one, in the unit `2 ^ -1074`. -/
def spacing (x : Float) : Nat := Nat.pow 2 (exponentField x - 1)

/-- The absolute value of a finite double, in the unit `2 ^ -1074`. -/
def magnitude (x : Float) : Nat :=
  (if exponentField x = 0 then fractionField x else Nat.pow 2 52 + fractionField x) * spacing x

/-- The number with a minus sign where asked. -/
def withSign (negative : Bool) (x : Float) : Float := if negative then -x else x

/-- The absolute value of the first number with the sign of the second. -/
def copySign (x sign : Float) : Float := withSign (isNegative sign) x.abs

/-! ## Rounding -/

/-- The whole number nearest to `num / den`, an even one if two are equally near. -/
def roundDiv (num den : Nat) : Nat :=
  let q := num / den
  let r := num % den
  if 2 * r > den ∨ (2 * r = den ∧ q % 2 = 1) then q + 1 else q

/-- The bits of infinity: larger than those of any finite double. -/
def infinityBits : Nat := 2047 * Nat.pow 2 52

/-- The bits of the double nearest to `num / den`: the quotient is rounded to a
    multiple of the spacing at its size, and a carry out of the significand runs
    into the exponent. -/
def nearestBits (num den : Nat) : Nat :=
  let scaled := num * one
  let shift := (scaled / den).log2 - 52
  min infinityBits (shift * Nat.pow 2 52 + roundDiv scaled (den * Nat.pow 2 shift))

/-- The double nearest to `num / den`. -/
def nearest (num den : Nat) : Float := Float.ofBits (UInt64.ofNat (nearestBits num den))

/-- The double nearest to an integer. -/
def ofInt (n : Int) : Float := withSign (n < 0) (nearest n.natAbs 1)

/-- The double nearest to `digits * 10 ^ exponent`. -/
def ofDecimal (digits : Nat) (exponent : Int) : Float :=
  let (num, den) := Decimal.powerOfTen exponent
  nearest (digits * num) den

/-! ## Exact operations -/

/-- The whole part of a finite double. -/
def truncate (x : Float) : Int :=
  let n : Int := (magnitude x / one : Nat)
  if isNegative x then -n else n

/-- The remainder of finite doubles, with the sign of the first. -/
def remainder (x y : Float) : Float :=
  withSign (isNegative x) (nearest (magnitude x % magnitude y) one)

/-! ## Text -/

/-- The numbers whose nearest double is the absolute value of the given one, which
    is finite and not zero: up to half the spacing away, below a power of two
    half the smaller spacing there. -/
def interval (x : Float) : Decimal.Interval :=
  let below := if fractionField x = 0 ∧ exponentField x > 1 then 1 else 2
  { lower := 4 * magnitude x - below * spacing x
    value := 4 * magnitude x
    upper := 4 * magnitude x + 2 * spacing x
    unit := 4 * one
    closed := fractionField x % 2 = 0 }

/-- The most digits that a double ever needs. -/
def longest : Nat := 17

/-- Doubles are written positionally from `0.0001` up to below `1e+16`. -/
def layout : Decimal.Layout := ⟨-4, 16, 2⟩

/-- The shortest numeral that reads back as the given double. -/
def digits (x : Float) : List Char :=
  if x.isNaN then ['n', 'a', 'n']
  else
    let sign := if isNegative x then ['-'] else []
    if x.isInf then sign ++ ['i', 'n', 'f']
    else if magnitude x = 0 then sign ++ ['0', '.', '0']
    else sign ++ layout.write ((interval x).shortest longest)

/-- A double as text. -/
def text (x : Float) : String := String.ofList (digits x)

example : text (ofDecimal 1 (-1)) = "0.1" := by decide +kernel

example : text (ofDecimal 1 (-4)) = "0.0001" ∧ text (ofDecimal 1 (-5)) = "1e-05" := by
  decide +kernel

example : text (ofDecimal 123 13) = "1230000000000000.0" ∧
    text (ofDecimal 123 14) = "1.23e+16" := by
  decide +kernel

example : text (ofDecimal 3 (-324)) = "5e-324" ∧ text (ofDecimal 1 309) = "inf" := by
  decide +kernel

end Reckon.Binary64
