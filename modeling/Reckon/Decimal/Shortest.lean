/-
  The shortest decimal in an interval.

  Of a positive rational number and an interval round it, `Interval.shortest`
  gives the digits of a number in the interval with as few digits as possible,
  the one nearest to the given number among those of that length, the even one
  of two that are equally near.  It looks at grids of one digit, two digits and
  so on: if a point of a grid lies in the interval, so does one of the two
  points next to the given number.
-/
import Reckon.Decimal.Digits

namespace Reckon.Decimal

/-- The number `value / unit` within the interval from `lower / unit` to
    `upper / unit`, which holds its ends if `closed`. -/
structure Interval where
  lower : Nat
  value : Nat
  upper : Nat
  unit : Nat
  closed : Bool

/-- Digits after a decimal point: `0.d₁d₂… · 10 ^ point`. -/
structure Digits where
  digits : List Char
  point : Int

/-- Whether the interval holds `num / den`. -/
def Interval.holds (i : Interval) (num den : Nat) : Bool :=
  let low := i.lower * den
  let mid := num * i.unit
  let high := i.upper * den
  if i.closed then low ≤ mid && mid ≤ high else low < mid && mid < high

/-- Numerator and denominator of `10 ^ e`. -/
def powerOfTen (e : Int) : Nat × Nat := (Nat.pow 10 e.toNat, Nat.pow 10 (-e).toNat)

/-- The exponent `k` with `10 ^ (k - 1) ≤ value / unit < 10 ^ k`. -/
def Interval.magnitude (i : Interval) : Int :=
  let k : Int := (natDigits i.value).length - (natDigits i.unit).length
  let (num, den) := powerOfTen k
  if num * i.unit ≤ i.value * den then k + 1 else k

/-- Of the two multiples of `10 ^ e` next to the value the one in the interval,
    the nearer if both are, divided by `10 ^ e`. -/
def Interval.onGrid? (i : Interval) (e : Int) : Option Nat :=
  let (num, den) := powerOfTen e
  let top := i.value * den
  let bottom := i.unit * num
  let below := top / bottom
  let rest := top % bottom
  let above := below + 1
  match i.holds (below * num) den, i.holds (above * num) den with
  | true, true =>
    if 2 * rest < bottom || (2 * rest = bottom && below % 2 = 0) then some below else some above
  | true, false => some below
  | false, true => some above
  | false, false => none

/-- A multiple of `10 ^ e` as digits, the zeros at its end left out. -/
def Digits.ofMultiple (n : Nat) (e : Int) : Digits where
  digits := ((natDigits n).reverse.dropWhile (· = '0')).reverse
  point := (natDigits n).length + e

/-- The shortest digits in the interval, up to the given length. -/
def Interval.shortest (i : Interval) (longest : Nat) : Digits :=
  let k := i.magnitude
  let attempt (n : Nat) : Option Digits :=
    (i.onGrid? (k - (n + 1 : Nat))).map fun m => Digits.ofMultiple m (k - (n + 1 : Nat))
  ((List.range longest).findSome? attempt).getD ⟨['0'], 0⟩

end Reckon.Decimal
