/-
  Layouts: how digits and the place of their decimal point are written out.

  * `Layout.write` writes a number positionally while its exponent is in the
    layout's span, with at least one digit on either side of the point, and in
    scientific form otherwise.
-/
import Reckon.Decimal.Shortest

namespace Reckon.Decimal

/-- The decisions of a number format. -/
structure Layout where
  /-- The least exponent that is written positionally. -/
  least : Int
  /-- The exponent from which on the scientific form is used. -/
  limit : Int
  /-- The least number of digits of a written exponent. -/
  exponentWidth : Nat

/-- A positional numeral: digits on both sides of a point. -/
def positional (d : Digits) : List Char :=
  if d.point ≤ 0 then '0' :: '.' :: List.replicate (-d.point).toNat '0' ++ d.digits
  else
    let whole := d.digits.take d.point.toNat
    let zeros := List.replicate (d.point.toNat - whole.length) '0'
    let rest := d.digits.drop d.point.toNat
    whole ++ zeros ++ '.' :: (if rest = [] then ['0'] else rest)

/-- A scientific numeral: one digit, the others after a point, and a signed exponent. -/
def scientific (exponentWidth : Nat) (d : Digits) : List Char :=
  let e := d.point - 1
  let sign := if e < 0 then '-' else '+'
  let tail := 'e' :: sign :: (natDigits e.natAbs).leftpad exponentWidth '0'
  match d.digits with
  | [] => tail
  | [c] => c :: tail
  | c :: rest => c :: '.' :: rest ++ tail

/-- The digits as the layout writes them. -/
def Layout.write (l : Layout) (d : Digits) : List Char :=
  if l.least ≤ d.point - 1 ∧ d.point - 1 < l.limit then positional d
  else scientific l.exponentWidth d

end Reckon.Decimal
