/-
  Reading an integer as a person writes it.

  * `readInt?`: blanks around it do not count, a sign may stand in front, single
    underscores may part the digits, and the digits may be of any script.  More
    than `digitLimit` digits are not read.
-/
import Reckon.Decimal.Digits
import Reckon.Text.CharClass

namespace Reckon.Decimal

open Text

/-- The blanks that may stand round an integer: all but the four separator controls. -/
def aroundInteger (c : Char) : Bool := isBlank c && !(0x1c ≤ c.toNat && c.toNat ≤ 0x1f)

/-- The values of digits parted by single underscores, at least one digit. -/
def readDigits? : List Char → Option (List Nat)
  | [] => none
  | [c] => (digitValue? c).map ([·])
  | c :: '_' :: rest => do return (← digitValue? c) :: (← readDigits? rest)
  | c :: rest => do return (← digitValue? c) :: (← readDigits? rest)

/-- The natural number that digits write, unless there are too many. -/
def readNat? (cs : List Char) : Option Nat := do
  let ds ← readDigits? cs
  if ds.length ≤ digitLimit then some (ofDigits ds) else none

/-- The integer that a text writes. -/
def readInt? (s : String) : Option Int :=
  let front := s.toList.dropWhile aroundInteger
  match (front.reverse.dropWhile aroundInteger).reverse with
  | '-' :: cs => (readNat? cs).map fun n => -n
  | '+' :: cs => (readNat? cs).map Int.ofNat
  | cs => (readNat? cs).map Int.ofNat

end Reckon.Decimal
