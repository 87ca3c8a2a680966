/-
  Numbers: every value of a calculation is an exact integer or a float.

  * `Number.equal` compares kind and value, so `3` and `3.0` differ, the two
    zeros among the floats are equal, and NaN equals nothing;
  * `Number.text` writes a number, `Number.display` with its kind; both have a
    checked form (`writeText`, `writeDisplay`) that refuses integers of more than
    `digitLimit` digits;
  * `Number.toFloat` widens to a float, `Number.toInt` takes the whole part.
-/
import Reckon.Binary64
import Reckon.Fault

namespace Reckon

/-- An exact integer or a float. -/
inductive Number where
  | int (value : Int)
  | float (value : Float)
  deriving DecidableEq

namespace Number

/-- Whether the number is an exact integer. -/
def isInteger : Number → Bool
  | int _ => true
  | float _ => false

/-- The name of the integers. -/
def integerName : String := "Integer"

/-- The name of the floats. -/
def floatName : String := "Float"

/-- The name of the number's kind. -/
def kindName : Number → String
  | int _ => integerName
  | float _ => floatName

/-- Whether the value is zero, of either kind and either sign. -/
def isZero : Number → Bool
  | int n => n = 0
  | float x => x == 0

/-- Same kind and equal value. -/
def equal : Number → Number → Bool
  | int m, int n => m = n
  | float x, float y => x == y
  | _, _ => false

/-- How many different numbers a list holds. -/
def countDistinct (ns : List Number) : Nat :=
  (ns.foldl (fun seen n => if seen.any (equal n) then seen else n :: seen) []).length

/-! ## Text -/

/-- The number as text. -/
def text : Number → String
  | int n => Decimal.intText n
  | float x => Binary64.text x

/-- The number as text, with its kind. -/
def display (n : Number) : String := n.kindName ++ "(" ++ n.text ++ ")"

/-- Whether the number is short enough to be written out: a float always is. -/
def isWritable : Number → Bool
  | int n => n.natAbs < Nat.pow 10 Decimal.digitLimit
  | float _ => true

/-- The number as text, if it is short enough. -/
def writeText (n : Number) : Except Fault String :=
  if n.isWritable then .ok n.text else .error .tooManyDigits

/-- The number as text with its kind, if it is short enough. -/
def writeDisplay (n : Number) : Except Fault String :=
  if n.isWritable then .ok n.display else .error .tooManyDigits

/-! ## Conversions -/

/-- The float nearest to the number. -/
def toFloat : Number → Except Fault Float
  | int n =>
    let x := Binary64.ofInt n
    if x.isFinite then .ok x else .error .integerTooLarge
  | float x => .ok x

/-- The whole part. -/
def toInt : Number → Except Fault Int
  | int n => .ok n
  | float x =>
    if x.isNaN then .error .wholePartOfNaN
    else if x.isInf then .error .wholePartOfInfinity
    else .ok (Binary64.truncate x)

/-- A float as the result of an operation, which must be finite. -/
def ofFinite (x : Float) : Except Fault Number :=
  if x.isFinite then .ok (.float x) else .error .notFinite

end Number

end Reckon
