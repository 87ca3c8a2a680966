/-
  Faults of arithmetic: the reasons why an operation on numbers has no answer.

  Each fault is of one kind (`Fault.kind`): a zero divisor, a size that does not
  fit, or a value outside the domain.  Callers that explain a failure to a person
  tell zero divisors apart and quote the message of the others (`Fault.message`).
-/
import Reckon.Decimal.Digits

namespace Reckon

open Decimal (digitLimit)

/-- What sort of mishap a fault is. -/
inductive FaultKind where
  /-- A divisor is zero. -/
  | zeroDivisor
  /-- Something is too large. -/
  | overflow
  /-- The operation is not defined at the value. -/
  | domain
  deriving DecidableEq

/-- Why an operation on numbers has no answer. -/
inductive Fault where
  /-- Division of an integer by the integer zero. -/
  | integerByZero
  /-- Division by zero where a float takes part. -/
  | floatByZero
  /-- Remainder of a division by zero. -/
  | remainderByZero
  /-- An integer that no float is near to. -/
  | integerTooLarge
  /-- A quotient of integers that no float is near to. -/
  | quotientTooLarge
  /-- An integer power beyond the ceiling. -/
  | powerTooLarge
  /-- A power of finite floats that no float is near to. -/
  | rangeExceeded
  /-- An infinity or an undefined value as the result. -/
  | notFinite
  /-- The whole part of an infinity. -/
  | wholePartOfInfinity
  /-- The whole part of an undefined value. -/
  | wholePartOfNaN
  /-- A function outside of its domain. -/
  | outsideDomain
  /-- A negative power of zero. -/
  | zeroToNegativePower
  /-- A power that is not a real number. -/
  | notReal
  /-- A logarithm of zero or less. -/
  | logOfNonPositive
  /-- A base that has no logarithms. -/
  | badBase
  /-- A square root of a negative number. -/
  | rootOfNegative
  /-- An integer with more digits than are ever written out. -/
  | tooManyDigits
  deriving DecidableEq

/-- The kind of a fault. -/
def Fault.kind : Fault → FaultKind
  | integerByZero | floatByZero | remainderByZero => .zeroDivisor
  | integerTooLarge | quotientTooLarge | powerTooLarge | rangeExceeded | notFinite
  | wholePartOfInfinity => .overflow
  | wholePartOfNaN | outsideDomain | zeroToNegativePower | notReal | logOfNonPositive | badBase
  | rootOfNegative | tooManyDigits => .domain

/-- The explanation of a fault. -/
def Fault.message : Fault → String
  | integerByZero => "integer division or modulo by zero"
  | floatByZero => "float division by zero"
  | remainderByZero => "remainder by zero"
  | integerTooLarge => "int too large to convert to float"
  | quotientTooLarge => "integer division result too large for a float"
  | powerTooLarge => "integer result would be too large"
  | rangeExceeded => "math range error"
  | notFinite => "result is not a finite number"
  | wholePartOfInfinity => "cannot convert float infinity to integer"
  | wholePartOfNaN => "cannot convert float NaN to integer"
  | outsideDomain => "math domain error"
  | zeroToNegativePower => "zero cannot be raised to a negative power"
  | notReal => "result would not be a real number"
  | logOfNonPositive => "logarithm of a non-positive number"
  | badBase => "base must be positive and not 1"
  | rootOfNegative => "square root of a negative number"
  | tooManyDigits =>
    "Exceeds the limit (" ++ toString digitLimit ++ " digits) for integer string conversion; " ++
      "use sys.set_int_max_str_digits() to increase the limit"

end Reckon
