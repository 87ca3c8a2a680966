/-
  Functions of one and two floats: logarithms, square root, trigonometry.

  Each answers or gives the fault that says why it cannot.  A logarithm is the
  quotient of two natural logarithms, each rounded.
-/
import Reckon.Number.Basic

namespace Reckon.Number

/-- The natural logarithm of a positive float. -/
def naturalLog (x : Float) : Except Fault Float :=
  if x.isNaN then .ok x
  else if 0 < x then .ok (Float.log x)
  else .error .outsideDomain

/-- The logarithm of a number in a base, whatever the base. -/
def log (value base : Number) : Except Fault Float := do
  let x ← value.toFloat
  let b ← base.toFloat
  let top ← naturalLog x
  let bottom ← naturalLog b
  if bottom == 0 then .error .floatByZero else .ok (top / bottom)

/-- The logarithm of a positive number in a positive base other than 1. -/
def properLog (base value : Number) : Except Fault Float := do
  let x ← value.toFloat
  if x ≤ 0 then throw .logOfNonPositive
  let b ← base.toFloat
  if b ≤ 0 || b == 1 then throw .badBase
  value.log base

/-- The square root. -/
def squareRoot (value : Number) : Except Fault Float := do
  let x ← value.toFloat
  if x < 0 then .error .rootOfNegative else .ok x.sqrt

/-- A function that is defined wherever its result is not NaN. -/
def total (f : Float → Float) (value : Number) : Except Fault Float := do
  let x ← value.toFloat
  let y := f x
  if y.isNaN && !x.isNaN then .error .outsideDomain else .ok y

/-- Sine. -/
def sine : Number → Except Fault Float := total Float.sin

/-- Cosine. -/
def cosine : Number → Except Fault Float := total Float.cos

/-- Tangent. -/
def tangent : Number → Except Fault Float := total Float.tan

/-- Arc tangent. -/
def arcTangent : Number → Except Fault Float := total Float.atan

/-- The angle of the point with the given ordinate and abscissa. -/
def angle (y x : Number) : Except Fault Float := do
  let b ← y.toFloat
  let a ← x.toFloat
  .ok (Float.atan2 b a)

end Reckon.Number
