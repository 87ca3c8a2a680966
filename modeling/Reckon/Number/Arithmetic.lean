/-
  The operations of expressions.

  Among integers the answer is an integer as long as it is exact: a quotient
  only where the division has no remainder, a power only where the exponent is
  not negative.  Every other answer is a float, and a float answer is finite or
  none at all.

  * `Operator` are the six binary operators, `Operator.apply` what they compute;
  * `remainder` takes the sign of the dividend;
  * `power` refuses integer powers whose size estimate exceeds `bitLimit`.
-/
import Reckon.Number.Basic

namespace Reckon

namespace Number

/-- An operation with an exact form for integers and a form for floats. -/
def combine (exact : Int → Int → Int) (inexact : Float → Float → Float) (a b : Number) :
    Except Fault Number :=
  match a, b with
  | int m, int n => .ok (int (exact m n))
  | _, _ => do
    let x ← a.toFloat
    let y ← b.toFloat
    ofFinite (inexact x y)

/-- Sum. -/
def add : Number → Number → Except Fault Number := combine (· + ·) (· + ·)

/-- Difference. -/
def subtract : Number → Number → Except Fault Number := combine (· - ·) (· - ·)

/-- Product. -/
def multiply : Number → Number → Except Fault Number := combine (· * ·) (· * ·)

/-- The opposite number, of the same kind. -/
def negate : Number → Number
  | int n => int (-n)
  | float x => float (-x)

/-! ## Division -/

/-- The float nearest to a quotient of integers. -/
def quotient (m n : Int) : Except Fault Float :=
  let x := Binary64.nearest m.natAbs n.natAbs
  if x.isFinite then .ok (Binary64.withSign ((m < 0) != (n < 0)) x) else .error .quotientTooLarge

/-- Quotient: an integer where the division of integers, which rounds down, leaves no remainder. -/
def divide (a b : Number) : Except Fault Number :=
  match a, b with
  | int m, int n =>
    if n = 0 then .error .integerByZero
    else if m.fmod n = 0 then .ok (int (m.fdiv n))
    else do ofFinite (← quotient m n)
  | _, _ => do
    let x ← a.toFloat
    let y ← b.toFloat
    if y == 0 then .error .floatByZero else ofFinite (x / y)

/-- The remainder of floats, with the sign of the first. -/
def floatRemainder (x y : Float) : Except Fault Float :=
  if x.isNaN then .ok x
  else if y.isNaN then .ok y
  else if x.isInf then .error .outsideDomain
  else if y.isInf then .ok x
  else .ok (Binary64.remainder x y)

/-- The remainder of integers: that of their absolute values, with the sign of the first. -/
def integerRemainder (m n : Int) : Int :=
  let r : Int := (m.natAbs % n.natAbs : Nat)
  if m < 0 then -r else r

/-- It is the remainder of the division that rounds toward zero. -/
theorem integerRemainder_eq (m n : Int) : integerRemainder m n = m.tmod n := by
  unfold integerRemainder
  cases m with
  | ofNat m =>
    have hm : ¬ Int.ofNat m < 0 := Int.not_lt.2 (Int.natCast_nonneg m)
    simp only [if_neg hm]
    cases n <;> rfl
  | negSucc m =>
    simp only [Int.negSucc_lt_zero, if_true]
    cases n <;> rfl

/-- Remainder, with the sign of the dividend. -/
def remainder (a b : Number) : Except Fault Number :=
  if b.isZero then .error .remainderByZero
  else match a, b with
    | int m, int n => .ok (int (integerRemainder m n))
    | _, _ => do
      let x ← a.toFloat
      let y ← b.toFloat
      ofFinite (← floatRemainder x y)

/-! ## Powers -/

/-- Integer powers estimated at more bits than this are refused. -/
def bitLimit : Nat := 100000

/-- The number of binary digits, none for zero. -/
def bitLength (n : Nat) : Nat := if n = 0 then 0 else n.log2 + 1

/-- Whether the size estimate of an integer power is beyond the ceiling: the
    exponent times the bits of a base other than `-1`, `0` and `1`. -/
def exceedsCeiling (base : Int) (exponent : Nat) : Bool :=
  1 < base.natAbs && bitLimit < exponent * bitLength base.natAbs

/-- An integer power.  For `-1`, `0` and `1` the parity of the exponent is enough, so
    that the exponent may be as large as it likes. -/
def integerPower (base : Int) (exponent : Nat) : Int :=
  if 1 < base.natAbs ∨ exponent = 0 then base.pow exponent
  else if exponent % 2 = 0 then base * base else base

theorem integerPower_eq (base : Int) (exponent : Nat) :
    integerPower base exponent = base.pow exponent := by
  show integerPower base exponent = base ^ exponent
  unfold integerPower
  split
  · rfl
  · rename_i small
    have h : base = 0 ∨ base = 1 ∨ base = -1 := by omega
    have pos : exponent ≠ 0 := by omega
    rcases h with rfl | rfl | rfl
    · simp [Int.zero_pow pos]
    · rw [Int.one_pow, Int.mul_one, ite_self]
    · have := Int.negSucc_pow 0 exponent
      simp only [Int.reduceNegSucc, Nat.succ_eq_add_one, Nat.zero_add, Nat.one_pow] at this
      rw [this]
      split <;> rfl

/-- The power of floats.  Where an operand is not finite the limit of the power
    counts, if it has one. -/
def floatPower (x y : Float) : Except Fault Float :=
  let p := Float.pow x y
  if !(x.isFinite && y.isFinite) then .ok p
  else if p.isNaN then .error .notReal
  else if p.isInf then .error (if x == 0 then .zeroToNegativePower else .rangeExceeded)
  else .ok p

/-- Power: an integer where both numbers are and the exponent is not negative. -/
def power (a b : Number) : Except Fault Number :=
  let inexact : Except Fault Number := do
    let x ← a.toFloat
    let y ← b.toFloat
    ofFinite (← floatPower x y)
  match a, b with
  | int m, int n =>
    if n < 0 then inexact
    else if exceedsCeiling m n.toNat then .error .powerTooLarge
    else .ok (int (integerPower m n.toNat))
  | _, _ => inexact

end Number

/-! ## Operators -/

/-- The binary operators. -/
inductive Operator where
  | add
  | subtract
  | multiply
  | divide
  | remainder
  | power
  deriving DecidableEq

/-- The sign of an operator. -/
def Operator.glyph : Operator → String
  | add => "+"
  | subtract => "-"
  | multiply => "*"
  | divide => "/"
  | remainder => "%"
  | power => "^"

/-- The operators, in order of precedence. -/
def Operator.all : List Operator := [add, subtract, multiply, divide, remainder, power]

/-- The operator with a sign. -/
def Operator.ofGlyph? (g : String) : Option Operator := Operator.all.find? (·.glyph = g)

/-- What an operator computes. -/
def Operator.apply : Operator → Number → Number → Except Fault Number
  | add => Number.add
  | subtract => Number.subtract
  | multiply => Number.multiply
  | divide => Number.divide
  | remainder => Number.remainder
  | power => Number.power

end Reckon
