/-
  Functions that expressions can call.

  The standard functions answer in finite floats, insist on their number of
  arguments, and turn every fault into an error that names the function.  Callers
  may add functions of their own, which answer with any plain value and fail in
  any way.

  * `StandardFunction.run`: a call of a standard function;
  * `Callable.run`: a call of either sort of function, whose answer must be a
    number.
-/
import Reckon.Failure
import Reckon.Number.Elementary

namespace Reckon

/-- The functions that are always there for the taking. -/
inductive StandardFunction where
  | log
  | sqrt
  | sin
  | cos
  | tan
  | atan
  | atan2
  deriving DecidableEq

namespace StandardFunction

/-- All of them. -/
def all : List StandardFunction := [log, sqrt, sin, cos, tan, atan, atan2]

/-- The name in expressions. -/
def name : StandardFunction → String
  | log => "log"
  | sqrt => "sqrt"
  | sin => "sin"
  | cos => "cos"
  | tan => "tan"
  | atan => "atan"
  | atan2 => "atan2"

/-- The number of arguments. -/
def arity : StandardFunction → Nat
  | log | atan2 => 2
  | sqrt | sin | cos | tan | atan => 1

/-- The value at arguments of the right number. -/
def compute? : StandardFunction → List Number → Option (Except Fault Float)
  | log, [base, value] => some (Number.properLog base value)
  | sqrt, [x] => some x.squareRoot
  | sin, [x] => some x.sine
  | cos, [x] => some x.cosine
  | tan, [x] => some x.tangent
  | atan, [x] => some x.arcTangent
  | atan2, [y, x] => some (Number.angle y x)
  | _, _ => none

/-- A call: a finite float, or the error that says why there is none. -/
def run (f : StandardFunction) (args : List Number) : Except Error Number :=
  match f.compute? args with
  | none => .error (.argCount f.name f.arity args.length)
  | some (.error fault) => .error (.domainError f.name fault.message)
  | some (.ok x) =>
    if x.isFinite then .ok (.float x) else .error (.domainError f.name Fault.notFinite.message)

end StandardFunction

/-- A function that an expression can call. -/
inductive Callable where
  | standard (f : StandardFunction)
  | given (f : List Number → Except Failure PlainValue)

/-- A call with evaluated arguments. -/
def Callable.run : Callable → List Number → Except Failure Number
  | standard f, args => Failure.ofError (f.run args)
  | given f, args => do Failure.ofRejection (Number.ofPlain (← f args))

end Reckon
