/-
  Evaluating a text in one step.

  * `evaluatePlain` evaluates without any names;
  * `solve`, `solveWith` insist on an integer;
  * `solveFloat`, `solveFloatWith` widen the answer to a float.
-/
import Reckon.Expr.Evaluate

namespace Reckon

/-- The outcome of a text in a scope. -/
def outcome (s : Scope) (text : String) : Except Failure Number := (evaluateText s text).outcome.1

/-- The outcome of a text without variables and functions. -/
def evaluatePlain (text : String) : Except Failure Number := outcome Scope.empty text

/-- An integer answer. -/
def Number.asInteger : Number → Except Failure Int
  | .int n => .ok n
  | .float _ => .error (.error (.typeMismatch integerName floatName))

/-- An answer widened to a float. -/
def Number.asFloat (n : Number) : Except Failure Float := Failure.ofFault n.toFloat

/-- The integer that a text comes to. -/
def solve (text : String) : Except Failure Int := do (← evaluatePlain text).asInteger

/-- The float that a text comes to. -/
def solveFloat (text : String) : Except Failure Float := do (← evaluatePlain text).asFloat

/-- The integer that a text comes to with the given variables. -/
def solveWith (definitions : Registry PlainValue) (text : String) : Except Failure Int := do
  (← outcome (Scope.of definitions none) text).asInteger

/-- The float that a text comes to with the given variables. -/
def solveFloatWith (definitions : Registry PlainValue) (text : String) : Except Failure Float := do
  (← outcome (Scope.of definitions none) text).asFloat

end Reckon
