/-
  The value of an expression.

  Evaluation goes from left to right and depth first, and the first failure
  ends it.  A long chain of sums and products leans to the left; evaluation
  walks down its left spine and keeps what is left to do in a list
  (`evaluateWith`), so that it nests no deeper than the text.

  * `Evaluation` are calculations that may fail and that keep a record of the
    functions they run, also when they fail;
  * `applyOperator` says which errors operators give;
  * `Expr.evaluate` evaluates a tree, `evaluateText` a text.
-/
import Reckon.Expr.Parse
import Reckon.Registry

namespace Reckon

/-! ## Calculations -/

/-- One run of a function. -/
structure Run where
  name : String
  args : List Number
  deriving DecidableEq

/-- A calculation that may fail, with the record of the functions run. -/
abbrev Evaluation (α : Type) := ExceptT Failure (StateM (Array Run)) α

/-- A step that runs no function. -/
def Evaluation.lift (r : Except Failure α) : Evaluation α := ExceptT.mk (pure r)

/-- The outcome of a calculation, and the functions it has run. -/
def Evaluation.outcome (c : Evaluation α) : Except Failure α × Array Run := c.run.run #[]

/-! ## Names and operators -/

/-- The value of a variable. -/
def Scope.value (s : Scope) (name : String) : Except Failure Number :=
  match s.value? name with
  | none => .error (.error (.undefinedVariable name))
  | some v => Failure.ofRejection (Number.ofPlain v)

/-- The function of a name. -/
def Scope.callable (s : Scope) (name : String) : Except Failure Callable :=
  match s.callable? name with
  | none => .error (.error (.undefinedFunction name))
  | some f => .ok f

/-- Runs a function and records the run. -/
def runFunction (name : String) (f : Callable) (args : List Number) : Evaluation Number := do
  modify (·.push ⟨name, args⟩)
  Evaluation.lift (f.run args)

/-- A fault of an operator as an error: a zero divisor points at the operator, every
    other fault names it. -/
def operatorError (op : String) (spot : Int) (f : Fault) : Error :=
  match f.kind with
  | .zeroDivisor => .divisionByZero op (some spot)
  | .overflow | .domain => .domainError op f.message

/-- The value of a binary operation. -/
def applyOperator (op : String) (spot : Int) (a b : Number) : Except Failure Number :=
  match Operator.ofGlyph? op with
  | none => .error (.unknownOperator op)
  | some o => (o.apply a b).mapError fun f => .error (operatorError op spot f)

/-- Operators of which long chains lean to the left. -/
def leansLeft (op : String) : Bool := op ∈ ["+", "-", "*", "/", "%"]

/-! ## Evaluation -/

/-- Carries a value through the operations that wait for it, the innermost first. -/
def resume (pending : List (Number → Evaluation Number)) (n : Number) : Evaluation Number :=
  pending.foldlM (fun value operation => operation value) n

namespace Expr

variable (s : Scope)

mutual

/-- Evaluates an expression and carries its value through the operations that wait for it. -/
def evaluateWith (pending : List (Number → Evaluation Number)) : Expr → Evaluation Number
  | literal n _ => resume pending n
  | var x _ => do
    let n ← Evaluation.lift (s.value x)
    resume pending n
  | unary op e _ => do
    if op ≠ "-" then throw (.unknownOperator op)
    let n ← evaluateWith [] e
    resume pending n.negate
  | binary op lhs rhs spot =>
    if leansLeft op then
      let operation (a : Number) : Evaluation Number := do
        let b ← evaluateWith [] rhs
        Evaluation.lift (applyOperator op spot a b)
      evaluateWith (operation :: pending) lhs
    else do
      let a ← evaluateWith [] lhs
      let b ← evaluateWith [] rhs
      let n ← Evaluation.lift (applyOperator op spot a b)
      resume pending n
  | call f args _ => do
    let g ← Evaluation.lift (s.callable f)
    let values ← evaluateAll args
    let n ← runFunction f g values
    resume pending n

/-- Evaluates expressions from left to right. -/
def evaluateAll : List Expr → Evaluation (List Number)
  | [] => return []
  | e :: es => do
    let n ← evaluateWith [] e
    let ns ← evaluateAll es
    return n :: ns

end

/-- The value of an expression. -/
def evaluate (e : Expr) : Evaluation Number := evaluateWith s [] e

end Expr

/-- The value of the expression that a text is. -/
def evaluateText (s : Scope) (text : String) : Evaluation Number := do
  let e ← Evaluation.lift (Failure.ofError (Expr.parseText text))
  e.evaluate s

end Reckon
