/-
  Evaluation without a list of waiting operations.

  `Expr.denote` is the plain recursion over a tree: the left operand, then the
  right one, then the operation; of a call the name, then the arguments from left
  to right, then the function.  The evaluator walks down the left spine of a chain
  instead and keeps what is left to do in a list.

  * `evaluateWith_eq`: evaluating with operations that wait is denoting and then
    resuming them;
  * `evaluate_eq_denote`: the two agree on the number or the failure, and on
    the functions run before either.
-/
import Reckon.Expr.Evaluate

namespace Reckon

namespace Expr

variable (s : Scope)

mutual

/-- The value of an expression by recursion over the tree. -/
def denote : Expr → Evaluation Number
  | literal n _ => return n
  | var x _ => Evaluation.lift (s.value x)
  | unary op e _ => do
    if op ≠ "-" then throw (.unknownOperator op)
    let n ← denote e
    return n.negate
  | binary op lhs rhs spot => do
    let a ← denote lhs
    let b ← denote rhs
    Evaluation.lift (applyOperator op spot a b)
  | call f args _ => do
    let g ← Evaluation.lift (s.callable f)
    let values ← denoteAll args
    runFunction f g values

/-- The values of expressions, from left to right. -/
def denoteAll : List Expr → Evaluation (List Number)
  | [] => return []
  | e :: es => do
    let n ← denote e
    let ns ← denoteAll es
    return n :: ns

end

end Expr

@[simp]
theorem resume_nil : resume [] = pure := rfl

/-- The innermost of the operations that wait comes first. -/
@[simp]
theorem resume_cons (operation : Number → Evaluation Number)
    (pending : List (Number → Evaluation Number)) :
    resume (operation :: pending) = fun n => operation n >>= resume pending := rfl

namespace Expr

variable {s : Scope}

mutual

/-- **Operations that wait**: evaluation is denotation followed by what waits. -/
theorem evaluateWith_eq (pending : List (Number → Evaluation Number)) :
    ∀ e, evaluateWith s pending e = denote s e >>= resume pending
  | literal n _ => by rw [evaluateWith, denote, pure_bind]
  | var x _ => by rw [evaluateWith, denote]
  | unary op e _ => by
    rw [evaluateWith, denote, evaluateWith_eq [] e]
    by_cases h : op = "-"
    · simp [h]
    · simp [h]
  | binary op lhs rhs spot => by
    rw [evaluateWith, denote]
    split
    · -- a chain: the operation joins those that wait, and the spine goes on in `lhs`
      simp [evaluateWith_eq _ lhs, evaluateWith_eq [] rhs]
    · simp [evaluateWith_eq [] lhs, evaluateWith_eq [] rhs]
  | call f args _ => by
    rw [evaluateWith, denote, evaluateAll_eq args]
    simp

/-- Arguments are evaluated as they are denoted. -/
theorem evaluateAll_eq : ∀ es, evaluateAll s es = denoteAll s es
  | [] => by rw [evaluateAll, denoteAll]
  | e :: es => by
    rw [evaluateAll, denoteAll, evaluateWith_eq [] e, evaluateAll_eq es]
    simp

end

/-- **Evaluation is plain recursion.**  On every tree and in every scope the evaluator gives the
    number or the failure that the recursion gives, after the same runs of the same functions
    on the same arguments. -/
theorem evaluate_eq_denote (s : Scope) (e : Expr) : e.evaluate s = e.denote s := by
  rw [evaluate, evaluateWith_eq, resume_nil, bind_pure]

end Expr

end Reckon
