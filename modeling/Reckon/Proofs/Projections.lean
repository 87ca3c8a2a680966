/-
  Answers as plain integers and floats.

  A text can be asked for an integer or for a float.  The answer is that of the evaluation, or a
  complaint about its kind, and a failure is the failure of the evaluation.  Only the widening
  of an integer has a failure of its own, which is no error of the expression: there is no float
  near to an integer from `overflowFrom` on.

  * `Projects`: what the two questions make of an outcome;
  * `projects_of_outcome`: they do so with every outcome that is a number or an error about
    anything but its kind;
  * `solve_projects`: and so of every text.
-/
import Mathlib.Algebra.Group.Int.Defs
import Reckon.Proofs.Widening
import Reckon.Solve

namespace Reckon

open Binary64 (overflowFrom ofInt)

/-- The complaint about a float where an integer is asked for. -/
def Error.floatAnswer : Error := .typeMismatch Number.integerName Number.floatName

/-- What an outcome is when it is asked for as an integer, and when it is asked for as a float. -/
structure Projects (r : Except Failure Number) (asInt : Except Failure Int)
    (asFloat : Except Failure Float) : Prop where
  /-- The integer is the answer. -/
  int : ∀ n, asInt = .ok n ↔ r = .ok (.int n)
  /-- A complaint about its kind is made of a float, and of nothing else. -/
  mismatch : asInt = .error (.error .floatAnswer) ↔ ∃ x, r = .ok (.float x)
  /-- Every other error is that of the outcome. -/
  intError : ∀ e, e ≠ .floatAnswer → (asInt = .error (.error e) ↔ r = .error (.error e))
  /-- There is no failure but errors. -/
  intFailure : ∀ f, asInt = .error f → ∃ e, f = .error e
  /-- The float is the answer, or the integer of the answer widened. -/
  float : ∀ x, asFloat = .ok x ↔
    r = .ok (.float x) ∨ ∃ n, r = .ok (.int n) ∧ n.natAbs < overflowFrom ∧ x = ofInt n
  /-- Every error is that of the outcome. -/
  floatError : ∀ e, asFloat = .error (.error e) ↔ r = .error (.error e)
  /-- Another failure is made of the integers that no float is near to, and of nothing else. -/
  floatFailure : ∀ f, (asFloat = .error f ∧ ∀ e, f ≠ .error e) ↔
    ∃ n, r = .ok (.int n) ∧ overflowFrom ≤ n.natAbs ∧ f = .fault .integerTooLarge

variable {r : Except Failure Number}

/-- An integer asked for as a float. -/
theorem asFloat_int (n : Int) : (Number.int n).asFloat =
    if n.natAbs < overflowFrom then .ok (ofInt n) else .error (.fault .integerTooLarge) := by
  unfold Number.asFloat
  rw [Number.toFloat_int]
  split <;> rfl

/-- **The two questions** to an outcome that is a number or an error about anything but its kind. -/
theorem projects_of_outcome
    (h : (∃ n, r = .ok n) ∨ ∃ e, r = .error (.error e) ∧ e.family ≠ .result) :
    Projects r (r >>= Number.asInteger) (r >>= Number.asFloat) := by
  obtain ⟨n | x, rfl⟩ | ⟨e, rfl, he⟩ := h
  · -- an integer: only whether it can be widened is left open
    have hi : ((.ok (.int n) : Except Failure Number) >>= Number.asInteger) = .ok n := rfl
    have hf : ((.ok (.int n) : Except Failure Number) >>= Number.asFloat) =
        if n.natAbs < overflowFrom then .ok (ofInt n) else .error (.fault .integerTooLarge) :=
      asFloat_int n
    rw [hi, hf]
    by_cases hn : n.natAbs < overflowFrom
    · rw [if_pos hn]
      constructor <;> simp [hn, eq_comm]
    · rw [if_neg hn]
      constructor
      case floatFailure =>
        intro f
        constructor
        · rintro ⟨⟨⟩, -⟩
          exact ⟨n, rfl, Nat.le_of_not_lt hn, rfl⟩
        · rintro ⟨_, -, -, rfl⟩
          exact ⟨rfl, by simp⟩
      all_goals simp [hn, eq_comm]
  · have hi : ((.ok (.float x) : Except Failure Number) >>= Number.asInteger) =
        .error (.error .floatAnswer) := rfl
    have hf : ((.ok (.float x) : Except Failure Number) >>= Number.asFloat) = .ok x := rfl
    rw [hi, hf]
    constructor <;> simp [eq_comm]
  · have hi : ((.error (.error e) : Except Failure Number) >>= Number.asInteger) =
        .error (.error e) := rfl
    have hf : ((.error (.error e) : Except Failure Number) >>= Number.asFloat) =
        .error (.error e) := rfl
    have hk : e ≠ .floatAnswer := by
      rintro rfl
      exact he rfl
    rw [hi, hf]
    constructor <;> simp [hk, eq_comm]

/-- **A text asked for an integer or for a float**, with definitions or without.  The integer is the
    answer of the evaluation, a float where an integer is asked for is complained about, and a float
    is the answer or the integer of the answer widened.  Every failure is an error of the
    expression, the same as that of the evaluation, but for integers that no float is near to. -/
theorem solve_projects (text : String) :
    (∀ d : Definitions, Projects (outcome (Scope.of (some d.plain) none) text)
      (solveWith d.plain text) (solveFloatWith d.plain text)) ∧
    Projects (evaluatePlain text) (solve text) (solveFloat text) := by
  constructor
  · intro d
    exact projects_of_outcome (outcome_of_numbers (some d) (.inl rfl) text)
  · exact projects_of_outcome (outcome_of_numbers none (.inl rfl) text)

/-- A power that has a value and, asked for as a float, a failure that is no error of the
    expression. -/
theorem solveFloat_huge_power : evaluatePlain "10 ^ 400" = .ok (.int (10 ^ 400)) ∧
    solveFloat "10 ^ 400" = .error (.fault .integerTooLarge) ∧
    solveFloatWith (Definitions.plain .empty) "10 ^ 400" = .error (.fault .integerTooLarge) :=
  ⟨by decide +kernel, by decide +kernel, by decide +kernel⟩

end Reckon
