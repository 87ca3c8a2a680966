/-
  Failures of callers' functions.

  Operators and standard functions put their own faults into words, but not what their operands
  and arguments fail with.  A failure of a caller's function therefore comes out of an expression
  as it is, whatever the expression does with the call.

  * `Raises`: a caller's function fails; `Faults`: an operator or a standard function has no answer;
  * `Origin.faults_or_raises`: what the errors of arithmetic come out of;
  * `callers_failure`: what a text with such a call comes to.
-/
import Reckon.Proofs.Telling

namespace Reckon

/-- The errors of arithmetic: a division by zero, and a value outside of a domain. -/
def Error.IsArithmetic (e : Error) : Prop :=
  (∃ op p, e = .divisionByZero op p) ∨ ∃ name reason, e = .domainError name reason

namespace Expr

variable {s : Scope} {u : Expr} {f : Failure}

/-! ## Callers' functions, operators and standard functions -/

/-- A call of a function of a caller's, at which the function fails. -/
inductive Raises (s : Scope) (f : Failure) : Expr → Prop
  | call {name : String} {args : List Expr} {p : Int} {g : List Number → Except Failure PlainValue}
      {values : List Number} : s.callable name = .ok (.given g) →
      args.mapM (·.answer s) = .ok values → g values = .error f → Raises s f (call name args p)

/-- An operation or a call of a standard function that has no answer, and the error that says so. -/
inductive Faults (s : Scope) (e : Error) : Expr → Prop
  | operation {o : Operator} {l r : Expr} {p : Int} {a b : Number} {k : Fault} :
      l.answer s = .ok a → r.answer s = .ok b → o.apply a b = .error k →
      e = operatorError o.glyph p k → Faults s e (binary o.glyph l r p)
  | call {name : String} {args : List Expr} {p : Int} {g : StandardFunction}
      {values : List Number} : s.callable name = .ok (.standard g) →
      args.mapM (·.answer s) = .ok values → g.run values = .error e → Faults s e (call name args p)

/-- A caller's function that fails is where the failure comes out of. -/
theorem Raises.origin (h : Raises s f u) : Origin s f u := by
  obtain ⟨hg, hv, hf⟩ := h
  refine .run hg hv ?_
  rw [Callable.run, hf]
  rfl

/-- The error of an operation is that of an operator. -/
theorem faults_of_applyOperator {op : String} {l r : Expr} {p : Int} {a b : Number} {e : Error}
    (hl : l.answer s = .ok a) (hr : r.answer s = .ok b)
    (h : applyOperator op p a b = .error (.error e)) : Faults s e (binary op l r p) := by
  rcases applyOperator_eq_error_iff.1 h with ⟨-, ⟨⟩⟩ | ⟨o, k, ho, hk, ⟨⟩⟩
  obtain rfl := glyph_of_ofGlyph? ho
  exact .operation hl hr hk rfl

/-- **What the errors of arithmetic come out of**: an operator, a standard function, or a function
    of a caller's that gave the error itself. -/
theorem Origin.faults_or_raises {e : Error} (h : Origin s (.error e) u) (he : e.IsArithmetic) :
    Faults s e u ∨ Raises s (.error e) u := by
  cases h with
  | value h =>
    rcases value_eq_error.1 h with ⟨-, ⟨⟩⟩ | ⟨v, -, -, ⟨⟩⟩
    simp [Error.IsArithmetic] at he
  | sign hop hf => cases hf
  | operation hl hr h => exact .inl (faults_of_applyOperator hl hr h)
  | callee h =>
    obtain ⟨-, ⟨⟩⟩ := callable_eq_error.1 h
    simp [Error.IsArithmetic] at he
  | run hg hv h =>
    -- an answer that is no number is rejected, which is no error of the expression
    rcases run_eq_error.1 h with ⟨k, e', rfl, hk, ⟨⟩⟩ | ⟨k, rfl, hk | ⟨v, -, -, ⟨⟩⟩⟩
    · exact .inl (.call hg hv hk)
    · exact .inr (.call hg hv hk)

end Expr

/-! ## Texts -/

variable {s : Scope} {text : String} {t : Expr} {f : Failure} {e : Error}

theorem Error.IsArithmetic.family (h : e.IsArithmetic) : e.family = .evaluation := by
  rcases h with ⟨op, p, rfl⟩ | ⟨name, reason, rfl⟩ <;> rfl

/-- **The failure of a caller's function comes out as it is**, if evaluation comes to the call and
    the function fails there.  So it does with a report, unless that is to tell of the tree first
    and there is no room for it.  The errors of arithmetic come out of operators and standard
    functions, or of functions of a caller's that give them themselves.  For a text that cannot be
    scanned or parsed no function runs. -/
theorem callers_failure (s : Scope) (text : String) :
    (∀ t u f, Expr.parseText text = .ok t → Expr.Reaches s t u → Expr.Raises s f u →
      outcome s text = .error f ∧ ∀ (r : Report) (host : Host), r.lacksRoom host text = false →
        (r.evaluate s text host).outcome = .error f) ∧
    (∀ e, outcome s text = .error (.error e) → e.IsArithmetic →
      ∃ t u, Expr.parseText text = .ok t ∧ Expr.Reaches s t u ∧
        (Expr.Faults s e u ∨ Expr.Raises s (.error e) u)) ∧
    ∀ e, (Token.scan text = .error e ∨ ∃ ts, Token.scan text = .ok ts ∧ Expr.parse ts = .error e) →
      (evaluateText s text).outcome = (.error (.error e), #[]) ∧
        ∀ (r : Report) (host : Host), (r.evaluate s text host).runs = #[] := by
  refine ⟨fun t u f ht hu hf => ?_, fun e h he => ?_, fun e h => ?_⟩
  · have ho : outcome s text = .error f := by
      rw [outcome_of_parseText ht]
      exact hu.fails hf.origin.fails
    exact ⟨ho, fun r host hr => Report.outcome_of_error hr ho⟩
  · rcases hp : Expr.parseText text with e' | t
    · -- what the text is refused with is no error of arithmetic
      have hr : outcome s text = .error (.error e') := by
        rw [outcome_eq, hp]
        rfl
      rw [hr] at h
      cases h
      have := parseText_family hp
      rw [he.family] at this
      cases this
    · rw [outcome_of_parseText hp] at h
      obtain ⟨u, hu, ho⟩ := Expr.answer_eq_error_iff.1 h
      exact ⟨t, u, rfl, hu, ho.faults_or_raises he⟩
  · have hp := parseText_eq_error.2 h
    refine ⟨Report.evaluateText_of_error hp, fun r host => ?_⟩
    rw [(r.hears_evaluate s text host).runs, Report.heard_of_error hp]

/-- A caller's function that divides by zero, in an argument of a logarithm, after another division
    by zero, and in a text that is no expression. -/
theorem callers_failure_in_argument :
    let f : Failure := .fault .integerByZero
    let s := Scope.of none (some (Functions.standard.insert "f" (.given fun _ => .error f)))
    let u : Expr := .call "f" [] 12
    let t : Expr := .binary "*" (.literal (.int 2) 0)
      (.unary "-" (.call "log" [.literal (.int 3) 9, u] 5) 4) 2
    let e : Error := .divisionByZero "/" (some 2)
    (Expr.parseText "2 * -log(3, f())" = .ok t ∧ Expr.Reaches s t u ∧ Expr.Raises s f u ∧
      outcome s "2 * -log(3, f())" = .error f ∧
      (Report.new true).lacksRoom .usual "2 * -log(3, f())" = false ∧
      ((Report.new true).evaluate s "2 * -log(3, f())" .usual).outcome = .error f) ∧
    (outcome s "1 / 0 + f()" = .error (.error e) ∧ e.IsArithmetic ∧
      ∃ t u, Expr.parseText "1 / 0 + f()" = .ok t ∧ Expr.Reaches s t u ∧
        (Expr.Faults s e u ∨ Expr.Raises s (.error e) u)) ∧
    (Token.scan "f() ?" = .error (.unexpectedCharacter "?" 4) ∧
      (evaluateText s "f() ?").outcome = (.error (.error (.unexpectedCharacter "?" 4)), #[])) := by
  intro f s u t e
  have hs : Token.scan "2 * -log(3, f())" = .ok [⟨"2", 0, .number (.int 2)⟩,
      ⟨"*", 2, .operator "*"⟩, ⟨"-", 4, .operator "-"⟩, ⟨"log", 5, .name "log"⟩, ⟨"(", 8, .opening⟩,
      ⟨"3", 9, .number (.int 3)⟩, ⟨",", 10, .comma⟩, ⟨"f", 12, .name "f"⟩, ⟨"(", 13, .opening⟩,
      ⟨")", 14, .closing⟩, ⟨")", 15, .closing⟩] := by decide +kernel
  have ht : Expr.parseText "2 * -log(3, f())" = .ok t :=
    Expr.parseText_eq_ok.2 ⟨_, hs, by cbv⟩
  have hu : Expr.Reaches s t u := .right Expr.answer_literal (.operand
    (@Expr.Reaches.argument s "log" [.literal (.int 3) 9] [] u u 5 _ _ rfl rfl .self))
  have hf : Expr.Raises s f u := .call rfl rfl rfl
  have he : outcome s "1 / 0 + f()" = .error (.error e) := by decide +kernel
  have ha : e.IsArithmetic := .inl ⟨_, _, rfl⟩
  have hq : Token.scan "f() ?" = .error (.unexpectedCharacter "?" 4) := by decide +kernel
  have hroom : (Report.new true).lacksRoom .usual "2 * -log(3, f())" = false := by
    rw [Report.lacksRoom_of_ok ht]
    decide +kernel
  refine ⟨⟨ht, hu, hf, ?_, hroom, ?_⟩, ⟨he, ha, ?_⟩, hq, ?_⟩
  · exact ((callers_failure s "2 * -log(3, f())").1 t u f ht hu hf).1
  · exact ((callers_failure s "2 * -log(3, f())").1 t u f ht hu hf).2 _ _ hroom
  · exact (callers_failure s "1 / 0 + f()").2.1 e he ha
  · exact ((callers_failure s "f() ?").2.2 _ (.inl hq)).1

end Reckon
