/-
  Spots do not matter to a tree.

  What a tree comes to depends on its nodes.  Its spots only show in the positions of errors.

  * `Expr.unspotted`, `Failure.unplaced`: trees without spots, failures without positions;
  * `Evaluation.forget`: a calculation with something forgotten of its failure;
  * `evaluate_unspotted`: a tree without spots comes to the same, positions aside.
-/
import Reckon.Proofs.Answers

namespace Reckon

/-! ## Positions -/

/-- An error apart from its position. -/
def Error.unplaced : Error → Error
  | unexpectedCharacter char _ => unexpectedCharacter char 0
  | malformedNumber lexeme _ => malformedNumber lexeme 0
  | unexpectedToken token _ => unexpectedToken token 0
  | unmatchedParen _ => unmatchedParen 0
  | unexpectedEnd _ => unexpectedEnd 0
  | divisionByZero op _ => divisionByZero op none
  | undefinedVariable name => undefinedVariable name
  | undefinedFunction name => undefinedFunction name
  | argCount name expected actual => argCount name expected actual
  | domainError name reason => domainError name reason
  | typeMismatch expected actual => typeMismatch expected actual

/-- A failure apart from its position. -/
def Failure.unplaced : Failure → Failure
  | error e => error e.unplaced
  | fault f => fault f
  | rejected r => rejected r
  | omitted o => omitted o
  | unknownOperator glyph => unknownOperator glyph
  | foreign kind message => foreign kind message

/-- The position of an operator only shows in the positions of errors. -/
theorem applyOperator_unplaced (op : String) (p p' : Int) (a b : Number) :
    (applyOperator op p a b).mapError Failure.unplaced =
      (applyOperator op p' a b).mapError Failure.unplaced := by
  unfold applyOperator
  split
  · rfl
  · rename_i o _
    rcases o.apply a b with f | n
    · have he : (operatorError op p f).unplaced = (operatorError op p' f).unplaced := by
        unfold operatorError
        cases f.kind <;> rfl
      exact congrArg (fun e => Except.error (Failure.error e)) he
    · rfl

theorem mapError_bind {ε ε' α β : Type} (g : ε → ε') (r : Except ε α) (k : α → Except ε β) :
    (r >>= k).mapError g = r.mapError g >>= fun a => (k a).mapError g := by
  cases r <;> rfl

/-! ## Calculations with failures changed -/

namespace Evaluation

variable {α β γ : Type}

/-- A calculation with its failure changed; the functions that it runs are the same. -/
def forget (g : Failure → Failure) (c : Evaluation α) : Evaluation α := c.adapt g

@[simp]
theorem forget_lift (g : Failure → Failure) (r : Except Failure α) :
    (lift r).forget g = lift (r.mapError g) := rfl

theorem run_forget (g : Failure → Failure) (c : Evaluation α) (log : Array Run) :
    (c.forget g).run.run log = ((c.run.run log).1.mapError g, (c.run.run log).2) := rfl

theorem forget_bind (g : Failure → Failure) (c : Evaluation α) (k : α → Evaluation β) :
    (c >>= k).forget g = c.forget g >>= fun a => (k a).forget g := by
  funext log
  show ((c >>= k).forget g).run.run log = (c.forget g >>= fun a => (k a).forget g).run.run log
  rw [run_forget, ExceptT.run_bind, StateT.run_bind, ExceptT.run_bind, StateT.run_bind, run_forget]
  rcases c.run.run log with ⟨_ | a, log'⟩ <;> rfl

theorem forget_map (g : Failure → Failure) (c : Evaluation α) (f : α → β) :
    (f <$> c).forget g = f <$> c.forget g := by
  rw [map_eq_pure_bind, map_eq_pure_bind, forget_bind]
  rfl

theorem outcome_forget (g : Failure → Failure) (c : Evaluation α) :
    (c.forget g).outcome = (c.outcome.1.mapError g, c.outcome.2) := rfl

theorem forget_forget (g g' : Failure → Failure) (c : Evaluation α) :
    (c.forget g).forget g' = c.forget fun f => g' (g f) := by
  funext log
  show ((c.forget g).forget g').run.run log = (c.forget fun f => g' (g f)).run.run log
  rw [run_forget, run_forget, run_forget]
  rcases c.run.run log with ⟨_ | a, log'⟩ <;> rfl

theorem lift_map_bind (f : α → β) (r : Except Failure α) (k : β → Evaluation γ) :
    lift (r.map f) >>= k = lift r >>= fun a => k (f a) := by
  cases r <;> rfl

end Evaluation

namespace Expr

variable {s : Scope}

/-! ## Trees without spots -/

mutual

/-- **What a tree comes to, and what it runs**, do not depend on its spots. -/
theorem denote_unspotted : ∀ e : Expr,
    (denote s e.unspotted).forget Failure.unplaced = (denote s e).forget Failure.unplaced
  | literal n p => by rw [unspotted, denote, denote]
  | .var x p => by rw [unspotted, denote, denote]
  | unary op e p => by
    rw [unspotted, denote, denote]
    by_cases h : op = "-"
    · simp [h, Evaluation.forget_map, denote_unspotted e]
    · simp [h]
  | binary op l r p => by
    simp only [unspotted, denote, Evaluation.forget_bind, denote_unspotted l, denote_unspotted r,
      Evaluation.forget_lift, applyOperator_unplaced op 0 p]
  | call f args p => by
    simp only [unspotted, denote, Evaluation.forget_bind, denoteAll_unspotted args]

theorem denoteAll_unspotted : ∀ es : List Expr,
    (denoteAll s (unspottedAll es)).forget Failure.unplaced =
      (denoteAll s es).forget Failure.unplaced
  | [] => rfl
  | e :: es => by
    simp only [unspottedAll, denoteAll, Evaluation.forget_bind, denote_unspotted e,
      denoteAll_unspotted es]

end

/-- A tree without spots is evaluated as it is with them, positions aside. -/
theorem evaluate_unspotted (e : Expr) :
    (e.unspotted.evaluate s).forget Failure.unplaced = (e.evaluate s).forget Failure.unplaced := by
  have h : ∀ e : Expr, e.evaluate s = e.denote s := by
    intro e
    rw [evaluate, evaluateWith_eq, resume_nil, bind_pure]
  rw [h, h, denote_unspotted]

/-- Trees that are the same, spots aside, come to the same, positions aside. -/
theorem answer_congr_unspotted {e e' : Expr} (h : e'.unspotted = e.unspotted) :
    (e'.answer s).mapError Failure.unplaced = (e.answer s).mapError Failure.unplaced := by
  have ha : ∀ e : Expr, (e.answer s).mapError Failure.unplaced =
      ((e.evaluate s).forget Failure.unplaced).answer := fun _ => rfl
  rw [ha, ha, ← evaluate_unspotted e', h, evaluate_unspotted]

end Expr

/-! ## Tokens without spots -/

/-- Tokens with the same lexemes in order. -/
def Expr.SameLexemes (ts us : List Token) : Prop := ts.map Token.lexeme = us.map Token.lexeme

end Reckon
