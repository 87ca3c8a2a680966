/-
  What an evaluation can fail with.

  * `Evaluation.FailsOnly P c`: every failure of the calculation `c` is of the sort
    `P`, whatever is on record before;
  * `Origin.cases_of_scope`: what a failure can come out of;
  * `evaluate_failsOnly`: the failures of an expression are those of its names, its
    operators and the functions it calls.
-/
import Reckon.Proofs.FirstFailure

namespace Reckon

/-- Every failure of a calculation is of a sort. -/
def Evaluation.FailsOnly {α : Type} (P : Failure → Prop) (c : Evaluation α) : Prop :=
  ∀ log f, (c.run.run log).1 = .error f → P f

/-- What a scope can fail with is of a sort: its names, and the functions in it. -/
structure Scope.FailsOnly (s : Scope) (P : Failure → Prop) : Prop where
  value : ∀ x f, s.value x = .error f → P f
  callable : ∀ x f, s.callable x = .error f → P f
  run : ∀ x g args f, s.callable x = .ok g → g.run args = .error f → P f

namespace Expr

/-! ## Trees -/

/-- What the operators of a tree can fail with is of a sort. -/
def OperatorsFailOnly (P : Failure → Prop) (nodes : List (Lexeme × Int)) : Prop :=
  ∀ op p, (.operator op, p) ∈ nodes → ∀ a b f, applyOperator op p a b = .error f → P f

variable {s : Scope} {P : Failure → Prop} {e t : Expr} {f : Failure}

/-- A failure comes out of a sign without a meaning or of an operation, or it is of the sort of the
    scope's failures. -/
theorem Origin.cases_of_scope (hs : s.FailsOnly P) (h : Origin s f t) :
    P f ∨ (∃ op u p, t = unary op u p ∧ op ≠ "-" ∧ f = .unknownOperator op) ∨
      ∃ op l r p a b, t = binary op l r p ∧ applyOperator op p a b = .error f := by
  cases h with
  | value h => exact .inl (hs.value _ _ h)
  | sign hop hf => exact .inr (.inl ⟨_, _, _, rfl, hop, hf⟩)
  | operation _ _ h => exact .inr (.inr ⟨_, _, _, _, _, _, rfl, h⟩)
  | callee h => exact .inl (hs.callable _ _ h)
  | run hg _ h => exact .inl (hs.run _ _ _ _ hg h)

mutual

/-- The nodes of a part are nodes of the whole. -/
theorem inOrder_subset : ∀ {e : Expr}, ∀ t ∈ e.subtrees, inOrder t ⊆ inOrder e
  | literal _ _ | .var _ _ => by simp [subtrees]
  | unary op e p => by
    rw [subtrees, List.forall_mem_cons]
    exact ⟨fun _ h => h, fun t ht => List.subset_cons_of_subset _ (inOrder_subset t ht)⟩
  | binary op l r p => by
    rw [subtrees, List.forall_mem_cons, List.forall_mem_append]
    refine ⟨fun _ h => h, fun t ht => ?_, fun t ht => ?_⟩
    · exact List.subset_append_of_subset_left _ (inOrder_subset t ht)
    · exact List.subset_append_of_subset_right _
        (List.subset_cons_of_subset _ (inOrder_subset t ht))
  | call f args p => by
    rw [subtrees, List.forall_mem_cons]
    exact ⟨fun _ h => h, fun t ht => List.subset_cons_of_subset _ (inOrderAll_subset t ht)⟩

theorem inOrderAll_subset : ∀ {es : List Expr}, ∀ t ∈ subtreesAll es, inOrder t ⊆ inOrderAll es
  | [] => by simp [subtreesAll]
  | e :: es => by
    rw [subtreesAll, List.forall_mem_append]
    refine ⟨fun t ht => ?_, fun t ht => ?_⟩
    · exact List.subset_append_of_subset_left _ (inOrder_subset t ht)
    · exact List.subset_append_of_subset_right _ (inOrderAll_subset t ht)

end

/-- **The failures of an evaluation** are those of names, operators and functions. -/
theorem evaluate_failsOnly (hs : s.FailsOnly P) (hu : ∀ g, P (.unknownOperator g)) {e : Expr}
    (ho : OperatorsFailOnly P (inOrder e)) : (e.evaluate s).FailsOnly P := by
  intro log f h
  rw [evaluate_steady] at h
  obtain ⟨t, ht, hf⟩ := exists_origin h
  rcases hf.cases_of_scope hs with h | ⟨op, u, p, rfl, -, rfl⟩ | ⟨op, l, r, p, a, b, rfl, h⟩
  · exact h
  · exact hu op
  · exact ho op p (inOrder_subset _ ht (by simp [inOrder])) a b f h

end Expr

/-! ## Zero divisors -/

section
variable {a b : Number} {f : Fault}

theorem kind_of_toFloat (h : a.toFloat = .error f) : f.kind ≠ .zeroDivisor := by
  unfold Number.toFloat at h
  split at h
  · dsimp only at h
    split at h
    · cases h
    · cases h
      decide
  · cases h

theorem kind_of_ofFinite {x : Float} (h : Number.ofFinite x = .error f) :
    f.kind ≠ .zeroDivisor := by
  unfold Number.ofFinite at h
  split at h
  · cases h
  · cases h
    decide

/-- A float that is made a result. -/
theorem kind_of_result {r : Except Fault Float} (hr : r = .error f → f.kind ≠ .zeroDivisor)
    (h : (r >>= Number.ofFinite) = .error f) : f.kind ≠ .zeroDivisor := by
  rcases Expr.bind_eq_error.1 h with h | ⟨x, -, h⟩
  · exact hr h
  · exact kind_of_ofFinite h

theorem kind_of_widen {k : Float → Float → Except Fault Number}
    (hk : ∀ x y, k x y = .error f → f.kind ≠ .zeroDivisor)
    (h : (do let x ← a.toFloat; let y ← b.toFloat; k x y) = .error f) : f.kind ≠ .zeroDivisor := by
  rcases ha : a.toFloat with f' | x
  · rw [ha] at h
    cases h
    exact kind_of_toFloat ha
  rcases hb : b.toFloat with f' | y
  · rw [ha, hb] at h
    cases h
    exact kind_of_toFloat hb
  · rw [ha, hb] at h
    exact hk x y h

theorem kind_of_combine {exact : Int → Int → Int} {inexact : Float → Float → Float}
    (h : Number.combine exact inexact a b = .error f) : f.kind ≠ .zeroDivisor := by
  unfold Number.combine at h
  split at h
  · cases h
  · exact kind_of_widen (fun x y => kind_of_ofFinite) h

theorem kind_of_floatPower {x y : Float} (h : Number.floatPower x y = .error f) :
    f.kind ≠ .zeroDivisor := by
  unfold Number.floatPower at h
  dsimp only at h
  split at h
  · cases h
  split at h
  · cases h
    decide
  split at h
  · split at h
    · cases h
      decide
    · cases h
      decide
  · cases h

theorem kind_of_power (h : Number.power a b = .error f) : f.kind ≠ .zeroDivisor := by
  have hw : ∀ x y, (Number.floatPower x y >>= Number.ofFinite) = .error f →
      f.kind ≠ .zeroDivisor := fun x y => kind_of_result kind_of_floatPower
  unfold Number.power at h
  dsimp only at h
  split at h
  · split at h
    · exact kind_of_widen hw h
    split at h
    · cases h
      decide
    · cases h
  · exact kind_of_widen hw h

/-- Only quotients and remainders have a zero divisor. -/
theorem operator_of_zeroDivisor {o : Operator} (h : o.apply a b = .error f)
    (hf : f.kind = .zeroDivisor) : o = .divide ∨ o = .remainder := by
  cases o with
  | divide => exact .inl rfl
  | remainder => exact .inr rfl
  | add | subtract | multiply => exact absurd hf (kind_of_combine h)
  | power => exact absurd hf (kind_of_power h)

/-- A fault of a binary operation is a zero divisor at a quotient or a remainder, or else has no
    position. -/
theorem applyOperator_eq_error {op : String} {p : Int} {e : Failure}
    (h : applyOperator op p a b = .error e) :
    e = .unknownOperator op ∨ (∃ reason, e = .error (.domainError op reason)) ∨
      (op = "/" ∨ op = "%") ∧ e = .error (.divisionByZero op (some p)) := by
  rcases applyOperator_eq_error_iff.1 h with ⟨-, rfl⟩ | ⟨o, f, ho, hr, rfl⟩
  · exact .inl rfl
  · have hg := glyph_of_ofGlyph? ho
    cases hk : f.kind with
    | zeroDivisor =>
      refine .inr (.inr ⟨?_, by simp only [operatorError, hk]⟩)
      rcases operator_of_zeroDivisor hr hk with rfl | rfl
      · exact .inl hg.symm
      · exact .inr hg.symm
    | overflow | domain => exact .inr (.inl ⟨f.message, by simp only [operatorError, hk]⟩)

end

end Reckon
