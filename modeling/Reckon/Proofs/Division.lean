/-
  Division by zero.

  A remainder looks at its divisor before anything else, and so does a quotient of
  integers.  Any other quotient widens both operands to floats first, and an integer
  dividend that no float is near to fails there, whatever the divisor.

  * `Operator.FindsZero`: the operation comes to its divisor, and that is zero;
  * `zeroDivisor_iff`: these are the operations that fail with a zero divisor;
  * `division_by_zero`: where evaluation comes to one of them, it fails with that.
-/
import Mathlib.Algebra.Group.Int.Defs
import Reckon.Proofs.Failures
import Reckon.Proofs.Zeros
import Reckon.Solve

namespace Reckon

/-- An operation comes to its divisor and finds that it is zero.  A quotient does not come to it
    where the dividend has to be widened to a float first and no float is near to it. -/
def Operator.FindsZero (o : Operator) (a b : Number) : Prop :=
  b.isZero = true ∧
    (o = .remainder ∨ o = .divide ∧ (b.isInteger = true ∨ ∃ x, a.toFloat = .ok x))

section
variable {a b : Number} {o : Operator} {f : Fault} {x : Float}

/-! ## Zero divisors -/

theorem toFloat_eq_error (h : a.toFloat = .error f) :
    a.isInteger = true ∧ f = .integerTooLarge := by
  unfold Number.toFloat at h
  split at h
  · dsimp only at h
    split at h
    · cases h
    · cases h
      exact ⟨rfl, rfl⟩
  · cases h

/-- A number is widened to a zero iff it is zero. -/
theorem isZero_of_toFloat (h : a.toFloat = .ok x) : (x == 0) = a.isZero := by
  unfold Number.toFloat at h
  split at h
  · rename_i n
    dsimp only at h
    split at h
    · cases h
      rw [Bool.eq_iff_iff, Binary64.ofInt_beq_zero]
      simp [Number.isZero]
    · cases h
  · cases h
    rfl

/-- Zero is widened. -/
theorem toFloat_of_isZero (h : a.isZero = true) : ∃ x, a.toFloat = .ok x := by
  cases a with
  | int n =>
    have hn : n = 0 := by simpa [Number.isZero] using h
    subst hn
    have hf : (Binary64.ofInt 0).isFinite = true := by decide +kernel
    refine ⟨Binary64.ofInt 0, ?_⟩
    unfold Number.toFloat
    simp only [hf, if_true]
  | float x => exact ⟨x, rfl⟩

theorem kind_of_floatRemainder {x y : Float} (h : Number.floatRemainder x y = .error f) :
    f.kind ≠ .zeroDivisor := by
  unfold Number.floatRemainder at h
  split at h
  · cases h
  split at h
  · cases h
  split at h
  · cases h
    decide
  split at h <;> cases h

theorem kind_of_quotient {m n : Int} (h : Number.quotient m n = .error f) :
    f.kind ≠ .zeroDivisor := by
  unfold Number.quotient at h
  dsimp only at h
  split at h
  · cases h
  · cases h
    decide

theorem remainder_of_isZero (h : b.isZero = true) :
    Number.remainder a b = .error .remainderByZero := by
  unfold Number.remainder
  rw [if_pos h]

/-- With another divisor a remainder may fail, but not for its divisor. -/
theorem kind_of_remainder (hb : b.isZero = false) (h : Number.remainder a b = .error f) :
    f.kind ≠ .zeroDivisor := by
  have hw : ∀ x y, (Number.floatRemainder x y >>= Number.ofFinite) = .error f →
      f.kind ≠ .zeroDivisor := fun x y => kind_of_result kind_of_floatRemainder
  unfold Number.remainder at h
  rw [hb, if_neg (by decide)] at h
  split at h
  · cases h
  · exact kind_of_widen hw h

/-- A quotient by zero of operands that are not both integers: the dividend is widened first. -/
theorem divide_of_isZero (hb : b.isZero = true) (hi : a.isInteger = false ∨ b.isInteger = false) :
    Number.divide a b = a.toFloat >>= fun _ => .error .floatByZero := by
  obtain ⟨y, hy⟩ := toFloat_of_isZero hb
  have hz : (y == 0) = true := by rw [isZero_of_toFloat hy, hb]
  have hd : ∀ x, (do
      let y ← b.toFloat
      if y == 0 then .error .floatByZero else Number.ofFinite (x / y)) =
        (.error .floatByZero : Except Fault Number) := by
    intro x
    rw [hy]
    exact if_pos hz
  unfold Number.divide
  split
  · rcases hi with hi | hi <;> cases hi
  · exact congrArg _ (funext hd)

/-- With another divisor a quotient may fail, but not for its divisor. -/
theorem kind_of_divide (hb : b.isZero = false) (h : Number.divide a b = .error f) :
    f.kind ≠ .zeroDivisor := by
  unfold Number.divide at h
  split at h
  · rename_i m n
    have hn : n ≠ 0 := by simpa [Number.isZero] using hb
    rw [if_neg hn] at h
    split at h
    · cases h
    · exact kind_of_result kind_of_quotient h
  · rcases Expr.bind_eq_error.1 h with ha | ⟨x, -, h⟩
    · exact kind_of_toFloat ha
    rcases Expr.bind_eq_error.1 h with hy | ⟨y, hy, h⟩
    · exact kind_of_toFloat hy
    rw [isZero_of_toFloat hy, hb, if_neg (by decide)] at h
    exact kind_of_ofFinite h

/-- A quotient by zero finds its divisor to be zero, or its dividend is too large. -/
theorem divide_isZero (hb : b.isZero = true) : ∃ f, Number.divide a b = .error f ∧
    ((b.isInteger = true ∨ ∃ x, a.toFloat = .ok x) ∧ f.kind = .zeroDivisor ∨
      (¬(b.isInteger = true ∨ ∃ x, a.toFloat = .ok x)) ∧ f = .integerTooLarge) := by
  by_cases hi : a.isInteger = true ∧ b.isInteger = true
  · cases a with
    | float x => cases hi.1
    | int m =>
      cases b with
      | float y => cases hi.2
      | int n =>
        have hn : n = 0 := by simpa [Number.isZero] using hb
        exact ⟨.integerByZero, by simp [Number.divide, hn], .inl ⟨.inl rfl, rfl⟩⟩
  · have hi : a.isInteger = false ∨ b.isInteger = false := by
      rw [not_and_or] at hi
      simpa using hi
    rw [divide_of_isZero hb hi]
    rcases ha : a.toFloat with f | x
    · obtain ⟨hm, rfl⟩ := toFloat_eq_error ha
      have hb' : b.isInteger = false := by
        rcases hi with hi | hi
        · rw [hm] at hi
          cases hi
        · exact hi
      exact ⟨.integerTooLarge, rfl, .inr ⟨by simp [hb'], rfl⟩⟩
    · exact ⟨.floatByZero, rfl, .inl ⟨.inr ⟨x, rfl⟩, rfl⟩⟩

/-- **The operations that fail with a zero divisor**: remainders by zero, and quotients by zero that
    come to their divisor. -/
theorem zeroDivisor_iff : (∃ f, o.apply a b = .error f ∧ f.kind = .zeroDivisor) ↔
    o.FindsZero a b := by
  constructor
  · rintro ⟨f, hf, hk⟩
    rcases operator_of_zeroDivisor hf hk with rfl | rfl
    · cases hb : b.isZero with
      | false => exact absurd hk (kind_of_divide hb hf)
      | true =>
        obtain ⟨f', hf', ⟨hm, -⟩ | ⟨-, rfl⟩⟩ := divide_isZero (a := a) hb
        · exact ⟨hb, .inr ⟨rfl, hm⟩⟩
        · have he : Number.divide a b = .error f := hf
          rw [hf'] at he
          cases he
          cases hk
    · cases hb : b.isZero with
      | false => exact absurd hk (kind_of_remainder hb hf)
      | true => exact ⟨hb, .inl rfl⟩
  · rintro ⟨hb, rfl | ⟨rfl, hm⟩⟩
    · exact ⟨_, remainder_of_isZero hb, rfl⟩
    · obtain ⟨f, hf, ⟨-, hk⟩ | ⟨hn, -⟩⟩ := divide_isZero (a := a) hb
      · exact ⟨f, hf, hk⟩
      · exact absurd hm hn

end

/-! ## Nodes that divide -/

theorem ofGlyph?_glyph (o : Operator) : Operator.ofGlyph? o.glyph = some o := by
  cases o <;> rfl

/-- The error of an operator that finds its divisor to be zero. -/
theorem applyOperator_zero_iff {o : Operator} {p : Int} {a b : Number} :
    applyOperator o.glyph p a b = .error (.error (.divisionByZero o.glyph (some p))) ↔
      o.FindsZero a b := by
  rw [← zeroDivisor_iff, applyOperator, ofGlyph?_glyph]
  dsimp only
  rw [Expr.mapError_eq_error]
  refine exists_congr fun f => and_congr_right fun _ => ?_
  cases hk : f.kind <;> simp [operatorError, hk]

namespace Expr

/-- **A division by zero is reported as such**, at its operator: a remainder always, a quotient
    unless its dividend has to be widened and is too large, which is the failure then.  No other
    operation fails like that.  Where evaluation comes to such a node, it ends with the error. -/
theorem division_by_zero (a b : Number) :
    (∀ o : Operator, (∃ f, o.apply a b = .error f ∧ f.kind = .zeroDivisor) ↔ o.FindsZero a b) ∧
    (b.isZero = true → ¬ Operator.divide.FindsZero a b →
      Number.divide a b = .error .integerTooLarge) ∧
    ∀ (s : Scope) (t l r : Expr) (o : Operator) (p : Int), Reaches s t (.binary o.glyph l r p) →
      l.answer s = .ok a → r.answer s = .ok b →
      ((Expr.binary o.glyph l r p).answer s =
          .error (.error (.divisionByZero o.glyph (some p))) ↔ o.FindsZero a b) ∧
        (o.FindsZero a b → t.answer s = .error (.error (.divisionByZero o.glyph (some p)))) := by
  refine ⟨fun o => zeroDivisor_iff, fun hb hn => ?_, fun s t l r o p ht hl hr => ?_⟩
  · obtain ⟨f, hf, ⟨hm, -⟩ | ⟨-, rfl⟩⟩ := divide_isZero (a := a) hb
    · exact absurd ⟨hb, .inr ⟨rfl, hm⟩⟩ hn
    · exact hf
  · have hnode : (Expr.binary o.glyph l r p).answer s =
        .error (.error (.divisionByZero o.glyph (some p))) ↔ o.FindsZero a b := by
      rw [answer_binary, hl, hr, ← applyOperator_zero_iff]
      rfl
    exact ⟨hnode, fun hz => ht.fails (hnode.2 hz)⟩

/-- The remainder by zero in the second argument of a function. -/
theorem division_by_zero_in_argument :
    let s := Scope.of none (some Functions.standard)
    let u : Expr := .binary "%" (.literal (.int 3) 7) (.literal (.int 0) 11) 9
    let t : Expr := .call "log" [.literal (.int 2) 4, u] 0
    Reaches s t u ∧ Operator.remainder.FindsZero (.int 3) (.int 0) ∧
      t.answer s = .error (.error (.divisionByZero "%" (some 9))) := by
  intro s u t
  have ht : Reaches s t u :=
    @Reaches.argument s "log" [.literal (.int 2) 4] [] u u 0 _ _ rfl rfl .self
  have hz : Operator.remainder.FindsZero (.int 3) (.int 0) := ⟨rfl, .inl rfl⟩
  exact ⟨ht, hz, ((division_by_zero (.int 3) (.int 0)).2.2 s t _ _ .remainder 9 ht
    answer_literal answer_literal).2 hz⟩

/-- A quotient by zero whose dividend is too large is not reported as such. -/
theorem divide_huge_by_zero :
    (Number.float 0).isZero = true ∧
      Number.divide (.int (10 ^ 400)) (.float 0) = .error .integerTooLarge ∧
      Fault.integerTooLarge.kind = .overflow ∧
      outcome Scope.empty "10 ^ 400 / 0.0" =
        .error (.error (.domainError "/" Fault.integerTooLarge.message)) := by
  exact ⟨by decide +kernel, by decide +kernel, rfl, by decide +kernel⟩

end Expr

end Reckon
