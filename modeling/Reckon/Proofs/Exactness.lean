/-
  Integers are exact.

  Rational arithmetic knows neither floats nor rounding.  Where an expression without
  calls comes to an integer, rational arithmetic comes to the same, and so it does at
  every part of the expression: no float takes part in an integer answer.

  * `Operator.rational?`, `Expr.exactValue`: operators and expressions over the rational
    numbers;
  * `Operator.int_of_apply`: an operator answers with an integer on integers only, and
    with the exact one;
  * `answer_int_exact`: integer answers of whole expressions.
-/
import Mathlib.Data.Rat.Floor
import Mathlib.Tactic.FieldSimp
import Mathlib.Tactic.Linarith
import Mathlib.Tactic.Positivity
import Reckon.Proofs.Answers

namespace Reckon

/-! ## Rational arithmetic -/

/-- The whole part of a rational number. -/
def wholePart (q : ℚ) : ℤ := if 0 ≤ q then ⌊q⌋ else ⌈q⌉

/-- What an operator computes on rational numbers, where it is defined.  A remainder belongs to the
    division that drops the fraction; an exponent is a whole number. -/
def Operator.rational? : Operator → ℚ → ℚ → Option ℚ
  | add, a, b => some (a + b)
  | subtract, a, b => some (a - b)
  | multiply, a, b => some (a * b)
  | divide, a, b => if b = 0 then none else some (a / b)
  | remainder, a, b => if b = 0 then none else some (a - b * wholePart (a / b))
  | power, a, b => if b.den = 1 ∧ (a = 0 → 0 ≤ b) then some (a ^ b.num) else none

/-- An integer as a rational number. -/
def Number.rational? : Number → Option ℚ
  | int n => some n
  | float _ => none

/-- The value of an expression in rational arithmetic.  Calls and floats have none. -/
def Expr.exactValue (s : Scope) : Expr → Option ℚ
  | literal n _ => n.rational?
  | .var x _ => (s.value x).toOption.bind Number.rational?
  | unary op e _ => if op = "-" then (exactValue s e).map (- ·) else none
  | binary op l r _ => do
    let o ← Operator.ofGlyph? op
    let a ← exactValue s l
    let b ← exactValue s r
    o.rational? a b
  | call .. => none

/-! ## Whole parts -/

theorem wholePart_neg (q : ℚ) : wholePart (-q) = -wholePart q := by
  unfold wholePart
  rcases lt_trichotomy q 0 with h | rfl | h
  · have hn : ¬ 0 ≤ q := not_le.2 h
    have hp : 0 ≤ -q := by linarith
    rw [if_pos hp, if_neg hn, Int.floor_neg]
  · simp
  · have hn : ¬ 0 ≤ -q := by linarith
    rw [if_neg hn, if_pos h.le, Int.ceil_neg]

/-- The whole part of a quotient of integers is the quotient of the division that rounds toward
    zero. -/
theorem wholePart_div (i j : ℤ) : wholePart ((i : ℚ) / j) = i.tdiv j := by
  have hn : ∀ m d : ℕ, wholePart ((m : ℚ) / d) = ((m / d : ℕ) : ℤ) := by
    intro m d
    have hq : (0 : ℚ) ≤ m / d := by positivity
    rw [wholePart, if_pos hq, Rat.floor_natCast_div_natCast, Int.natCast_div]
  obtain ⟨m, rfl | rfl⟩ := i.eq_nat_or_neg
  · obtain ⟨d, rfl | rfl⟩ := j.eq_nat_or_neg
    · simp [hn]
    · simp [hn, div_neg, wholePart_neg]
  · obtain ⟨d, rfl | rfl⟩ := j.eq_nat_or_neg
    · simp [hn, neg_div, wholePart_neg]
    · simp [hn, neg_div, div_neg]

/-! ## Operators -/

section
variable {o : Operator} {a b : Number} {i j n : Int}

theorem Number.ofFinite_ne_int {x : Float} : Number.ofFinite x ≠ .ok (.int n) := by
  unfold Number.ofFinite
  split
  · rintro ⟨⟩
  · rintro ⟨⟩

/-- Where numbers are widened to floats, no integer comes out. -/
theorem Number.widen_ne_int {k : Float → Float → Except Fault Number}
    (hk : ∀ x y, k x y ≠ .ok (.int n)) :
    (do let x ← a.toFloat; let y ← b.toFloat; k x y) ≠ .ok (.int n) := by
  intro h
  obtain ⟨x, -, h⟩ := Expr.bind_eq_ok.1 h
  obtain ⟨y, -, h⟩ := Expr.bind_eq_ok.1 h
  exact hk x y h

theorem Number.combine_eq_int {exact : Int → Int → Int} {inexact : Float → Float → Float}
    (h : Number.combine exact inexact a b = .ok (.int n)) :
    ∃ i j, a = .int i ∧ b = .int j ∧ exact i j = n := by
  unfold Number.combine at h
  split at h
  · rename_i i j
    cases h
    exact ⟨i, j, rfl, rfl, rfl⟩
  · exact absurd h (Number.widen_ne_int fun x y => Number.ofFinite_ne_int)

theorem Number.divide_eq_int (h : Number.divide a b = .ok (.int n)) :
    ∃ i j, a = .int i ∧ b = .int j ∧ j ≠ 0 ∧ i = n * j := by
  unfold Number.divide at h
  split at h
  · rename_i i j
    split at h
    · cases h
    rename_i hj
    split at h
    · rename_i hm
      cases h
      exact ⟨i, j, rfl, rfl, hj, (Int.fdiv_mul_cancel (Int.dvd_of_fmod_eq_zero hm)).symm⟩
    · obtain ⟨x, -, h⟩ := Expr.bind_eq_ok.1 h
      exact absurd h Number.ofFinite_ne_int
  · refine absurd h (Number.widen_ne_int fun x y => ?_)
    split
    · rintro ⟨⟩
    · exact Number.ofFinite_ne_int

theorem Number.remainder_eq_int (h : Number.remainder a b = .ok (.int n)) :
    ∃ i j, a = .int i ∧ b = .int j ∧ j ≠ 0 ∧ n = i.tmod j := by
  unfold Number.remainder at h
  split at h
  · cases h
  rename_i hz
  split at h
  · rename_i i j
    cases h
    exact ⟨i, j, rfl, rfl, by simpa [Number.isZero] using hz, Number.integerRemainder_eq i j⟩
  · refine absurd h (Number.widen_ne_int fun x y hf => ?_)
    obtain ⟨z, -, hf⟩ := Expr.bind_eq_ok.1 hf
    exact Number.ofFinite_ne_int hf

theorem Number.power_eq_int (h : Number.power a b = .ok (.int n)) :
    ∃ i j, a = .int i ∧ b = .int j ∧ 0 ≤ j ∧ n = i ^ j.toNat := by
  have hw : (do let x ← a.toFloat; let y ← b.toFloat; Number.ofFinite (← Number.floatPower x y)) ≠
      .ok (.int n) := by
    refine Number.widen_ne_int fun x y hf => ?_
    obtain ⟨z, -, hf⟩ := Expr.bind_eq_ok.1 hf
    exact Number.ofFinite_ne_int hf
  unfold Number.power at h
  dsimp only at h
  split at h
  · rename_i i j
    split at h
    · exact absurd h hw
    rename_i hj
    split at h
    · cases h
    · cases h
      exact ⟨i, j, rfl, rfl, Int.not_lt.1 hj, Number.integerPower_eq i j.toNat⟩
  · exact absurd h hw

/-- **An operator answers with an integer on integers only**, and with the exact one: a quotient
    where the division has no remainder, a power where the exponent is not negative. -/
theorem Operator.int_of_apply (h : o.apply a b = .ok (.int n)) :
    ∃ i j : Int, a = .int i ∧ b = .int j ∧ o.rational? i j = some (n : ℚ) ∧
      (o = .divide → j ≠ 0 ∧ j ∣ i) ∧ (o = .power → 0 ≤ j) := by
  cases o with
  | add | subtract | multiply =>
    obtain ⟨i, j, rfl, rfl, rfl⟩ := Number.combine_eq_int h
    exact ⟨i, j, rfl, rfl, by simp [Operator.rational?], by rintro ⟨⟩, by rintro ⟨⟩⟩
  | divide =>
    obtain ⟨i, j, rfl, rfl, hj, rfl⟩ := Number.divide_eq_int h
    refine ⟨n * j, j, rfl, rfl, ?_, fun _ => ⟨hj, Int.dvd_mul_left n j⟩, by rintro ⟨⟩⟩
    simp [Operator.rational?, hj]
  | remainder =>
    obtain ⟨i, j, rfl, rfl, hj, rfl⟩ := Number.remainder_eq_int h
    refine ⟨i, j, rfl, rfl, ?_, by rintro ⟨⟩, by rintro ⟨⟩⟩
    have ht : i.tmod j = i - j * i.tdiv j := Int.tmod_def i j
    simp [Operator.rational?, hj, wholePart_div, ht]
  | power =>
    obtain ⟨i, j, rfl, rfl, hj, rfl⟩ := Number.power_eq_int h
    refine ⟨i, j, rfl, rfl, ?_, by rintro ⟨⟩, fun _ => hj⟩
    obtain ⟨k, rfl⟩ := Int.eq_ofNat_of_zero_le hj
    simp [Operator.rational?]

end

namespace Expr

/-! ## Expressions -/

variable {s : Scope} {e : Expr} {n : Int}

/-- Nowhere in an expression there is a call. -/
def CallFree (e : Expr) : Prop := ∀ f args p, call f args p ∉ e.subtrees

/-- An expression comes to an integer, and in rational arithmetic to the same. -/
def Agrees (s : Scope) (t : Expr) : Prop :=
  ∃ m : Int, t.answer s = .ok (.int m) ∧ t.exactValue s = some (m : ℚ)

/-- An expression that comes to an integer without a float anywhere. -/
structure IsExact (s : Scope) (e : Expr) (n : Int) : Prop where
  literals : ∀ v p, literal v p ∈ e.subtrees → ∃ m, v = .int m
  definitions : ∀ x p, .var x p ∈ e.subtrees → ∃ m, s.value x = .ok (.int m)
  /-- Every division divides without a remainder. -/
  quotients : ∀ l r p, binary "/" l r p ∈ e.subtrees → ∃ i j : Int,
    l.answer s = .ok (.int i) ∧ r.answer s = .ok (.int j) ∧ j ≠ 0 ∧ j ∣ i
  exponents : ∀ l r p, binary "^" l r p ∈ e.subtrees → ∃ j : Int,
    r.answer s = .ok (.int j) ∧ 0 ≤ j
  parts : ∀ t ∈ e.subtrees, Agrees s t
  value : e.exactValue s = some (n : ℚ)

/-- A binary operation with an integer answer, with the operator known to be one. -/
theorem operation_of_answer {op : String} {l r : Expr} {p : Int}
    (h : (binary op l r p).answer s = .ok (.int n)) : ∃ o : Operator, ∃ i j : Int,
      Operator.ofGlyph? op = some o ∧ l.answer s = .ok (.int i) ∧ r.answer s = .ok (.int j) ∧
      o.rational? i j = some (n : ℚ) ∧ (o = .divide → j ≠ 0 ∧ j ∣ i) ∧ (o = .power → 0 ≤ j) := by
  obtain ⟨a, b, ha, hb, h⟩ := answer_binary_eq_ok.1 h
  obtain ⟨o, ho, hr⟩ := applyOperator_eq_ok.1 h
  obtain ⟨i, j, rfl, rfl, hv, hq, he⟩ := Operator.int_of_apply hr
  exact ⟨o, i, j, ho, ha, hb, hv, hq, he⟩

/-- **No float takes part in an integer answer**: every part comes to an integer as well, and
    rational arithmetic comes to the same everywhere. -/
theorem agrees_of_answer : ∀ {e : Expr} {n : Int}, e.CallFree → e.answer s = .ok (.int n) →
    e.exactValue s = some (n : ℚ) ∧ ∀ t ∈ e.subtrees, Agrees s t
  | literal v p, n, _, h => by
    have hv : v = .int n := by simpa using h
    have he : (literal v p).exactValue s = some (n : ℚ) := by rw [exactValue, hv]; rfl
    exact ⟨he, by simpa [subtrees] using ⟨n, h, he⟩⟩
  | .var x p, n, _, h => by
    have hv : s.value x = .ok (.int n) := by simpa using h
    have he : (Expr.var x p).exactValue s = some (n : ℚ) := by rw [exactValue, hv]; rfl
    exact ⟨he, by simpa [subtrees] using ⟨n, h, he⟩⟩
  | unary op e p, n, hc, h => by
    obtain ⟨rfl, m, hm, hn⟩ := answer_unary_eq_ok.1 h
    cases m with
    | float x => cases hn
    | int m =>
      cases hn
      have hce : e.CallFree := fun f args q hq => hc f args q (List.mem_cons_of_mem _ hq)
      obtain ⟨hv, ht⟩ := agrees_of_answer hce hm
      have he : (unary "-" e p).exactValue s = some ((-m : Int) : ℚ) := by
        simp [exactValue, hv]
      rw [subtrees, List.forall_mem_cons]
      exact ⟨he, ⟨_, h, he⟩, ht⟩
  | binary op l r p, n, hc, h => by
    obtain ⟨o, i, j, ho, hl, hr, hv, -, -⟩ := operation_of_answer h
    have hcl : l.CallFree := fun f args q hq => hc f args q (by simp [subtrees, hq])
    have hcr : r.CallFree := fun f args q hq => hc f args q (by simp [subtrees, hq])
    obtain ⟨hvl, htl⟩ := agrees_of_answer hcl hl
    obtain ⟨hvr, htr⟩ := agrees_of_answer hcr hr
    have he : (binary op l r p).exactValue s = some (n : ℚ) := by
      simp [exactValue, ho, hvl, hvr, hv]
    rw [subtrees, List.forall_mem_cons, List.forall_mem_append]
    exact ⟨he, ⟨_, h, he⟩, htl, htr⟩
  | call f args p, _, hc, _ => absurd (mem_subtrees_self _) (hc f args p)

/-- **Integer answers are exact.**  Where an expression without calls comes to an integer, every
    number and every variable in it is an integer, every division has no remainder, no exponent
    is negative, every part comes to an integer, and the answer is that of rational arithmetic. -/
theorem answer_int_exact (s : Scope) {e : Expr} {n : Int} (hc : e.CallFree)
    (h : e.answer s = .ok (.int n)) : IsExact s e n := by
  obtain ⟨hv, ht⟩ := agrees_of_answer hc h
  constructor
  case literals =>
    intro v p hm
    obtain ⟨m, hm, -⟩ := ht _ hm
    exact ⟨m, by simpa using hm⟩
  case definitions =>
    intro x p hm
    obtain ⟨m, hm, -⟩ := ht _ hm
    exact ⟨m, by simpa using hm⟩
  case quotients =>
    intro l r p hm
    obtain ⟨m, hm, -⟩ := ht _ hm
    obtain ⟨o, i, j, ho, hl, hr, -, hq, -⟩ := operation_of_answer hm
    cases ho
    exact ⟨i, j, hl, hr, hq rfl⟩
  case exponents =>
    intro l r p hm
    obtain ⟨m, hm, -⟩ := ht _ hm
    obtain ⟨o, i, j, ho, -, hr, -, -, he⟩ := operation_of_answer hm
    cases ho
    exact ⟨j, hr, he rfl⟩
  case parts => exact ht
  case value => exact hv

/-- The quotient of a negative product and a power of a variable. -/
theorem answer_int_exact_quotient :
    let s := Scope.of (some ⟨[("x", .number (.int 2))]⟩) none
    let product := binary "*" (unary "-" (literal (.int 7) 1) 0) (literal (.int 8) 5) 3
    let e := binary "/" product (binary "^" (.var "x" 9) (literal (.int 3) 13) 11) 7
    e.CallFree ∧ e.answer s = .ok (.int (-7)) ∧ IsExact s e (-7) := by
  intro s product e
  have hc : e.CallFree := by simp [CallFree, e, product, subtrees]
  have ha : e.answer s = .ok (.int (-7)) := by rfl
  exact ⟨hc, ha, answer_int_exact s hc ha⟩

end Expr

end Reckon
