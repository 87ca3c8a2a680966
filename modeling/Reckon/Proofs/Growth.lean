/-
  How large integers grow.

  Only a power looks at the size of its result.  The other operators add at most the binary digits
  of their operands, and so an integer answer has no more than `bitLimit` of them for each number
  that the expression writes.  A power estimates its size, from above and by less than a factor of
  two: what it refuses is longer than half of the ceiling.

  * `bitLength_add_le`, `bitLength_mul_le`, `bitLength_pow_le`: the binary digits of sums, products
    and powers; `lt_bitLength_pow`: those of a power from below;
  * `power_ceiling`: the integer powers that are computed and those that are refused;
  * `Operator.bitLength_apply_le`: of the answer of an operator;
  * `Expr.numerals`: the numbers written in an expression; `Derives.numerals_eq`: these are the
    number tokens of its phrase;
  * `bitLength_answer_le`: the integers that the evaluation of a text comes to.
-/
import Reckon.Proofs.Exactness
import Reckon.Proofs.Writing

namespace Reckon

namespace Number

variable {m n k : Nat} {i j v : Int} {a b : Number}

/-! ## Binary digits -/

/-- So many binary digits are enough iff the number is below that power of two. -/
theorem bitLength_le_iff : bitLength n ≤ k ↔ n < 2 ^ k := by
  unfold bitLength
  split
  · rename_i h
    simp [h]
  · rename_i h
    rw [← Nat.log2_lt h, Nat.succ_le_iff]

theorem lt_two_pow_bitLength (n : Nat) : n < 2 ^ bitLength n := bitLength_le_iff.1 le_rfl

theorem bitLength_mono (h : m ≤ n) : bitLength m ≤ bitLength n :=
  bitLength_le_iff.2 (Nat.lt_of_le_of_lt h (lt_two_pow_bitLength n))

theorem bitLength_add_le (m n : Nat) :
    bitLength (m + n) ≤ max (bitLength m) (bitLength n) + 1 := by
  have hm : m < 2 ^ max (bitLength m) (bitLength n) := bitLength_le_iff.1 (le_max_left _ _)
  have hn : n < 2 ^ max (bitLength m) (bitLength n) := bitLength_le_iff.1 (le_max_right _ _)
  rw [bitLength_le_iff, Nat.pow_succ]
  omega

theorem bitLength_mul_le (m n : Nat) : bitLength (m * n) ≤ bitLength m + bitLength n := by
  rw [bitLength_le_iff, Nat.pow_add]
  exact Nat.mul_lt_mul'' (lt_two_pow_bitLength m) (lt_two_pow_bitLength n)

/-- A power without factors is one, which has one binary digit. -/
theorem bitLength_pow_le (m k : Nat) : bitLength (m ^ k) ≤ max 1 (k * bitLength m) := by
  rcases Nat.eq_zero_or_pos k with rfl | hk
  · rw [Nat.pow_zero]
    exact le_max_left _ _
  · refine le_trans ?_ (le_max_right _ _)
    rw [bitLength_le_iff, Nat.mul_comm, Nat.pow_mul]
    exact Nat.pow_lt_pow_left (lt_two_pow_bitLength m) (by omega)

theorem bitLength_pos (hm : 0 < m) : 0 < bitLength m := by
  by_contra h
  have := bitLength_le_iff.1 (Nat.le_of_not_lt h)
  omega

/-- The first binary digit of a number is not zero. -/
theorem two_pow_le (hm : 0 < m) : 2 ^ (bitLength m - 1) ≤ m := by
  by_contra h
  have hle := bitLength_le_iff.2 (Nat.lt_of_not_le h)
  have := bitLength_pos hm
  omega

/-- Each factor of a power adds as many binary digits as the base has after its first. -/
theorem lt_bitLength_pow (hm : 0 < m) (k : Nat) : (bitLength m - 1) * k < bitLength (m ^ k) := by
  by_contra h
  have hlt := bitLength_le_iff.1 (Nat.le_of_not_lt h)
  rw [Nat.pow_mul] at hlt
  exact absurd hlt (Nat.not_lt.2 (Nat.pow_le_pow_left (two_pow_le hm) k))

/-! ## Powers -/

/-- An integer power is computed unless it exceeds the ceiling. -/
theorem power_int (i : Int) (hj : 0 ≤ j) : power (int i) (int j) =
    if exceedsCeiling i j.toNat then .error .powerTooLarge else .ok (int (i ^ j.toNat)) := by
  unfold power
  dsimp only
  rw [if_neg (Int.not_lt.2 hj), integerPower_eq]
  rfl

/-- The answer of an integer power is at most as long as the ceiling. -/
theorem bitLength_power_le (hc : exceedsCeiling i k = false) :
    bitLength (i ^ k).natAbs ≤ bitLimit := by
  have hone : 1 ≤ bitLimit := by decide
  rw [Int.natAbs_pow]
  by_cases hi : i.natAbs ≤ 1
  · have hp : i.natAbs ^ k ≤ 1 := by
      simpa using Nat.pow_le_pow_left hi k
    exact le_trans (bitLength_mono hp) hone
  · have hk : k * bitLength i.natAbs ≤ bitLimit := by
      simpa [exceedsCeiling, Nat.lt_of_not_le hi] using hc
    exact le_trans (bitLength_pow_le _ _) (max_le hone hk)

/-- A power that is an integer has not exceeded the ceiling. -/
theorem ceiling_of_power (hj : 0 ≤ j) (h : power (int i) (int j) = .ok (int v)) :
    exceedsCeiling i j.toNat = false := by
  rw [power_int i hj] at h
  split at h
  · cases h
  · rename_i hc
    exact Bool.eq_false_iff.2 hc

/-- What exceeds the ceiling is longer than half of it: a base with two binary digits or more has
    at least half of them after its first. -/
theorem lt_bitLength_of_exceedsCeiling (hc : exceedsCeiling i k = true) :
    1 < i.natAbs ∧ bitLimit / 2 + 1 < bitLength (i ^ k).natAbs := by
  simp only [exceedsCeiling, Bool.and_eq_true, decide_eq_true_eq] at hc
  obtain ⟨hi, hk⟩ := hc
  have hbits : ¬ bitLength i.natAbs ≤ 1 := by
    rw [bitLength_le_iff]
    omega
  have hestimate : k * bitLength i.natAbs ≤ 2 * ((bitLength i.natAbs - 1) * k) := by
    calc k * bitLength i.natAbs
      _ ≤ k * (2 * (bitLength i.natAbs - 1)) := Nat.mul_le_mul_left k (by omega)
      _ = 2 * ((bitLength i.natAbs - 1) * k) := by ring
  have hpow := lt_bitLength_pow (m := i.natAbs) (by omega) k
  rw [Int.natAbs_pow]
  exact ⟨hi, by omega⟩

/-- **The ceiling on powers is neither leaky nor overzealous.**  A power of integers is exact and no
    longer than the ceiling, or it is refused and longer than half of the ceiling.  So no shorter
    power is refused, and none of a base that does not grow. -/
theorem power_ceiling (i : Int) {j : Int} (hj : 0 ≤ j) :
    (power (int i) (int j) = .ok (int (i ^ j.toNat)) ∧ bitLength (i ^ j.toNat).natAbs ≤ bitLimit ∨
      power (int i) (int j) = .error .powerTooLarge ∧ Fault.powerTooLarge.kind = .overflow ∧
        1 < i.natAbs ∧ bitLimit / 2 + 1 < bitLength (i ^ j.toNat).natAbs) ∧
    (bitLength (i ^ j.toNat).natAbs ≤ bitLimit / 2 + 1 ∨ i.natAbs ≤ 1 →
      power (int i) (int j) = .ok (int (i ^ j.toNat))) := by
  rw [power_int i hj]
  cases hc : exceedsCeiling i j.toNat with
  | true =>
    obtain ⟨hi, hlong⟩ := lt_bitLength_of_exceedsCeiling hc
    refine ⟨.inr ⟨rfl, rfl, hi, hlong⟩, ?_⟩
    rintro (hshort | hone)
    · exact absurd hlong (Nat.not_lt.2 hshort)
    · exact absurd hi (Nat.not_lt.2 hone)
  | false => exact ⟨.inl ⟨rfl, bitLength_power_le hc⟩, fun _ => rfl⟩

/-- The first power of minus two that is refused, and a power of minus one that is not. -/
theorem power_ceiling_two :
    (0 : Int) ≤ 50001 ∧ power (int (-2)) (int 50001) = .error .powerTooLarge ∧
      bitLimit / 2 + 1 < bitLength ((-2) ^ (50001 : Int).toNat : Int).natAbs ∧
    (0 : Int) ≤ 1000000000001 ∧ (-1 : Int).natAbs ≤ 1 ∧
      power (int (-1)) (int 1000000000001) = .ok (int ((-1) ^ (1000000000001 : Int).toNat)) := by
  have hj : (0 : Int) ≤ 50001 := by decide
  have hr : power (int (-2)) (int 50001) = .error .powerTooLarge := rfl
  have hone : (0 : Int) ≤ 1000000000001 := by decide
  refine ⟨hj, hr, ?_, hone, le_rfl, (power_ceiling (-1) hone).2 (.inr le_rfl)⟩
  rcases (power_ceiling (-2) hj).1 with ⟨ho, -⟩ | ⟨-, -, -, hlong⟩
  · rw [hr] at ho
    cases ho
  · exact hlong

end Number

open Number (bitLength bitLimit)

/-- **The answer of an operator** has at most the binary digits of both operands, at least one
    for each, or is an integer power. -/
theorem Operator.bitLength_apply_le {o : Operator} {a b : Number} {v : Int}
    (h : o.apply a b = .ok (.int v)) : ∃ i j : Int, a = .int i ∧ b = .int j ∧
      bitLength v.natAbs ≤
        max bitLimit (max 1 (bitLength i.natAbs) + max 1 (bitLength j.natAbs)) := by
  cases o with
  | add =>
    obtain ⟨i, j, rfl, rfl, rfl⟩ := Number.combine_eq_int h
    refine ⟨i, j, rfl, rfl, ?_⟩
    have hs := Number.bitLength_mono (Int.natAbs_add_le i j)
    have ha := Number.bitLength_add_le i.natAbs j.natAbs
    omega
  | subtract =>
    obtain ⟨i, j, rfl, rfl, rfl⟩ := Number.combine_eq_int h
    refine ⟨i, j, rfl, rfl, ?_⟩
    have hs := Number.bitLength_mono (Int.natAbs_sub_le i j)
    have ha := Number.bitLength_add_le i.natAbs j.natAbs
    omega
  | multiply =>
    obtain ⟨i, j, rfl, rfl, rfl⟩ := Number.combine_eq_int h
    refine ⟨i, j, rfl, rfl, ?_⟩
    have hm := Number.bitLength_mul_le i.natAbs j.natAbs
    rw [Int.natAbs_mul]
    omega
  | divide =>
    obtain ⟨i, j, rfl, rfl, hj, rfl⟩ := Number.divide_eq_int h
    refine ⟨_, j, rfl, rfl, ?_⟩
    have hle : v.natAbs ≤ (v * j).natAbs := by
      rw [Int.natAbs_mul]
      exact Nat.le_mul_of_pos_right _ (Int.natAbs_pos.2 hj)
    have hq := Number.bitLength_mono hle
    omega
  | remainder =>
    obtain ⟨i, j, rfl, rfl, -, rfl⟩ := Number.remainder_eq_int h
    refine ⟨i, j, rfl, rfl, ?_⟩
    have hle : (i.tmod j).natAbs ≤ i.natAbs := by
      rw [Int.natAbs_tmod]
      exact Nat.mod_le _ _
    have hr := Number.bitLength_mono hle
    omega
  | power =>
    obtain ⟨i, j, rfl, rfl, hj, rfl⟩ := Number.power_eq_int h
    refine ⟨i, j, rfl, rfl, le_trans ?_ (le_max_left _ _)⟩
    exact Number.bitLength_power_le (Number.ceiling_of_power hj h)

/-! ## Expressions -/

/-- The number of numbers among tokens. -/
def Token.numerals (ts : List Token) : Nat := ts.countP fun t => t.lexeme.sort = .number

namespace Expr

variable {e l r : Expr} {op : String} {p : Int} {n : Number} {v : Int}

/-- The number of numbers written in an expression. -/
def numerals (e : Expr) : Nat := e.inOrder.countP fun l => l.1.sort = .number

@[simp]
theorem numerals_literal : (literal n p).numerals = 1 := by
  simp [numerals, inOrder, Lexeme.sort]

@[simp]
theorem numerals_unary : (unary op e p).numerals = e.numerals := by
  simp [numerals, inOrder, Lexeme.sort]

@[simp]
theorem numerals_binary : (binary op l r p).numerals = l.numerals + r.numerals := by
  simp [numerals, inOrder, Lexeme.sort]

/-- The numbers of an expression are the number tokens of its phrase. -/
theorem Derives.numerals_eq {q : Phrase} {d : Nat} {ts : List Token} (h : Derives q d ts e) :
    e.numerals = Token.numerals ts := by
  have hnode : ∀ l : Lexeme, l.sort = .number ∧ l.isNode = true ↔ l.sort = .number := by
    intro l
    cases l <;> simp [Lexeme.sort, Lexeme.isNode]
  rw [numerals, h.inOrder_eq, nodeTokens, List.countP_map, List.countP_filter, Token.numerals]
  refine List.countP_congr fun t _ => ?_
  simpa using hnode t.lexeme

/-- An operation with an integer answer. -/
theorem bitLength_operation_le (h : (binary op l r p).answer .empty = .ok (.int v)) :
    ∃ i j : Int, l.answer .empty = .ok (.int i) ∧ r.answer .empty = .ok (.int j) ∧
      bitLength v.natAbs ≤
        max bitLimit (max 1 (bitLength i.natAbs) + max 1 (bitLength j.natAbs)) := by
  obtain ⟨a, b, ha, hb, h⟩ := answer_binary_eq_ok.1 h
  obtain ⟨o, -, hr⟩ := applyOperator_eq_ok.1 h
  obtain ⟨i, j, rfl, rfl, hv⟩ := Operator.bitLength_apply_le hr
  exact ⟨i, j, ha, hb, hv⟩

/-- **Integers grow with the numbers written**: in an expression without names that writes no
    integer beyond the ceiling, at most by the ceiling for each number. -/
theorem bitLength_le_numerals : ∀ {e : Expr} {v : Int},
    (∀ i q, literal (.int i) q ∈ e.subtrees → bitLength i.natAbs ≤ bitLimit) →
    e.answer .empty = .ok (.int v) →
    0 < e.numerals ∧ bitLength v.natAbs ≤ bitLimit * e.numerals
  | literal n p, v, hl, h => by
    have hn : n = .int v := by simpa using h
    subst hn
    simpa using hl v p (mem_subtrees_self _)
  | .var x p, v, _, h => by
    rw [answer_var] at h
    cases h
  | unary op e p, v, hl, h => by
    obtain ⟨rfl, m, hm, hv⟩ := answer_unary_eq_ok.1 h
    cases m with
    | float x => cases hv
    | int m =>
      cases hv
      have ih := bitLength_le_numerals (fun i q hq => hl i q (List.mem_cons_of_mem _ hq)) hm
      simpa using ih
  | binary op l r p, v, hl, h => by
    obtain ⟨i, j, hi, hj, hv⟩ := bitLength_operation_le h
    obtain ⟨hkl, hbl⟩ := bitLength_le_numerals (fun i q hq => hl i q (by simp [subtrees, hq])) hi
    obtain ⟨hkr, hbr⟩ := bitLength_le_numerals (fun i q hq => hl i q (by simp [subtrees, hq])) hj
    rw [numerals_binary, Nat.mul_add]
    have hone : 1 ≤ bitLimit := by decide
    have hl1 : bitLimit ≤ bitLimit * l.numerals := Nat.le_mul_of_pos_right _ hkl
    have hr1 : bitLimit ≤ bitLimit * r.numerals := Nat.le_mul_of_pos_right _ hkr
    omega
  | call f args p, v, _, h => by
    rw [answer_call] at h
    cases h

end Expr

/-! ## Texts -/

/-- An integer that can be written is far below the ceiling. -/
theorem bitLength_le_of_isWritable {k : Nat} (h : (Number.int k).isWritable = true) :
    bitLength k ≤ bitLimit := by
  have hten : ∀ d, 10 ^ d ≤ 2 ^ (4 * d) := by
    intro d
    rw [Nat.pow_mul]
    exact Nat.pow_le_pow_left (by decide) d
  have hd : 4 * Decimal.digitLimit ≤ bitLimit := by decide
  rw [Number.bitLength_le_iff]
  refine Nat.lt_of_lt_of_le (isWritable_natCast.1 h) ((hten _).trans ?_)
  exact Nat.pow_le_pow_right (by decide) hd

theorem bitLength_literal_le {text : String} {t : Expr} (h : Expr.parseText text = .ok t) :
    ∀ i q, Expr.literal (.int i) q ∈ t.subtrees → bitLength i.natAbs ≤ bitLimit := by
  intro i q hi
  obtain ⟨k, rfl, hk⟩ := Expr.natural_of_parseText h hi
  exact bitLength_le_of_isWritable hk

theorem numerals_of_parse {text : String} {ts : List Token} {t : Expr}
    (hs : Token.scan text = .ok ts) (ht : Expr.parse ts = .ok t) :
    t.numerals = Token.numerals ts :=
  (Expr.derives_of_parse (fun w hw => ((fits_of_scan hs).1 w hw).isSigned) ht).numerals_eq

/-- **Integers grow at most linearly with the text.**  An integer that a text without names comes
    to has at most `bitLimit` binary digits for each number token of the text, and an integer that
    a part of it comes to has at most so many for each number in that part. -/
theorem bitLength_answer_le (text : String) :
    (∀ n, evaluatePlain text = .ok (.int n) → ∃ ts, Token.scan text = .ok ts ∧
      bitLength n.natAbs ≤ bitLimit * Token.numerals ts) ∧
    ∀ ts t, Token.scan text = .ok ts → Expr.parse ts = .ok t →
      t.numerals = Token.numerals ts ∧ ∀ u ∈ t.subtrees, ∀ n, u.answer .empty = .ok (.int n) →
        bitLength n.natAbs ≤ bitLimit * u.numerals := by
  refine ⟨fun n h => ?_, fun ts t hs ht => ⟨numerals_of_parse hs ht, fun u hu n h => ?_⟩⟩
  · obtain ⟨t, hp, h⟩ := outcome_eq_ok.1 h
    obtain ⟨ts, hs, ht⟩ := Expr.parseText_eq_ok.1 hp
    refine ⟨ts, hs, ?_⟩
    rw [← numerals_of_parse hs ht]
    exact (Expr.bitLength_le_numerals (bitLength_literal_le hp) h).2
  · have hp : Expr.parseText text = .ok t := Expr.parseText_eq_ok.2 ⟨ts, hs, ht⟩
    refine (Expr.bitLength_le_numerals (fun i q hi => ?_) h).2
    exact bitLength_literal_le hp i q (Expr.subtrees_subset u hu hi)

/-- A multiple of a large power less one. -/
theorem bitLength_answer_le_power :
    let text := "(2 ^ 300 - 1) * 7"
    let ts : List Token := [⟨"(", 0, .opening⟩, ⟨"2", 1, .number (.int 2)⟩,
      ⟨"^", 3, .operator "^"⟩, ⟨"300", 5, .number (.int 300)⟩, ⟨"-", 9, .operator "-"⟩,
      ⟨"1", 11, .number (.int 1)⟩, ⟨")", 12, .closing⟩, ⟨"*", 14, .operator "*"⟩,
      ⟨"7", 16, .number (.int 7)⟩]
    let u : Expr := .binary "-" (.binary "^" (.literal (.int 2) 1) (.literal (.int 300) 5) 3)
      (.literal (.int 1) 11) 9
    let t : Expr := .binary "*" u (.literal (.int 7) 16) 14
    (evaluatePlain text = .ok (.int ((2 ^ 300 - 1) * 7)) ∧ ∃ ts, Token.scan text = .ok ts ∧
      bitLength ((2 ^ 300 - 1) * 7 : Int).natAbs ≤ bitLimit * Token.numerals ts) ∧
    Token.scan text = .ok ts ∧ Expr.parse ts = .ok t ∧ u ∈ t.subtrees ∧
      u.answer .empty = .ok (.int (2 ^ 300 - 1)) ∧
      bitLength (2 ^ 300 - 1 : Int).natAbs ≤ bitLimit * u.numerals := by
  intro text ts u t
  have ho : evaluatePlain text = .ok (.int ((2 ^ 300 - 1) * 7)) := by decide +kernel
  have hs : Token.scan text = .ok ts := by decide +kernel
  have ht : Expr.parse ts = .ok t := by cbv
  have hu : u ∈ t.subtrees := by simp [t, u, Expr.subtrees]
  have ha : u.answer .empty = .ok (.int (2 ^ 300 - 1)) := by decide +kernel
  exact ⟨⟨ho, (bitLength_answer_le text).1 _ ho⟩, hs, ht, hu, ha,
    ((bitLength_answer_le text).2 ts t hs ht).2 u hu _ ha⟩

end Reckon
