/-
  Quotients and remainders of integers.

  A remainder leaves the part of its dividend that the divisor divides, and the quotient of that
  part is an integer: together they are the division that rounds toward zero.  A quotient is
  computed by the division that rounds down, but is an integer only where the two divisions agree:
  a dividend with a remainder has no integer as its quotient.

  * `TowardZero a b q r`: `q` and `r` are what `a` divided by `b` comes to, toward zero;
  * `remainder_int`, `divide_eq_int_iff`: the two operators on integers;
  * `quotient_with_remainder`: how they fit together.
-/
import Reckon.Proofs.Exactness

namespace Reckon.Number

/-- A quotient and a remainder make up the dividend, and the quotient is rounded toward zero. -/
structure TowardZero (a b q r : Int) : Prop where
  whole : q * b + r = a
  remainder_lt : r.natAbs < b.natAbs
  /-- The sign of a remainder is that of the dividend. -/
  sign : r = 0 ∨ r.sign = a.sign
  quotient_le : (q * b).natAbs ≤ a.natAbs

variable {a b n q : Int}

theorem towardZero_tdiv_tmod (a : Int) (hb : b ≠ 0) : TowardZero a b (a.tdiv b) (a.tmod b) := by
  constructor
  case whole => exact Int.tdiv_mul_add_tmod a b
  case remainder_lt =>
    rw [Int.natAbs_tmod]
    exact Nat.mod_lt _ (Int.natAbs_pos.2 hb)
  case sign =>
    by_cases h : b ∣ a
    · exact .inl (Int.tmod_eq_zero_of_dvd h)
    · rw [Int.sign_tmod, if_neg h]
      exact .inr rfl
  case quotient_le =>
    rw [Int.natAbs_mul, Int.natAbs_tdiv]
    exact Nat.div_mul_le_self _ _

/-! ## The operators on integers -/

theorem remainder_int (a : Int) (hb : b ≠ 0) :
    remainder (int a) (int b) = .ok (int (a.tmod b)) := by
  have hz : (int b).isZero = false := by simp [isZero, hb]
  simp only [remainder, hz, Bool.false_eq_true, if_false, integerRemainder_eq]

theorem divide_mul (q : Int) (hb : b ≠ 0) : divide (int (q * b)) (int b) = .ok (int q) := by
  simp only [divide, if_neg hb, Int.mul_fmod_left, if_true, Int.mul_fdiv_cancel q hb]

/-- A quotient is an integer where the dividend is a multiple of the divisor, and nowhere else. -/
theorem divide_eq_int_iff : divide (int a) (int b) = .ok (int n) ↔ b ≠ 0 ∧ a = n * b := by
  constructor
  · intro h
    obtain ⟨i, j, hi, hj, hz, hn⟩ := divide_eq_int h
    cases hi
    cases hj
    exact ⟨hz, hn⟩
  · rintro ⟨hb, rfl⟩
    exact divide_mul n hb

/-! ## Both together -/

/-- Of a division toward zero, the quotient is an integer answer iff nothing remains. -/
theorem TowardZero.divide_iff {r : Int} (h : TowardZero a b q r) (hb : b ≠ 0) :
    divide (int a) (int b) = .ok (int n) ↔ r = 0 ∧ n = q := by
  rw [divide_eq_int_iff]
  constructor
  · rintro ⟨-, ha⟩
    -- a multiple of the divisor that is smaller than it is zero
    have hr : r = (n - q) * b := by
      rw [Int.sub_mul, ← ha, ← h.whole]
      omega
    have hn : n - q = 0 := by
      by_contra hne
      have hlt := h.remainder_lt
      rw [hr, Int.natAbs_mul] at hlt
      exact absurd hlt (Nat.not_lt.2 (Nat.le_mul_of_pos_left _ (Int.natAbs_pos.2 hne)))
    exact ⟨by rw [hr, hn, Int.zero_mul], by omega⟩
  · rintro ⟨rfl, rfl⟩
    exact ⟨hb, by simpa using h.whole.symm⟩

/-- **Quotient and remainder fit together.**  The remainder of integers and the quotient of what it
    leaves are those of the division toward zero; and the dividend itself has an integer quotient
    exactly where nothing remains, and that one. -/
theorem quotient_with_remainder (a : Int) {b : Int} (hb : b ≠ 0) : ∃ q r : Int,
    remainder (int a) (int b) = .ok (int r) ∧ divide (int (a - r)) (int b) = .ok (int q) ∧
      TowardZero a b q r ∧ ∀ n, divide (int a) (int b) = .ok (int n) ↔ r = 0 ∧ n = q := by
  have h := towardZero_tdiv_tmod a hb
  have hd : a - a.tmod b = a.tdiv b * b := by
    have := h.whole
    omega
  refine ⟨a.tdiv b, a.tmod b, remainder_int a hb, ?_, h, fun n => h.divide_iff hb⟩
  rw [hd]
  exact divide_mul _ hb

/-- Minus seven by three is minus two, and minus one remains. -/
theorem quotient_with_remainder_negative :
    (3 : Int) ≠ 0 ∧ remainder (int (-7)) (int 3) = .ok (int (-1)) ∧
      divide (int (-6)) (int 3) = .ok (int (-2)) ∧ ∃ q r : Int,
        remainder (int (-7)) (int 3) = .ok (int r) ∧ divide (int (-7 - r)) (int 3) = .ok (int q) ∧
          TowardZero (-7) 3 q r ∧
          ∀ n, divide (int (-7)) (int 3) = .ok (int n) ↔ r = 0 ∧ n = q := by
  have hb : (3 : Int) ≠ 0 := by decide
  exact ⟨hb, rfl, rfl, quotient_with_remainder (-7) hb⟩

end Reckon.Number
