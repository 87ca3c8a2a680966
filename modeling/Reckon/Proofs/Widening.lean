/-
  Integers widened to floats.

  The significand of a double has 53 binary digits, and below infinity there are doubles up to
  `2 ^ 1024 - 2 ^ 971`.  An integer that is not above the middle between that one and `2 ^ 1024`
  is near to a double; at the middle the even significand is that of `2 ^ 1024`, which is
  infinity.

  * `Binary64.overflowFrom`: the middle;
  * `roundDiv_lt_iff`: when a quotient is rounded to less than an even number;
  * `nearestBits_eq`: the bits of the double nearest to an integer, by its size;
  * `isFinite_ofInt`: the integers near to a double;
  * `Number.toFloat_int`: the widening of an integer, and when there is none;
  * `Number.roundTo_eq_ok`: rounding to a number of places that can be widened.
-/
import Reckon.Number.Rounding
import Reckon.Proofs.Finiteness

namespace Reckon

namespace Binary64

open Float.Model (UnpackedFloat)
open Float.Model.Format (binary64)
open Float.Model.UnpackedFloat (unpackExponent)

/-- The least positive integer that no double is near to. -/
def overflowFrom : Nat := Nat.pow 2 1024 - Nat.pow 2 970

/-! ## Bits of finite floats -/

/-- Packing keeps what is not finite as it is, or makes it another infinity or undefined value. -/
theorem isFinite_pack_unpack (b : BitVec binary64.numBits) :
    (UnpackedFloat.unpack binary64 (UnpackedFloat.pack binary64
      (UnpackedFloat.unpack binary64 b))).isFinite =
        (UnpackedFloat.unpack binary64 b).isFinite := by
  cases hu : UnpackedFloat.unpack binary64 b with
  | notANumber => rfl
  | infinity s | zero s => cases s <;> rfl
  | finite s m e hm =>
    refine isFinite_pack rfl ?_
    rintro s' m' e' hm' ⟨⟩
    exact exponent_of_unpack hu

/-- Bits below those of infinity are the bits of a finite float. -/
theorem isFinite_ofBits {w : UInt64} (hw : w.toNat < 2 ^ 63) :
    (Float.ofBits w).isFinite = true ↔ w.toNat < infinityBits := by
  have hb : (Float.ofBits w).isFinite = (UnpackedFloat.unpack binary64 (UnpackedFloat.pack binary64
      (UnpackedFloat.unpack binary64 w.toBitVec))).isFinite := rfl
  have he : (@unpackExponent binary64 w.toBitVec).toNat = w.toNat / 2 ^ 52 % 2 ^ 11 := by
    simp [unpackExponent, Nat.shiftRight_eq_div_pow]
  have hi : infinityBits = 2047 * 2 ^ 52 := rfl
  rw [hb, isFinite_pack_unpack, isFinite_unpack, he, hi]
  omega

/-! ## Rounding to an even number -/

/-- A quotient is rounded to less than an even number iff it is below the middle between that and
    the number before. -/
theorem roundDiv_lt_iff {num den m : Nat} (hden : 0 < den) (hm : 0 < m) (heven : m % 2 = 0) :
    roundDiv num den < m ↔ 2 * num < (2 * m - 1) * den := by
  have hdiv : den * (num / den) + num % den = num := Nat.div_add_mod num den
  have hmod : num % den < den := Nat.mod_lt num hden
  unfold roundDiv
  dsimp only
  generalize num / den = q at *
  generalize num % den = r at *
  obtain h | rfl | h : q + 2 ≤ m ∨ m = q + 1 ∨ m ≤ q := by omega
  · -- two below the even number: rounding up does not reach it
    have hle : den * (q + 2) ≤ den * m := Nat.mul_le_mul_left den h
    have hsub : (2 * m - 1) * den = 2 * (den * m) - den := by
      rw [Nat.sub_mul, Nat.one_mul, Nat.mul_assoc, Nat.mul_comm m]
    rw [Nat.mul_add] at hle
    constructor
    · intro _
      omega
    · intro _
      split <;> omega
  · have hodd : q % 2 = 1 := by omega
    have hsub : (2 * (q + 1) - 1) * den = 2 * (den * q) + den := by
      rw [show 2 * (q + 1) - 1 = 2 * q + 1 by omega, Nat.add_mul, Nat.one_mul, Nat.mul_assoc,
        Nat.mul_comm q]
    split <;> omega
  · have hle : den * m ≤ den * q := Nat.mul_le_mul_left den h
    have hsub : (2 * m - 1) * den = 2 * (den * m) - den := by
      rw [Nat.sub_mul, Nat.one_mul, Nat.mul_assoc, Nat.mul_comm m]
    constructor
    · intro hlt
      split at hlt <;> omega
    · intro _
      omega

/-! ## Integers near to a double -/

theorem roundDiv_mul_right {num den k : Nat} (hk : 0 < k) :
    roundDiv (num * k) (den * k) = roundDiv num den := by
  unfold roundDiv
  simp only [Nat.mul_div_mul_right _ _ hk, Nat.mul_mod_mul_right, ← Nat.mul_assoc]
  have hlt : ∀ a b, a * k > b * k ↔ a > b := fun a b => Nat.mul_lt_mul_right hk
  have heq : ∀ a b, a * k = b * k ↔ a = b := fun a b => Nat.mul_left_inj (Nat.ne_of_gt hk)
  simp only [hlt, heq]

theorem log2_mul_two_pow {m : Nat} (hm : 0 < m) (k : Nat) : (m * 2 ^ k).log2 = m.log2 + k := by
  have hl : 2 ^ m.log2 ≤ m := Nat.log2_self_le (Nat.ne_of_gt hm)
  have hu : m < 2 ^ (m.log2 + 1) := Nat.lt_log2_self
  rw [Nat.log2_eq_iff (Nat.ne_of_gt (Nat.mul_pos hm (Nat.two_pow_pos k)))]
  constructor
  · rw [Nat.pow_add]
    exact Nat.mul_le_mul_right _ hl
  · rw [Nat.add_right_comm, Nat.pow_add]
    exact Nat.mul_lt_mul_of_pos_right hu (Nat.two_pow_pos k)

section
variable {num : Nat}

/-- The double nearest to an integer: its exponent, and its significand rounded. -/
theorem nearestBits_eq (h : 0 < num) : nearestBits num 1 =
    min infinityBits ((num.log2 + 1022) * 2 ^ 52 + roundDiv (num * 2 ^ 52) (2 ^ num.log2)) := by
  -- the exponent gets a name, so that its powers stay as they are
  obtain ⟨k, hk⟩ : ∃ k, k = 1022 := ⟨_, rfl⟩
  have hone : one = 2 ^ 52 * 2 ^ k := by
    rw [hk]
    decide +kernel
  have hscaled : num * one = num * 2 ^ 52 * 2 ^ k := by rw [hone, Nat.mul_assoc]
  have hlog : (num * one).log2 - 52 = num.log2 + k := by
    rw [hscaled, log2_mul_two_pow (by omega), log2_mul_two_pow h]
    omega
  unfold nearestBits
  simp only [Nat.div_one, Nat.one_mul, Nat.pow_eq, hlog]
  rw [hscaled, Nat.pow_add, roundDiv_mul_right (Nat.two_pow_pos _), hk]

/-- The significand has 53 binary digits, or is rounded up to the next power of two. -/
theorem significand_bounds (h : 0 < num) : 2 ^ 52 ≤ roundDiv (num * 2 ^ 52) (2 ^ num.log2) ∧
    roundDiv (num * 2 ^ 52) (2 ^ num.log2) ≤ 2 ^ 53 := by
  have hl : 2 ^ num.log2 ≤ num := Nat.log2_self_le (Nat.ne_of_gt h)
  have hu : num < 2 ^ (num.log2 + 1) := Nat.lt_log2_self
  have hq : 2 ^ 52 ≤ num * 2 ^ 52 / 2 ^ num.log2 ∧ num * 2 ^ 52 / 2 ^ num.log2 < 2 ^ 53 := by
    rw [Nat.le_div_iff_mul_le (Nat.two_pow_pos _), Nat.div_lt_iff_lt_mul (Nat.two_pow_pos _)]
    rw [Nat.pow_succ] at hu
    omega
  unfold roundDiv
  dsimp only
  split <;> omega

/-- **The integers that a double is near to** are those below the middle between the largest double
    and the power of two after it. -/
theorem nearestBits_lt_iff : nearestBits num 1 < infinityBits ↔ num < overflowFrom := by
  obtain rfl | hpos := Nat.eq_zero_or_pos num
  · exact iff_of_true (by decide +kernel) (by decide +kernel)
  have hl : 2 ^ num.log2 ≤ num := Nat.log2_self_le (Nat.ne_of_gt hpos)
  have hu : num < 2 ^ (num.log2 + 1) := Nat.lt_log2_self
  obtain ⟨hsl, hsu⟩ := significand_bounds hpos
  have hinf : infinityBits = 2047 * 2 ^ 52 := rfl
  obtain ⟨k, hk⟩ : ∃ k, k = 970 := ⟨_, rfl⟩
  have hover : overflowFrom = (2 ^ 54 - 1) * 2 ^ k := by
    rw [hk]
    decide +kernel
  have hsplit : ∀ i, 2 ^ (i + k) = 2 ^ i * 2 ^ k := fun i => Nat.pow_add 2 i k
  rw [nearestBits_eq hpos, hinf, hover]
  generalize num.log2 = L at *
  obtain hL | rfl | hL : L < 53 + k ∨ L = 53 + k ∨ 54 + k ≤ L := by omega
  · have hsmall : 2 ^ (L + 1) ≤ 2 ^ (53 + k) := Nat.pow_le_pow_right (by decide) hL
    rw [hsplit] at hsmall
    omega
  · -- the last binade: the significand must not be rounded up to the next power of two
    have hm : roundDiv (num * 2 ^ 52) (2 ^ (53 + k)) < 2 ^ 53 ↔
        2 * (num * 2 ^ 52) < (2 * 2 ^ 53 - 1) * 2 ^ (53 + k) :=
      roundDiv_lt_iff (Nat.two_pow_pos _) (by decide) (by decide)
    rw [hsplit] at hm ⊢
    omega
  · have hlarge : 2 ^ (54 + k) ≤ 2 ^ L := Nat.pow_le_pow_right (by decide) hL
    rw [hsplit] at hlarge
    omega

/-- The double nearest to an integer is finite iff the integer is below the middle. -/
@[simp]
theorem isFinite_ofInt {n : Int} : (ofInt n).isFinite = true ↔ n.natAbs < overflowFrom := by
  have hle : nearestBits n.natAbs 1 ≤ 2047 * 2 ^ 52 := Nat.min_le_left _ _
  have hw : (UInt64.ofNat (nearestBits n.natAbs 1)).toNat = nearestBits n.natAbs 1 := by
    rw [UInt64.toNat_ofNat', Nat.mod_eq_of_lt (by omega)]
  have hf : (nearest n.natAbs 1).isFinite = true ↔ n.natAbs < overflowFrom := by
    rw [nearest, isFinite_ofBits (by omega), hw, nearestBits_lt_iff]
  unfold ofInt withSign
  split
  · rw [isFinite_neg, hf]
  · exact hf

end

end Binary64

/-! ## Numbers -/

namespace Number

open Binary64 (overflowFrom ofInt)

/-- **An integer is widened** to the double nearest to it, if there is one. -/
theorem toFloat_int (n : Int) : (Number.int n).toFloat =
    if n.natAbs < overflowFrom then .ok (ofInt n) else .error .integerTooLarge := by
  unfold toFloat
  simp only [Binary64.isFinite_ofInt]

/-- Rounding fails for no number of places that has a float near to it. -/
theorem roundTo_eq_ok {places : Int} (h : places.natAbs < overflowFrom) (x : Float) :
    ∃ y, roundTo x places = .ok y := by
  have hs : ∃ scale, scaleOf places = .ok scale := by
    unfold scaleOf
    split
    · rw [toFloat_int, if_pos h]
      exact ⟨_, rfl⟩
    · exact ⟨_, rfl⟩
  obtain ⟨scale, hs⟩ := hs
  unfold roundTo
  split
  · exact ⟨x, rfl⟩
  · rw [hs]
    show ∃ y, (if (scale == 0) = true then _ else _) = Except.ok y
    split
    · exact ⟨_, rfl⟩
    · split <;> exact ⟨_, rfl⟩

end Number

end Reckon
