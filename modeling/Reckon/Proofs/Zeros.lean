/-
  Which floats are zero.

  Whether a divisor is zero is asked of a float, by comparing it with zero.  The
  answer is in its fields: the exponent and the significand of both zeros are
  zero, and of nothing else.

  * `Unpacks`: what a float is unpacked as, by its fields;
  * `beq_zero_iff`: equal to zero are the two zeros;
  * `zero_of_neg`: the opposite of a number is zero only if the number is;
  * `nearestBits_bounds`: the double nearest to a positive integer is no smaller
    than the least normal one;
  * `ofInt_beq_zero`: so that of the integers only zero is widened to a zero.
-/
import Mathlib.Algebra.Group.Nat.Defs
import Mathlib.Tactic.ByContra
import Reckon.Binary64

namespace Reckon.Binary64

open Float.Model (UnpackedFloat)
open Float.Model.Format (binary64)
open Float.Model.UnpackedFloat (unpackExponent unpackMantissa unpackExponent_packComponents
  unpackMantissa_packComponents packComponents Sign)

variable {u : UnpackedFloat} {b : BitVec binary64.numBits} {s : Sign} {x : Float}

/-! ## Unpacking -/

/-- What a float is unpacked as, by its fields. -/
inductive Unpacks (b : BitVec binary64.numBits) : UnpackedFloat → Prop
  | special {u : UnpackedFloat} : @unpackExponent binary64 b = -1#_ → u.isFinite = false →
      Unpacks b u
  | zero {s : Sign} : @unpackExponent binary64 b = 0#_ → @unpackMantissa binary64 b = 0#_ →
      Unpacks b (.zero s)
  | subnormal {s : Sign} {e : Int} {h : 0 < (@unpackMantissa binary64 b).toNat} :
      @unpackExponent binary64 b = 0#_ → e = -1074 → Unpacks b (.finite s _ e h)
  | normal {s : Sign} {e : Int} {h : 0 < (1#1 ++ @unpackMantissa binary64 b).toNat} :
      @unpackExponent binary64 b ≠ -1#_ → @unpackExponent binary64 b ≠ 0#_ →
      e = (@unpackExponent binary64 b).toNat - 1075 → Unpacks b (.finite s _ e h)

theorem unpacks (b : BitVec binary64.numBits) : Unpacks b (UnpackedFloat.unpack binary64 b) := by
  unfold UnpackedFloat.unpack
  dsimp only
  by_cases hfull : @unpackExponent binary64 b = -1#_
  · rw [if_pos hfull]
    refine .special hfull ?_
    split <;> rfl
  rw [if_neg hfull]
  by_cases hzero : @unpackExponent binary64 b = 0#_
  · rw [if_pos hzero]
    by_cases hm : @unpackMantissa binary64 b = 0#_
    · rw [dif_pos hm]
      exact .zero hzero hm
    · rw [dif_neg hm]
      have he : (@unpackExponent binary64 b).toNat = 0 := by rw [hzero]; rfl
      refine .subnormal hzero ?_
      rw [he]
      rfl
  · rw [if_neg hzero]
    exact .normal hfull hzero rfl

/-- What is unpacked as zero has zeros in both fields. -/
theorem fields_of_unpack (h : UnpackedFloat.unpack binary64 b = .zero s) :
    @unpackExponent binary64 b = 0#_ ∧ @unpackMantissa binary64 b = 0#_ := by
  have hu := unpacks b
  rw [h] at hu
  cases hu with
  | special _ hf => cases hf
  | zero he hm => exact ⟨he, hm⟩

/-! ## Packing -/

/-- The exponent and the significand fit their fields, so that packing loses nothing of them. -/
def Canonical : UnpackedFloat → Prop
  | .finite _ m e _ => m.log2 ≤ 52 ∧ (m.log2 = 52 → 0 < e + 1075)
  | .zero _ | .infinity _ | .notANumber => True

theorem Canonical.neg (h : Canonical u) : Canonical u.neg := by
  cases u with
  | finite s m e hm => exact h
  | zero | infinity | notANumber => trivial

theorem Unpacks.canonical (h : Unpacks b u) : Canonical u := by
  cases h with
  | special _ hf =>
    cases u with
    | finite => cases hf
    | zero | infinity | notANumber => trivial
  | zero => trivial
  | @subnormal _ _ hm =>
    have hlt : (@unpackMantissa binary64 b).toNat.log2 < 52 :=
      (Nat.log2_lt (by omega)).2 (@unpackMantissa binary64 b).isLt
    exact ⟨by omega, by omega⟩
  | @normal _ _ hm _ hzero he =>
    have hlt : (1#1 ++ @unpackMantissa binary64 b).toNat.log2 < 53 :=
      (Nat.log2_lt (by omega)).2 (1#1 ++ @unpackMantissa binary64 b).isLt
    have hpos : 0 < (@unpackExponent binary64 b).toNat := by
      simpa [BitVec.toNat_pos, BitVec.pos_iff_ne_zero] using hzero
    exact ⟨by omega, by omega⟩

theorem canonical_unpack (b : BitVec binary64.numBits) :
    Canonical (UnpackedFloat.unpack binary64 b) :=
  (unpacks b).canonical

/-- **Only zeros are packed as zeros.**  A normal number leaves something in the exponent field, a
    subnormal one in that of the significand. -/
theorem zero_of_pack (hu : Canonical u)
    (h : UnpackedFloat.unpack binary64 (UnpackedFloat.pack binary64 u) = .zero s) :
    ∃ s, u = .zero s := by
  cases u with
  | zero s => exact ⟨s, rfl⟩
  | notANumber => cases h
  | infinity s => cases s <;> cases h
  | finite s m e hm =>
    exfalso
    obtain ⟨hlog, hexp⟩ := hu
    have hb : (binary64.exponentBias : Int) = 1023 := rfl
    unfold UnpackedFloat.pack at h
    dsimp only at h
    split at h
    · cases s <;> cases h
    rename_i hsmall
    have hsmall : ¬ 2 ^ 11 ≤ (e + binary64.exponentBias + 52).toNat + 1 := hsmall
    rw [hb] at hsmall
    split at h
    · rename_i hnormal
      have hnormal : m.log2 + 1 = 53 := hnormal
      have he := hexp (by omega)
      have hz := congrArg BitVec.toNat (fields_of_unpack h).1
      rw [unpackExponent_packComponents, BitVec.toNat_ofNat, BitVec.toNat_ofNat, Nat.zero_mod,
        hb] at hz
      have hz : (e + 1023 + 52).toNat % 2 ^ 11 = 0 := hz
      omega
    · rename_i hsub
      have hsub : ¬ m.log2 + 1 = 53 := hsub
      have hlt : m < 2 ^ 52 := (Nat.log2_lt (by omega)).1 (by omega)
      have hz := congrArg BitVec.toNat (fields_of_unpack h).2
      rw [unpackMantissa_packComponents, BitVec.toNat_ofNat, BitVec.toNat_ofNat, Nat.zero_mod,
        Nat.mod_eq_of_lt hlt] at hz
      omega

/-! ## Comparing with zero -/

theorem beq_zero_iff : (x == 0) = true ↔ ∃ s, x.toModel.unpack = .zero s := by
  have h0 : (0 : Float).toModel.unpack = .zero .positive := rfl
  have hb : (x == 0) = x.toModel.unpack.beq (.zero .positive) := by
    rw [← h0]
    rfl
  rw [hb]
  cases x.toModel.unpack with
  | zero s => exact ⟨fun _ => ⟨s, rfl⟩, fun _ => rfl⟩
  | infinity s | finite s m e hm =>
    constructor
    · intro h
      cases s <;> cases h
    · rintro ⟨_, ⟨⟩⟩
  | notANumber =>
    constructor
    · rintro ⟨⟩
    · rintro ⟨_, ⟨⟩⟩

/-- The opposite of a number is zero only if the number is. -/
theorem zero_of_neg (h : (-x == 0) = true) : (x == 0) = true := by
  obtain ⟨s, hs⟩ := beq_zero_iff.1 h
  have hc : Canonical x.toModel.unpack := canonical_unpack _
  obtain ⟨s', hs'⟩ := zero_of_pack hc.neg hs
  refine beq_zero_iff.2 ?_
  cases hu : x.toModel.unpack with
  | zero s => exact ⟨s, rfl⟩
  | infinity | finite | notANumber =>
    rw [hu] at hs'
    cases hs'

/-- A float that is zero has nothing in the exponent field. -/
theorem exponent_of_zero {w : UInt64} (h : (Float.ofBits w == 0) = true) :
    w.toNat / 2 ^ 52 % 2 ^ 11 = 0 := by
  obtain ⟨s, hs⟩ := beq_zero_iff.1 h
  obtain ⟨s', hs'⟩ := zero_of_pack (canonical_unpack _) hs
  have hz := congrArg BitVec.toNat (fields_of_unpack hs').1
  simpa [unpackExponent, Nat.shiftRight_eq_div_pow] using hz

/-! ## Integers -/

/-- A positive integer is near to a normal number, or to infinity. -/
theorem nearestBits_bounds {num : Nat} (h : 0 < num) :
    2 ^ 52 ≤ nearestBits num 1 ∧ nearestBits num 1 ≤ 2047 * 2 ^ 52 := by
  have hone : 2 ^ 52 ≤ one := by decide +kernel
  have hscaled : one ≤ num * one := Nat.le_mul_of_pos_left _ h
  have hlog : 52 ≤ (num * one).log2 := (Nat.le_log2 (by omega)).2 (by omega)
  refine ⟨?_, Nat.min_le_left _ _⟩
  unfold nearestBits
  simp only [Nat.div_one, Nat.one_mul, Nat.pow_eq]
  refine Nat.le_min.2 ⟨by decide, ?_⟩
  -- the significand alone has 53 binary digits, before it is rounded and after
  have hq : 2 ^ 52 ≤ num * one / 2 ^ ((num * one).log2 - 52) := by
    rw [Nat.le_div_iff_mul_le (Nat.two_pow_pos _), ← Nat.pow_add, Nat.add_sub_cancel' (by omega)]
    exact Nat.log2_self_le (by omega)
  have hr : num * one / 2 ^ ((num * one).log2 - 52) ≤
      roundDiv (num * one) (2 ^ ((num * one).log2 - 52)) := by
    unfold roundDiv
    dsimp only
    split <;> omega
  omega

/-- **Of the integers only zero is widened to a zero.** -/
theorem ofInt_beq_zero {n : Int} : (ofInt n == 0) = true ↔ n = 0 := by
  constructor
  · intro h
    have hn : (nearest n.natAbs 1 == 0) = true := by
      unfold ofInt withSign at h
      split at h
      · exact zero_of_neg h
      · exact h
    by_contra hne
    obtain ⟨hl, hu⟩ := @nearestBits_bounds n.natAbs (by omega)
    have he := exponent_of_zero hn
    rw [UInt64.toNat_ofNat', Nat.mod_eq_of_lt (by omega)] at he
    omega
  · rintro rfl
    decide +kernel

end Reckon.Binary64
