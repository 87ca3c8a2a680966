/-
  Operations of floats are rounded to the nearest double.

  A float has a sign and a size, in the unit `2 ^ -1074`, and an infinity all sizes from `2 ^ 1024`
  on.  Products, quotients and differences have the exact size rounded to the grid of the doubles.

  * `Holds`: a significand with the bits that it is rounded by; `Holds.roundedMantissa`: it is
    rounded to the nearest, and half-way to the even one;
  * `Sized`, `Measures`: the sign and the size of an unpacked float, and of a float;
  * `sized_roundWithAccuracy`: rounding; `sized_pack`: packing;
  * `measures_nearest`, `Measures.mul`, `Measures.div`, `Measures.sub`: operations;
  * `Measures.le_iff`: comparisons.
-/
import Mathlib.Tactic.Ring
import Reckon.Proofs.Grid

namespace Reckon.Binary64

open Float.Model (UnpackedFloat totalExponent)
open Float.Model.Format (binary64)
open Float.Model.UnpackedFloat (Accuracy ExtendedMantissa Sign accuracyOfFraction decreaseExponent
  divCore roundWithAccuracy shiftToTargetExponent shiftToExponent unpackExponent unpackMantissa
  unpackSign packComponents unpackExponent_packComponents unpackMantissa_packComponents)

/-! ## Significands -/

/-- A significand holds a quotient: the whole part, whether the rest is a half or more, and whether
    it is something else than nothing or a half. -/
structure Holds (em : ExtendedMantissa) (num den : Nat) : Prop where
  mantissa : em.mantissa = num / den
  roundBit : em.roundBit = true ↔ den ≤ 2 * (num % den)
  stickyBit : em.stickyBit = true ↔ num % den ≠ 0 ∧ 2 * (num % den) ≠ den

section
variable {em : ExtendedMantissa} {num den : Nat}

theorem holds_exact (m : Nat) : Holds (.ofMantissaAndAccuracy m .exact) m 1 :=
  ⟨(Nat.div_one m).symm, by simp [ExtendedMantissa.ofMantissaAndAccuracy, Nat.mod_one],
    by simp [ExtendedMantissa.ofMantissaAndAccuracy, Nat.mod_one]⟩

/-- A quotient and the accuracy of its rest. -/
theorem holds_fraction (num : Nat) (hden : 0 < den) :
    Holds (.ofMantissaAndAccuracy (num / den) (accuracyOfFraction (num % den) den)) num den := by
  unfold accuracyOfFraction
  split
  · rename_i h0
    exact ⟨rfl, iff_of_false Bool.false_ne_true (by omega),
      iff_of_false Bool.false_ne_true (by omega)⟩
  rename_i h0
  rcases hc : compare (2 * (num % den)) den with _ | _ | _
  · rw [Nat.compare_eq_lt] at hc
    exact ⟨rfl, iff_of_false Bool.false_ne_true (by omega), iff_of_true rfl (by omega)⟩
  · rw [Nat.compare_eq_eq] at hc
    exact ⟨rfl, iff_of_true rfl (by omega), iff_of_false Bool.false_ne_true (by omega)⟩
  · rw [Nat.compare_eq_gt] at hc
    exact ⟨rfl, iff_of_true rfl (by omega), iff_of_true rfl (by omega)⟩

/-- Past one more binary digit it holds half as much. -/
theorem Holds.shiftRightOne (h : Holds em num den) (hden : 0 < den) :
    Holds em.shiftRightOne num (den * 2) := by
  have hmod : num % (den * 2) = num % den + den * (num / den % 2) := Nat.mod_mul
  have hlt : num % den < den := Nat.mod_lt num hden
  have hbit : den * (num / den % 2) = if num / den % 2 = 0 then 0 else den := by
    rcases Nat.mod_two_eq_zero_or_one (num / den) with h | h <;> simp [h]
  rw [hbit] at hmod
  constructor
  · rw [← Nat.div_div_eq_div_mul, ← h.mantissa]
    rfl
  · show (em.mantissa % 2 != 0) = true ↔ _
    rw [h.mantissa, hmod, bne_iff_ne]
    split <;> omega
  · show (em.roundBit || em.stickyBit) = true ↔ _
    rw [Bool.or_eq_true, h.roundBit, h.stickyBit, hmod]
    split <;> omega

theorem Holds.shiftRight (h : Holds em num den) (hden : 0 < den) :
    ∀ k, Holds (em >>> k) num (den * 2 ^ k)
  | 0 => by rwa [Nat.pow_zero, Nat.mul_one]
  | k + 1 => by
    rw [Nat.pow_succ, ← Nat.mul_assoc]
    exact (h.shiftRight hden k).shiftRightOne (Nat.mul_pos hden (Nat.two_pow_pos k))

/-- **The quotient is rounded to the nearest**, to an even one if two are equally near. -/
theorem Holds.roundedMantissa (h : Holds em num den) : em.roundedMantissa = roundDiv num den := by
  obtain ⟨m, r, s⟩ := em
  obtain ⟨hm, hr, hs⟩ := h
  dsimp only at hm hr hs
  subst hm
  unfold roundDiv
  dsimp only
  cases r <;> cases s <;> simp only [Bool.false_eq_true, false_iff, true_iff] at hr hs
  · show num / den = _
    split <;> omega
  · show num / den = _
    split <;> omega
  · show num / den + num / den % 2 = _
    split <;> omega
  · show num / den + 1 = _
    split <;> omega

end

/-! ## Sizes -/

/-- An unpacked float has a sign and a size, in the unit `2 ^ -1074`: zero, a significand of 53
    binary digits before zeros or of fewer digits, and of an infinity any size from the end of the
    doubles on. -/
inductive Sized : UnpackedFloat → Sign → Nat → Prop
  | zero (s : Sign) : Sized (.zero s) s 0
  | finite {s : Sign} {m k : Nat} {e : Int} {h : 0 < m} : e = k - 1074 → m < 2 ^ 53 →
      2 ^ 52 ≤ m ∨ k = 0 → Sized (.finite s m e h) s (m * 2 ^ k)
  | infinity {s : Sign} {n : Nat} : top ≤ n → Sized (.infinity s) s n

section
variable {num den m g i j : Nat} {e : Int} {s : Sign} {acc : Accuracy}

theorem targetExponent_eq (m : Nat) (e : Int) :
    binary64.targetExponent (totalExponent m e) = max (m.log2 + e - 52) (-1074) := by
  show max ((m.log2 + 1 + e : Int) - 53) (-1074) = _
  omega

/-- A rounded significand is shifted once more if it has been rounded up to 54 digits. -/
theorem sized_shift {r : Nat} (hr : r ≤ 2 ^ 53) (hg : 2 ^ 52 ≤ r ∨ g = 0) (he : e = g - 1074) :
    Sized (match shiftToTargetExponent binary64 r e .exact with
      | (em, e') => if h : em.mantissa = 0 then .zero s
          else .finite s em.mantissa e' (Nat.pos_of_ne_zero h)) s (r * 2 ^ g) := by
  have hs := (holds_exact r).shiftRight Nat.one_pos
    (binary64.targetExponent (totalExponent r e) - e).toNat
  unfold shiftToTargetExponent shiftToExponent
  dsimp only
  generalize ht : (binary64.targetExponent (totalExponent r e) - e).toNat = k at hs ⊢
  rw [targetExponent_eq] at ht
  -- the significand, to which the proof that it is not zero refers
  have hq := hs.mantissa
  generalize (ExtendedMantissa.ofMantissaAndAccuracy r .exact >>> k).mantissa = q at hq ⊢
  rw [Nat.one_mul] at hq
  obtain hlt | rfl := Nat.lt_or_eq_of_le hr
  · have hlog : r.log2 ≤ 52 := by
      obtain rfl | hpos := Nat.eq_zero_or_pos r
      · simp
      · exact Nat.le_of_lt_succ ((Nat.log2_lt (by omega)).2 hlt)
    obtain rfl : k = 0 := by omega
    obtain rfl : q = r := by rw [hq, Nat.pow_zero, Nat.div_one]
    by_cases h0 : q = 0
    · rw [dif_pos h0, h0, Nat.zero_mul]
      exact .zero s
    · rw [dif_neg h0]
      exact .finite (by omega) hlt hg
  · obtain rfl : k = 1 := by
      rw [Nat.log2_two_pow] at ht
      omega
    obtain rfl : q = 2 ^ 52 := hq
    rw [two_pow_carry]
    exact .finite (by omega) (by decide) (.inl (Nat.le_refl _))

theorem mantissa_of_accuracy (m : Nat) (acc : Accuracy) :
    (ExtendedMantissa.ofMantissaAndAccuracy m acc).mantissa = m := by
  rcases acc with _ | o
  · rfl
  · cases o <;> rfl

/-- The spacing that suits a quotient, by the exponent of its whole part. -/
theorem suits_of_log2 (hden : 0 < den) (hm : m = num / den) (he : e = i - j - 1074)
    (hle : e ≤ max (m.log2 + e - 52) (-1074)) (hg : max (m.log2 + e - 52) (-1074) = g - 1074) :
    Suits g (num * 2 ^ i) (den * 2 ^ j) := by
  have hsplit : ∀ a, 2 ^ a * (den * 2 ^ j) = 2 ^ (a + j) * den := fun a => by
    rw [Nat.pow_add, Nat.mul_assoc, Nat.mul_comm den]
  have hsplit' : ∀ a, 2 ^ a * den * 2 ^ i = 2 ^ (a + i) * den := fun a => by
    rw [Nat.pow_add, Nat.mul_right_comm]
  constructor
  · obtain h0 | hpos := Nat.eq_zero_or_pos g
    · exact .inl h0
    have hne : m ≠ 0 := by
      rintro h0
      rw [h0, Nat.log2_zero] at hle hg
      omega
    have hl : 2 ^ m.log2 * den ≤ num := by
      rw [← Nat.le_div_iff_mul_le hden, ← hm]
      exact Nat.log2_self_le hne
    have hl' := Nat.mul_le_mul_right (2 ^ i) hl
    rw [hsplit'] at hl'
    rw [hsplit, show 52 + g + j = m.log2 + i by omega]
    exact .inr hl'
  · have hu : num < 2 ^ (m.log2 + 1) * den := by
      rw [← Nat.div_lt_iff_lt_mul hden, ← hm]
      exact Nat.lt_log2_self
    have hu' := Nat.mul_lt_mul_of_pos_right hu (Nat.two_pow_pos i)
    rw [hsplit'] at hu'
    rw [hsplit]
    refine Nat.lt_of_lt_of_le hu' (Nat.mul_le_mul_right den (Nat.pow_le_pow_right (by decide) ?_))
    omega

/-- **Rounding** to the grid.  The significand must not have an exponent above that of the spacing,
    as then nothing is rounded. -/
theorem sized_roundWithAccuracy (hden : 0 < den)
    (h : Holds (.ofMantissaAndAccuracy m acc) num den) (he : e = i - j - 1074)
    (hle : e ≤ max (m.log2 + e - 52) (-1074)) :
    Sized (roundWithAccuracy binary64 s m e acc) s (onGrid (num * 2 ^ i) (den * 2 ^ j)) := by
  have hm : m = num / den := by rw [← h.mantissa, mantissa_of_accuracy]
  obtain ⟨g, hg⟩ : ∃ g : Nat, max (m.log2 + e - 52) (-1074) = (g : Int) - 1074 :=
    ⟨(max (m.log2 + e - 52) (-1074) + 1074).toNat, by omega⟩
  have hsuits := suits_of_log2 hden hm he hle hg
  have hden' : 0 < den * 2 ^ j := Nat.mul_pos hden (Nat.two_pow_pos j)
  obtain ⟨k, hk⟩ : ∃ k, (g - 1074 - e).toNat = k := ⟨_, rfl⟩
  have hr := (h.shiftRight hden k).roundedMantissa
  have hscale : roundDiv num (den * 2 ^ k) = roundDiv (num * 2 ^ i) (den * 2 ^ j * 2 ^ g) := by
    rw [Nat.mul_assoc den, ← Nat.pow_add, show j + g = k + i by omega, Nat.pow_add, ← Nat.mul_assoc,
      roundDiv_mul_right (Nat.two_pow_pos i)]
  rw [onGrid_eq hden' hsuits, ← hscale, ← hr]
  have hle53 := hsuits.roundDiv_le hden'
  have hge52 : 2 ^ 52 ≤ roundDiv num (den * 2 ^ k) ∨ g = 0 := by
    rw [hscale]
    exact (Nat.eq_zero_or_pos g).symm.imp (fun h => hsuits.le_roundDiv hden' (by omega)) id
  rw [← hscale] at hle53
  rw [← hr] at hle53 hge52
  unfold roundWithAccuracy
  have hfirst : shiftToTargetExponent binary64 m e acc =
      (ExtendedMantissa.ofMantissaAndAccuracy m acc >>> k, (g - 1074 : Int)) := by
    unfold shiftToTargetExponent shiftToExponent
    rw [targetExponent_eq, hg]
    dsimp only
    rw [hk, show e + (k : Int) = g - 1074 by omega]
  rw [hfirst]
  exact sized_shift hle53 hge52 rfl

end

/-! ## Packing -/

section
variable {u : UnpackedFloat} {s t : Sign} {m n k : Nat} {b : BitVec binary64.numBits}

theorem toNat_unpackExponent (w : UInt64) :
    (@unpackExponent binary64 w.toBitVec).toNat = w.toNat / 2 ^ 52 % 2 ^ 11 := by
  simp [unpackExponent, Nat.shiftRight_eq_div_pow]

theorem toNat_unpackMantissa (w : UInt64) :
    (@unpackMantissa binary64 w.toBitVec).toNat = w.toNat % 2 ^ 52 := by
  simp [unpackMantissa]

/-- The size of a finite float, by its fields. -/
theorem sized_unpack (h : (@unpackExponent binary64 b).toNat < 2047) :
    Sized (UnpackedFloat.unpack binary64 b) (.ofBitVec (unpackSign b))
      ((if (@unpackExponent binary64 b).toNat = 0 then (@unpackMantissa binary64 b).toNat
        else 2 ^ 52 + (@unpackMantissa binary64 b).toNat) *
        2 ^ ((@unpackExponent binary64 b).toNat - 1)) := by
  have hlt : (@unpackMantissa binary64 b).toNat < 2 ^ 52 := (@unpackMantissa binary64 b).isLt
  have hfull : ¬ @unpackExponent binary64 b = -1#_ := fun he => by
    rw [he] at h
    exact absurd h (by decide)
  unfold UnpackedFloat.unpack
  dsimp only
  rw [if_neg hfull]
  by_cases hzero : @unpackExponent binary64 b = 0#_
  · have h0 : (@unpackExponent binary64 b).toNat = 0 := by rw [hzero]; rfl
    rw [if_pos hzero, if_pos h0, h0]
    by_cases hm : @unpackMantissa binary64 b = 0#_
    · rw [dif_pos hm, hm]
      exact .zero _
    · rw [dif_neg hm]
      exact .finite rfl (by omega) (.inr rfl)
  · have hpos : (@unpackExponent binary64 b).toNat ≠ 0 := fun h0 => hzero (BitVec.eq_of_toNat_eq h0)
    have happ : (1#1 ++ @unpackMantissa binary64 b).toNat =
        2 ^ 52 + (@unpackMantissa binary64 b).toNat := by
      rw [BitVec.toNat_append, ← Nat.shiftLeft_add_eq_or_of_lt hlt]
      rfl
    rw [if_neg hzero, if_neg hpos, ← happ]
    refine .finite ?_ (by omega) (.inl (by omega))
    show (_ : Int) - 1075 = _
    omega

theorem ofBitVec_unpackSign (w : UInt64) : Sign.ofBitVec (@unpackSign binary64 w.toBitVec) =
    if w.toNat / 2 ^ 63 = 1 then .negative else .positive := by
  have hlt : w.toNat < 2 ^ 64 := w.toNat_lt
  have hb : (@unpackSign binary64 w.toBitVec).toNat = w.toNat / 2 ^ 63 := by
    show (BitVec.cast _ (BitVec.extractLsb 63 63 w.toBitVec)).toNat = _
    rw [BitVec.toNat_cast, BitVec.extractLsb_toNat, Nat.shiftRight_eq_div_pow,
      UInt64.toNat_toBitVec]
    omega
  have h0 : @unpackSign binary64 w.toBitVec = 0#1 ↔ ¬ w.toNat / 2 ^ 63 = 1 := by
    rw [← BitVec.toNat_inj, hb]
    show _ = 0 ↔ _
    omega
  rw [Sign.ofBitVec]
  by_cases hn : w.toNat / 2 ^ 63 = 1
  · rw [if_neg (mt h0.1 (not_not_intro hn)), if_pos hn]
  · rw [if_pos (h0.2 hn), if_neg hn]

theorem unpackSign_packComponents {spec : Float.Model.Format} (s : Sign)
    (e : BitVec spec.exponentBits) (m : BitVec spec.mantissaBitsWithoutImplicit) :
    unpackSign (packComponents spec s e m) = s.toBitVec := by
  refine BitVec.eq_of_getLsbD_eq fun i hi => ?_
  obtain rfl : i = 0 := by omega
  show (BitVec.cast _ (BitVec.extractLsb (spec.mantissaBitsWithoutImplicit + spec.exponentBits)
    (spec.mantissaBitsWithoutImplicit + spec.exponentBits) (s.toBitVec ++ e ++ m))).getLsbD 0 = _
  simp [BitVec.getLsbD_append, BitVec.getElem_append]

/-- The size of a float made of its fields. -/
theorem sized_packComponents (s : Sign) (hk : k < 2047) (hm : m < 2 ^ 52) :
    Sized (UnpackedFloat.unpack binary64
        (packComponents binary64 s (BitVec.ofNat 11 k) (BitVec.ofNat 52 m))) s
      ((if k = 0 then m else 2 ^ 52 + m) * 2 ^ (k - 1)) := by
  have he : (@unpackExponent binary64
      (packComponents binary64 s (BitVec.ofNat 11 k) (BitVec.ofNat 52 m))).toNat = k := by
    rw [unpackExponent_packComponents, BitVec.toNat_ofNat]
    exact Nat.mod_eq_of_lt (Nat.lt_trans hk (by decide))
  have hm : (@unpackMantissa binary64
      (packComponents binary64 s (BitVec.ofNat 11 k) (BitVec.ofNat 52 m))).toNat = m := by
    rw [unpackMantissa_packComponents, BitVec.toNat_ofNat]
    exact Nat.mod_eq_of_lt hm
  have hs : Sign.ofBitVec s.toBitVec = s := by cases s <;> rfl
  have h := sized_unpack (b := packComponents binary64 s (BitVec.ofNat 11 k) (BitVec.ofNat 52 m))
    (by rwa [he])
  rwa [he, hm, unpackSign_packComponents, hs] at h

/-- From the last spacing on, a significand of 53 digits is beyond the doubles. -/
theorem top_le (hk : 2046 ≤ k) (hm : 2 ^ 52 ≤ m) : top ≤ m * 2 ^ k := by
  obtain ⟨j, hj, htop⟩ := exists_top
  rw [htop, two_pow_carry]
  exact Nat.mul_le_mul hm (Nat.pow_le_pow_right (by decide) (by omega))

/-- **Packing keeps the size**; beyond the doubles it makes an infinity. -/
theorem sized_pack (h : Sized u s n) :
    Sized (UnpackedFloat.unpack binary64 (UnpackedFloat.pack binary64 u)) s n := by
  cases h with
  | zero s => cases s <;> exact .zero _
  | infinity hn => cases s <;> exact .infinity hn
  | @finite s m k e hm he hlt hcanonical =>
    have hb : (e + binary64.exponentBias + binary64.mantissaBitsWithoutImplicit).toNat = k + 1 := by
      show (e + 1023 + 52).toNat = k + 1
      omega
    unfold UnpackedFloat.pack
    dsimp only
    rw [hb]
    split
    · rename_i hlarge
      have hlarge : 2048 ≤ k + 1 + 1 := hlarge
      have htop : top ≤ m * 2 ^ k := top_le (by omega) (hcanonical.resolve_right (by omega))
      cases s <;> exact .infinity htop
    rename_i hsmall
    have hsmall : ¬ 2048 ≤ k + 1 + 1 := hsmall
    by_cases hnormal : 2 ^ 52 ≤ m
    · have hlog : m.log2 = 52 := (Nat.log2_eq_iff (by omega)).2 ⟨hnormal, hlt⟩
      rw [if_pos (by rw [hlog]; rfl)]
      have hmod : BitVec.ofNat 52 m = BitVec.ofNat 52 (m - 2 ^ 52) := by
        refine BitVec.eq_of_toNat_eq ?_
        rw [BitVec.toNat_ofNat, BitVec.toNat_ofNat]
        omega
      have h := sized_packComponents s (k := k + 1) (m := m - 2 ^ 52) (by omega) (by omega)
      rw [← hmod, if_neg (Nat.succ_ne_zero k), Nat.add_sub_cancel' hnormal] at h
      exact h
    · obtain rfl : k = 0 := hcanonical.resolve_left hnormal
      have hlog : m.log2 < 52 := (Nat.log2_lt (by omega)).2 (by omega)
      have h := sized_packComponents s (k := 0) (m := m) (by omega) (by omega)
      rw [if_neg]
      · exact h
      · show ¬ m.log2 + 1 = 53
        omega

end

/-! ## Floats -/

/-- A float has a sign and a size. -/
def Measures (x : Float) (s : Sign) (n : Nat) : Prop := Sized x.toModel.unpack s n

/-- The sign of a float. -/
def signOf (x : Float) : Sign := if isNegative x then .negative else .positive

section
variable {x y : Float} {s t : Sign} {m n : Nat}

/-- What a float is packed from has its sign and its size. -/
theorem measures_of_pack {u : UnpackedFloat} (hx : x.toModel.unpack =
    UnpackedFloat.unpack binary64 (UnpackedFloat.pack binary64 u)) (h : Sized u s n) :
    Measures x s n := by
  unfold Measures
  rw [hx]
  exact sized_pack h

/-- The sign and the size of a finite float are those of its bits. -/
theorem measures_of_isFinite (h : x.isFinite = true) : Measures x (signOf x) (magnitude x) := by
  have hx : x.isFinite = (UnpackedFloat.unpack binary64 x.toBits.toBitVec).isFinite := rfl
  rw [hx, isFinite_unpack] at h
  have hs := sized_unpack h
  have hsign : signOf x = if x.toBits.toNat / 2 ^ 63 = 1 then .negative else .positive := by
    have hneg : isNegative x = decide (x.toBits.toNat / 2 ^ 63 = 1) := rfl
    simp only [signOf, hneg, decide_eq_true_eq]
  rw [toNat_unpackExponent, toNat_unpackMantissa, ofBitVec_unpackSign, ← hsign] at hs
  exact hs

theorem Measures.isNaN (h : Measures x s n) : x.isNaN = false := by
  have hx : x.isNaN = x.toModel.unpack.isNaN := rfl
  rw [hx]
  unfold Measures at h
  generalize x.toModel.unpack = u at h
  cases h <;> rfl

/-- The doubles end where the infinities begin. -/
theorem Measures.isFinite_iff (h : Measures x s n) : x.isFinite = true ↔ n < top := by
  have hx : x.isFinite = x.toModel.unpack.isFinite := rfl
  rw [hx]
  unfold Measures at h
  generalize hu : x.toModel.unpack = u at h
  cases h with
  | zero s => exact iff_of_true rfl top_pos
  | infinity hn => exact iff_of_false Bool.false_ne_true (Nat.not_lt.2 hn)
  | @finite s m k e hm he hlt _ =>
    refine iff_of_true rfl ?_
    have := exponent_of_unpack hu
    obtain ⟨j, hj, htop⟩ := exists_top
    have hp : 2 ^ k ≤ 2 ^ j := Nat.pow_le_pow_right (by decide) (by omega)
    rw [htop]
    calc m * 2 ^ k ≤ m * 2 ^ j := Nat.mul_le_mul_left m hp
      _ < 2 ^ 53 * 2 ^ j := Nat.mul_lt_mul_of_pos_right hlt (Nat.two_pow_pos j)

/-- A finite float without a minus sign, by its size. -/
theorem measures_of_magnitude (hf : x.isFinite = true) (hs : isNegative x = false)
    (hm : magnitude x = n) : Measures x .positive n := by
  have h := measures_of_isFinite hf
  rwa [signOf, hs, hm] at h

/-- A finite float has one sign and one size. -/
theorem Measures.unique (h : Measures x s n) (h' : Measures x t m) (hn : n < top) :
    s = t ∧ n = m := by
  unfold Measures at h h'
  generalize x.toModel.unpack = u at h h'
  cases h with
  | zero => cases h'; exact ⟨rfl, rfl⟩
  | infinity hle => exact absurd hn (Nat.not_lt.2 hle)
  | @finite s m k e hm he _ _ =>
    cases h' with
    | @finite _ _ k' _ _ he' _ _ =>
      obtain rfl : k = k' := by omega
      exact ⟨rfl, rfl⟩

theorem Measures.magnitude_eq (h : Measures x s n) (hn : n < top) : magnitude x = n :=
  (h.unique (measures_of_isFinite (h.isFinite_iff.2 hn)) hn).2.symm

theorem Measures.signOf_eq (h : Measures x s n) (hn : n < top) : signOf x = s :=
  (h.unique (measures_of_isFinite (h.isFinite_iff.2 hn)) hn).1.symm

theorem Measures.neg (h : Measures x s n) : Measures (-x) (-s) n := by
  refine measures_of_pack (u := x.toModel.unpack.neg) rfl ?_
  unfold Measures at h
  generalize x.toModel.unpack = u at h
  cases h with
  | zero s => exact .zero _
  | infinity hn => exact .infinity hn
  | finite he hlt hc => exact .finite he hlt hc

theorem Measures.abs (h : Measures x s n) : Measures x.abs .positive n := by
  refine measures_of_pack (u := x.toModel.unpack.abs) rfl ?_
  unfold Measures at h
  generalize x.toModel.unpack = u at h
  cases h with
  | zero s => exact .zero _
  | infinity hn => exact .infinity hn
  | finite he hlt hc => exact .finite he hlt hc

/-- The size of a finite float, by its bits. -/
theorem measures_ofBits {w : UInt64} (h : w.toNat < 2047 * 2 ^ 52) :
    Measures (Float.ofBits w) .positive
      ((if w.toNat / 2 ^ 52 = 0 then w.toNat else 2 ^ 52 + w.toNat % 2 ^ 52) *
        2 ^ (w.toNat / 2 ^ 52 - 1)) := by
  have he : (@unpackExponent binary64 w.toBitVec).toNat = w.toNat / 2 ^ 52 := by
    rw [toNat_unpackExponent]
    omega
  have hs := sized_unpack (b := w.toBitVec) (by omega)
  rw [he, toNat_unpackMantissa, ofBitVec_unpackSign, if_neg (by omega)] at hs
  refine measures_of_pack (u := UnpackedFloat.unpack binary64 w.toBitVec) rfl ?_
  by_cases h0 : w.toNat / 2 ^ 52 = 0
  · rw [if_pos h0] at hs ⊢
    rwa [Nat.mod_eq_of_lt (by omega)] at hs
  · rw [if_neg h0] at hs ⊢
    exact hs

/-- **The double nearest to a quotient** has the size of the quotient on the grid. -/
theorem measures_nearest {num den : Nat} (hden : 0 < den) :
    Measures (nearest num den) .positive (onGrid (num * one) den) := by
  have hs : Suits (gap (num * one) den) (num * one) den := suits_gap hden
  have hbits : nearestBits num den = min (2047 * 2 ^ 52)
    (gap (num * one) den * 2 ^ 52 + roundDiv (num * one) (den * 2 ^ gap (num * one) den)) := rfl
  have hle := hs.roundDiv_le hden
  have hge := hs.le_roundDiv hden
  unfold nearest onGrid
  generalize gap (num * one) den = g at *
  generalize roundDiv (num * one) (den * 2 ^ g) = r at *
  by_cases hfin : g * 2 ^ 52 + r < 2047 * 2 ^ 52
  · rw [Nat.min_eq_right (Nat.le_of_lt hfin)] at hbits
    have hw : (UInt64.ofNat (nearestBits num den)).toNat = g * 2 ^ 52 + r := by
      rw [hbits, UInt64.toNat_ofNat', Nat.mod_eq_of_lt (by omega)]
    have h := measures_ofBits (w := UInt64.ofNat (nearestBits num den)) (by omega)
    rw [hw] at h
    obtain hr | hr | rfl : r < 2 ^ 52 ∨ 2 ^ 52 ≤ r ∧ r < 2 ^ 53 ∨ r = 2 ^ 53 := by omega
    · obtain rfl : g = 0 := by omega
      rw [if_pos (by omega), show 0 * 2 ^ 52 + r = r by omega,
        show r / 2 ^ 52 - 1 = 0 by omega] at h
      exact h
    · rw [if_neg (by omega), show 2 ^ 52 + (g * 2 ^ 52 + r) % 2 ^ 52 = r by omega,
        show (g * 2 ^ 52 + r) / 2 ^ 52 - 1 = g by omega] at h
      exact h
    · rw [if_neg (by omega), show 2 ^ 52 + (g * 2 ^ 52 + 2 ^ 53) % 2 ^ 52 = 2 ^ 52 by omega,
        show (g * 2 ^ 52 + 2 ^ 53) / 2 ^ 52 - 1 = g + 1 by omega, ← two_pow_carry] at h
      exact h
  · rw [Nat.min_eq_left (by omega)] at hbits
    rw [hbits]
    have hinf : (Float.ofBits (UInt64.ofNat (2047 * 2 ^ 52))).toModel.unpack =
        .infinity .positive := rfl
    unfold Measures
    rw [hinf]
    refine .infinity ?_
    obtain ⟨hg, rfl⟩ | hg : 2046 ≤ g + 1 ∧ r = 2 ^ 53 ∨ 2046 ≤ g := by omega
    · rw [two_pow_carry]
      exact top_le hg (Nat.le_refl _)
    · exact top_le hg (hge (by omega))

end

/-! ## Operations -/

section
variable {x y : Float} {s t : Sign} {m n : Nat}

theorem le_log2_of_le {a b : Nat} (h : 2 ^ b ≤ a) : b ≤ a.log2 :=
  (Nat.le_log2 (Nat.ne_of_gt (Nat.lt_of_lt_of_le (Nat.two_pow_pos b) h))).2 h

/-- **A product** is rounded to the grid. -/
theorem Measures.mul (hx : Measures x s n) (hy : Measures y t m) (hn : n < top) (hm : m < top) :
    Measures (x * y) (s * t) (onGrid (n * m) one) := by
  refine measures_of_pack (u := .mul binary64 x.toModel.unpack y.toModel.unpack) rfl ?_
  unfold Measures at hx hy
  generalize x.toModel.unpack = u at hx
  generalize y.toModel.unpack = v at hy
  cases hx with
  | infinity h => exact absurd hn (Nat.not_lt.2 h)
  | zero s =>
    rw [Nat.zero_mul, onGrid_zero]
    cases hy with
    | infinity h => exact absurd hm (Nat.not_lt.2 h)
    | zero | finite => exact .zero _
  | @finite s p k e hp he hlt hc =>
    cases hy with
    | infinity h => exact absurd hm (Nat.not_lt.2 h)
    | zero =>
      rw [Nat.mul_zero, onGrid_zero]
      exact .zero _
    | @finite t q l e' hq he' hlt' hc' =>
      obtain ⟨j, hj, hone⟩ := exists_one
      have hle : e + e' ≤ max ((p * q).log2 + (e + e') - 52) (-1074) := by
        obtain h | h | ⟨rfl, rfl⟩ : 2 ^ 52 ≤ p ∨ 2 ^ 52 ≤ q ∨ k = 0 ∧ l = 0 := by omega
        · have := le_log2_of_le (Nat.le_trans h (Nat.le_mul_of_pos_right p hq))
          omega
        · have := le_log2_of_le (Nat.le_trans h (Nat.le_mul_of_pos_left q hp))
          omega
        · omega
      have hsize : onGrid (p * 2 ^ k * (q * 2 ^ l)) one =
          onGrid (p * q * 2 ^ (k + l)) (1 * 2 ^ j) := by
        rw [hone, Nat.one_mul, Nat.pow_add, Nat.mul_mul_mul_comm]
      rw [hsize]
      exact sized_roundWithAccuracy Nat.one_pos (holds_exact (p * q)) (by omega) hle

/-- A quotient is computed with zeros after the dividend: with so many that it has 53 binary digits,
    or that its exponent is the smallest of all. -/
theorem exists_divCore {p q : Nat} (e e' : Int) (hp : 0 < p) (hq : 0 < q) : ∃ k : Nat,
    divCore binary64 p e q e' =
      (p * 2 ^ k / q, e - e' - k, accuracyOfFraction (p * 2 ^ k % q) q) ∧
    e - e' - k ≤ max (((p * 2 ^ k / q).log2 : Int) + (e - e' - k) - 52) (-1074) := by
  have htarget : binary64.targetExponent (totalExponent p e - totalExponent q e') =
      max ((p.log2 : Int) - q.log2 + e - e' - 53) (-1074) := by
    show max (((p.log2 : Int) + 1 + e - (q.log2 + 1 + e')) - 53) (-1074) = _
    omega
  obtain ⟨k, hk⟩ : ∃ k : Nat, k = (e - e' - min (e - e')
    (max ((p.log2 : Int) - q.log2 + e - e' - 53) (-1074))).toNat := ⟨_, rfl⟩
  refine ⟨k, ?_, ?_⟩
  · unfold divCore
    dsimp only
    rw [htarget, ← hk, Nat.shiftLeft_eq]
    refine congrArg (Prod.mk _) (congrArg (Prod.mk · _) ?_)
    omega
  · obtain hmin | hdigits : e - e' - k ≤ -1074 ∨ 53 + q.log2 ≤ p.log2 + k := by omega
    · omega
    have hlog : 52 ≤ (p * 2 ^ k / q).log2 := by
      refine le_log2_of_le ((Nat.le_div_iff_mul_le hq).2 ?_)
      calc 2 ^ 52 * q
        _ ≤ 2 ^ 52 * 2 ^ (q.log2 + 1) := Nat.mul_le_mul_left _ (Nat.le_of_lt Nat.lt_log2_self)
        _ = 2 ^ (53 + q.log2) := by rw [← Nat.pow_add]; congr 1; omega
        _ ≤ 2 ^ (p.log2 + k) := Nat.pow_le_pow_right (by decide) hdigits
        _ = 2 ^ p.log2 * 2 ^ k := Nat.pow_add ..
        _ ≤ p * 2 ^ k := Nat.mul_le_mul_right _ (Nat.log2_self_le (Nat.ne_of_gt hp))
    omega

/-- **A quotient** is rounded to the grid. -/
theorem Measures.div (hx : Measures x s n) (hy : Measures y t m) (hn : n < top) (hm : m < top)
    (h0 : 0 < m) : Measures (x / y) (s / t) (onGrid (n * one) m) := by
  refine measures_of_pack (u := .div binary64 x.toModel.unpack y.toModel.unpack) rfl ?_
  unfold Measures at hx hy
  generalize x.toModel.unpack = u at hx
  generalize y.toModel.unpack = v at hy
  cases hy with
  | infinity h => exact absurd hm (Nat.not_lt.2 h)
  | zero => exact absurd h0 (Nat.lt_irrefl 0)
  | @finite t q l e' hq he' hlt' hc' =>
    cases hx with
    | infinity h => exact absurd hn (Nat.not_lt.2 h)
    | zero s =>
      rw [Nat.zero_mul, onGrid_zero]
      exact .zero _
    | @finite s p k e hp he hlt hc =>
      obtain ⟨j, hj, hone⟩ := exists_one
      obtain ⟨i, hcore, hle⟩ := exists_divCore e e' hp hq
      have hnum : p * 2 ^ i * 2 ^ (k + j) = p * 2 ^ k * one * 2 ^ i := by
        rw [hone, Nat.pow_add]
        ring
      have hden : q * 2 ^ (l + i) = q * 2 ^ l * 2 ^ i := by rw [Nat.pow_add, Nat.mul_assoc]
      unfold UnpackedFloat.div
      dsimp only
      rw [hcore, ← onGrid_mul_right (Nat.two_pow_pos i), ← hnum, ← hden]
      exact sized_roundWithAccuracy hq (holds_fraction _ hq) (by dsimp only; omega) hle

/-- A whole number and an exponent are rounded to the grid. -/
theorem sized_round {d k : Nat} {e : Int} (hd : 0 < d) (he : e = k - 1074) :
    Sized (UnpackedFloat.round binary64 s d e) s (onGrid (d * 2 ^ k) 1) := by
  obtain ⟨i, hi⟩ : ∃ i : Nat, i = (e - max (d.log2 + e - 52) (-1074)).toNat := ⟨_, rfl⟩
  have hlog : ((d * 2 ^ i).log2 : Int) = d.log2 + i := by rw [log2_mul_two_pow hd]; rfl
  unfold UnpackedFloat.round decreaseExponent
  dsimp only
  rw [targetExponent_eq, ← hi, Nat.shiftLeft_eq, ← onGrid_mul_right (Nat.two_pow_pos i),
    Nat.mul_right_comm]
  exact sized_roundWithAccuracy Nat.one_pos (holds_exact _) (by omega) (by omega)

/-- A difference of whole numbers and an exponent, if it is not negative. -/
theorem sized_normalize {a b k : Nat} {e : Int} (hle : b ≤ a) (he : e = k - 1074) :
    Sized (UnpackedFloat.normalize binary64 ((a : Int) - b) e .positive) .positive
      (onGrid ((a - b) * 2 ^ k) 1) := by
  obtain rfl | hlt := Nat.eq_or_lt_of_le hle
  · rw [Int.sub_self, Nat.sub_self, Nat.zero_mul, onGrid_zero]
    exact .zero _
  · have hgt : compare ((a : Int) - b) 0 = .gt := compare_gt_iff_gt.2 (by omega)
    have hd : ((a : Int) - b).toNat = a - b := by omega
    unfold UnpackedFloat.normalize
    rw [hgt, ← hd]
    exact sized_round (by omega) he

/-- **A difference** is rounded to the grid, if it is not negative. -/
theorem Measures.sub (hx : Measures x .positive n) (hy : Measures y .positive m) (hn : n < top)
    (hle : m ≤ n) : Measures (x - y) .positive (onGrid (n - m) 1) := by
  refine measures_of_pack (u := .sub binary64 x.toModel.unpack y.toModel.unpack) rfl ?_
  unfold Measures at hx hy
  generalize x.toModel.unpack = u at hx
  generalize y.toModel.unpack = v at hy
  generalize hs : Sign.positive = s at hx
  generalize ht : Sign.positive = t at hy
  cases hx with
  | infinity h => exact absurd hn (Nat.not_lt.2 h)
  | zero s =>
    cases hy with
    | infinity h => exact absurd hn (Nat.not_lt.2 (Nat.le_trans h hle))
    | zero =>
      subst hs ht
      rw [Nat.sub_zero, onGrid_zero]
      exact .zero _
    | @finite t q l e' hq he' hlt' hc' =>
      exact absurd hle (Nat.not_le.2 (Nat.mul_pos hq (Nat.two_pow_pos l)))
  | @finite s p k e hp he hlt hc =>
    cases hy with
    | infinity h => exact absurd hn (Nat.not_lt.2 (Nat.le_trans h hle))
    | zero =>
      subst hs
      rw [Nat.sub_zero, onGrid_of_double hlt]
      exact .finite he hlt hc
    | @finite t q l e' hq he' hlt' hc' =>
      subst hs ht
      obtain ⟨i, hi, hi'⟩ : ∃ i : Nat, i = min k l ∧ min e e' = i - 1074 := ⟨_, rfl, by omega⟩
      have hp' : p * 2 ^ k = p * 2 ^ (k - i) * 2 ^ i := by
        rw [Nat.mul_assoc, ← Nat.pow_add, Nat.sub_add_cancel (by omega)]
      have hq' : q * 2 ^ l = q * 2 ^ (l - i) * 2 ^ i := by
        rw [Nat.mul_assoc, ← Nat.pow_add, Nat.sub_add_cancel (by omega)]
      rw [hp', hq'] at hle ⊢
      unfold UnpackedFloat.sub decreaseExponent
      dsimp only
      rw [hi', Nat.shiftLeft_eq, Nat.shiftLeft_eq, ← Nat.sub_mul,
        show (e - (i - 1074)).toNat = k - i by omega, show (e' - (i - 1074)).toNat = l - i by omega]
      exact sized_normalize (Nat.le_of_mul_le_mul_right hle (Nat.two_pow_pos i)) rfl

/-- The sign of one float and the size of another. -/
theorem Measures.copySign (hx : Measures x s n) (y : Float) :
    Measures (copySign x y) (signOf y) n := by
  unfold Binary64.copySign withSign signOf
  cases isNegative y with
  | false => exact hx.abs
  | true => exact hx.abs.neg

/-- **Whole numbers** of 53 binary digits are floats. -/
theorem measures_ofInt {k : Nat} (hk : k < 2 ^ 53) : Measures (ofInt k) .positive (k * one) := by
  obtain ⟨j, -, hone⟩ := exists_one
  have h := @measures_nearest k 1 Nat.one_pos
  rw [hone, onGrid_of_double hk, ← hone] at h
  unfold ofInt withSign
  rw [if_neg (by simp), Int.natAbs_natCast]
  exact h

/-- A finite float is zero iff its size is. -/
theorem Measures.beq_zero_iff (hx : Measures x s n) : (x == 0) = true ↔ n = 0 := by
  rw [Binary64.beq_zero_iff]
  unfold Measures at hx
  generalize x.toModel.unpack = u at hx
  cases hx with
  | zero s => exact iff_of_true ⟨s, rfl⟩ rfl
  | infinity h =>
    refine iff_of_false nofun ?_
    rintro rfl
    exact absurd top_pos (Nat.not_lt.2 h)
  | @finite s m k e hm =>
    exact iff_of_false nofun (Nat.ne_of_gt (Nat.mul_pos hm (Nat.two_pow_pos k)))

/-! ## Comparisons -/

/-- Of two significands with their exponents the larger exponent is that of the larger float. -/
theorem lt_of_exponent_lt {p q k l : Nat} (hp : p < 2 ^ 53) (hq : 2 ^ 52 ≤ q ∨ l = 0) (h : k < l) :
    p * 2 ^ k < q * 2 ^ l :=
  calc p * 2 ^ k < 2 ^ 53 * 2 ^ k := Nat.mul_lt_mul_of_pos_right hp (Nat.two_pow_pos k)
    _ = 2 ^ 52 * 2 ^ (k + 1) := two_pow_carry k
    _ ≤ q * 2 ^ l := Nat.mul_le_mul (by omega) (Nat.pow_le_pow_right (by decide) h)

/-- **Comparing** floats that are not negative compares their sizes. -/
theorem Measures.le_iff (hx : Measures x .positive n) (hy : Measures y .positive m) (hn : n < top) :
    x ≤ y ↔ n ≤ m := by
  have hxy : x ≤ y ↔ x.toModel.unpack.le y.toModel.unpack = true := by
    show decide (x.toModel ≤ y.toModel) = true ↔ _
    rw [decide_eq_true_iff]
    rfl
  unfold Measures at hx hy
  rw [hxy]
  generalize x.toModel.unpack = u at hx
  generalize y.toModel.unpack = v at hy
  generalize hs : Sign.positive = s at hx
  generalize ht : Sign.positive = t at hy
  unfold UnpackedFloat.le
  cases hx with
  | infinity h => exact absurd hn (Nat.not_lt.2 h)
  | zero s =>
    subst hs
    cases hy with
    | infinity h =>
      subst ht
      exact iff_of_true rfl (Nat.zero_le _)
    | zero => exact iff_of_true rfl (Nat.le_refl _)
    | finite =>
      subst ht
      exact iff_of_true rfl (Nat.zero_le _)
  | @finite s p k e hp he hlt hc =>
    subst hs
    cases hy with
    | infinity h =>
      subst ht
      exact iff_of_true rfl (Nat.le_of_lt (Nat.lt_of_lt_of_le hn h))
    | zero =>
      exact iff_of_false Bool.false_ne_true (Nat.not_le.2 (Nat.mul_pos hp (Nat.two_pow_pos k)))
    | @finite t q l e' hq he' hlt' hc' =>
      subst ht
      show ((compare e e').then (compare p q)).isLE = true ↔ _
      obtain h | rfl | h := Nat.lt_trichotomy k l
      · rw [compare_lt_iff_lt.2 (by omega : e < e')]
        exact iff_of_true rfl (Nat.le_of_lt (lt_of_exponent_lt hlt hc' h))
      · rw [compare_eq_iff_eq.2 (by omega : e = e'), Nat.mul_le_mul_right_iff (Nat.two_pow_pos k)]
        exact Nat.isLE_compare
      · rw [compare_gt_iff_gt.2 (by omega : e' < e)]
        exact iff_of_false Bool.false_ne_true (Nat.not_le.2 (lt_of_exponent_lt hlt' hc h))

end

end Reckon.Binary64
