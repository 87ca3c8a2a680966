/-
  Rounding to decimal places.

  A float is multiplied by a power of ten, rounded to a whole number, and divided by the power.  If
  the product is small, the whole number is larger by a good part of it, and the quotient may be
  beyond the doubles where the float is not.

  * `wholeNearest`, `scaleSize`, `roundedSize`: the whole number, the power of ten, and what is
    computed of a float, by their sizes;
  * `roundHalfUp_eq`, `roundTo_measures`: rounding computes them;
  * `overshoots`: the numbers of places at which rounding goes beyond the doubles, each with the
    least float; `top_le_roundedSize_iff`: there are no others;
  * `text_mem_iff`: floats that are not finite are those that are written in letters;
  * `roundTo_finite_iff`: rounding keeps a finite float finite but for the overshoots.
-/
import Reckon.CommandLine.Run
import Reckon.Proofs.Nearest
import Reckon.Proofs.Numerals

namespace Reckon.Number

open Binary64
open Float.Model.UnpackedFloat (Sign)

/-! ## Whole numbers -/

/-- The whole number nearest to a size, halves upward. -/
def wholeNearest (n : Nat) : Nat := (2 * n + one) / (2 * one)

section
variable {x : Float} {n m : Nat}

theorem one_even : one = 2 * (one / 2) := by
  obtain ⟨j, hj, hone⟩ := exists_one
  rw [hone, show j = j - 1 + 1 by omega, Nat.pow_succ]
  omega

theorem wholeFrom_lt_top : 2 ^ 52 * one < top := by
  obtain ⟨j, hj, hone⟩ := exists_one
  obtain ⟨k, hk, htop⟩ := exists_top
  rw [hone, htop]
  exact Nat.mul_lt_mul_of_lt_of_le (by decide) (Nat.pow_le_pow_right (by decide) (by omega))
    (Nat.two_pow_pos k)

theorem wholeNearest_mono (h : n ≤ m) : wholeNearest n ≤ wholeNearest m :=
  Nat.div_le_div_right (Nat.add_le_add_right (Nat.mul_le_mul_left 2 h) one)

/-- The whole part, or one more from a half on. -/
theorem wholeNearest_eq (n : Nat) :
    wholeNearest n = if one / 2 ≤ n % one then n / one + 1 else n / one := by
  have hone := one_even
  have hdiv := Nat.div_add_mod n one
  have hmod := Nat.mod_lt n one_size_pos
  unfold wholeNearest
  generalize n / one = q at *
  generalize n % one = r at *
  have hmul : ∀ k, k * (2 * one) = 2 * (one * k) := fun k => by ring
  have hmul' : one * (q + 1) = one * q + one := Nat.mul_succ one q
  have hmul'' : one * (q + 1 + 1) = one * q + one + one := by ring
  split
  · refine Nat.div_eq_of_lt_le ?_ ?_ <;> rw [hmul] <;> omega
  · refine Nat.div_eq_of_lt_le ?_ ?_ <;> rw [hmul] <;> omega

/-- What is less than a whole number is rounded to it at most. -/
theorem wholeNearest_le (h : n < m * one) : wholeNearest n ≤ m := by
  refine Nat.le_of_lt_succ ((Nat.div_lt_iff_lt_mul (Nat.mul_pos Nat.two_pos one_size_pos)).2 ?_)
  have hmul : (m + 1) * (2 * one) = 2 * (m * one) + 2 * one := by ring
  rw [hmul]
  omega

theorem wholeNearest_of_lt_half (h : n < one / 2) : wholeNearest n = 0 := by
  have hone := one_even
  exact Nat.div_eq_of_lt (by omega)

/-- The floats that rounding compares with. -/
theorem measures_bounds :
    Measures 0.5 .positive (one / 2) ∧ Measures wholeFrom .positive (2 ^ 52 * one) := by
  have hall : (Float.isFinite 0.5 = true ∧ isNegative 0.5 = false ∧ magnitude 0.5 = one / 2) ∧
      wholeFrom.isFinite = true ∧ isNegative wholeFrom = false ∧
        magnitude wholeFrom = 2 ^ 52 * one := by decide +kernel
  obtain ⟨⟨hf, hs, hm⟩, hf', hs', hm'⟩ := hall
  exact ⟨measures_of_magnitude hf hs hm, measures_of_magnitude hf' hs' hm'⟩

/-- The fraction of a float is a float. -/
theorem onGrid_fraction (hx : Measures x .positive n) (hn : n < top) :
    onGrid (n % one) 1 = n % one := by
  obtain ⟨j, -, hone⟩ := exists_one
  unfold Measures at hx
  generalize x.toModel.unpack = u at hx
  cases hx with
  | zero => rw [Nat.zero_mod, onGrid_zero]
  | infinity h => exact absurd hn (Nat.not_lt.2 h)
  | @finite s m k e hm he hlt _ =>
    rw [hone]
    obtain hkj | hjk := Nat.le_total k j
    · have hsplit : 2 ^ j = 2 ^ (j - k) * 2 ^ k := by rw [← Nat.pow_add, Nat.sub_add_cancel hkj]
      rw [hsplit, Nat.mul_mod_mul_right]
      exact onGrid_of_double (Nat.lt_of_le_of_lt (Nat.mod_le _ _) hlt)
    · rw [Nat.mod_eq_zero_of_dvd (Dvd.dvd.mul_left (Nat.pow_dvd_pow 2 hjk) m), onGrid_zero]

/-- **Rounding** to a whole number, halves upward. -/
theorem roundHalfUp_eq (hx : Measures x .positive n) (hn : n < 2 ^ 52 * one) :
    roundHalfUp x = ofInt (wholeNearest n) := by
  have htop := wholeFrom_lt_top
  have hpart : n / one < 2 ^ 52 := (Nat.div_lt_iff_lt_mul one_size_pos).2 hn
  have hsign : isNegative x = false := by
    have h := hx.signOf_eq (Nat.lt_trans hn htop)
    simpa [signOf] using h
  have htruncate : truncate x = (n / one : Nat) := by
    rw [truncate, hsign, hx.magnitude_eq (Nat.lt_trans hn htop)]
    rfl
  have hbelow : Measures (ofInt (n / one : Nat)) .positive (n / one * one) :=
    measures_ofInt (Nat.lt_trans hpart (by decide))
  have hrest : Measures (x - ofInt (n / one : Nat)) .positive (n % one) := by
    have h := hx.sub hbelow (Nat.lt_trans hn htop) (Nat.div_mul_le_self n one)
    have hmod : n - n / one * one = n % one := by
      have := Nat.div_add_mod' n one
      omega
    rwa [hmod, onGrid_fraction hx (Nat.lt_trans hn htop)] at h
  have hhalf : x - ofInt (n / one : Nat) ≥ 0.5 ↔ one / 2 ≤ n % one :=
    measures_bounds.1.le_iff hrest (by omega)
  unfold roundHalfUp
  simp only [htruncate, hhalf]
  rw [wholeNearest_eq]
  split <;> rfl

end

/-! ## Sizes -/

/-- The size of the float nearest to a power of ten. -/
def nearestSize (places : Int) : Nat := onGrid (10 ^ places.toNat * one) (10 ^ (-places).toNat)

/-- The size of the float that a power of ten is computed as. -/
def scaleSize (places : Int) : Nat :=
  if places ∈ roundedUp then magnitude (tenTo places) else nearestSize places

/-- The size that rounding to decimal places makes of a size. -/
def roundedSize (places : Int) (n : Nat) : Nat :=
  let scale := scaleSize places
  let scaled := onGrid (n * scale) one
  if scale = 0 then 0
  else if 2 ^ 52 * one ≤ scaled then n
  else onGrid (wholeNearest scaled * one * one) scale

section
variable {value : Float} {places p q : Int} {n m : Nat} {s : Sign}

theorem nearestSize_mono (h : p ≤ q) : nearestSize p ≤ nearestSize q := by
  refine onGrid_le_onGrid (Nat.pow_pos (by decide)) (Nat.pow_pos (by decide)) ?_
  rw [Nat.mul_right_comm, ← Nat.pow_add, Nat.mul_right_comm, ← Nat.pow_add]
  exact Nat.mul_le_mul_right one (Nat.pow_le_pow_right (by decide) (by omega))

/-- A power of ten that is rounded up does not reach the next power. -/
theorem roundedUp_bounds : ∀ p ∈ roundedUp, (tenTo p).isFinite = true ∧
    isNegative (tenTo p) = false ∧ nearestSize p ≤ magnitude (tenTo p) ∧
    magnitude (tenTo p) ≤ nearestSize (p + 1) := by
  decide +kernel

theorem scaleSize_bounds (p : Int) :
    nearestSize p ≤ scaleSize p ∧ scaleSize p ≤ nearestSize (p + 1) := by
  unfold scaleSize
  split
  · exact (roundedUp_bounds p ‹_›).2.2
  · exact ⟨Nat.le_refl _, nearestSize_mono (by omega)⟩

theorem scaleSize_mono (h : p ≤ q) : scaleSize p ≤ scaleSize q := by
  obtain rfl | hlt : p = q ∨ p + 1 ≤ q := by omega
  · exact Nat.le_refl _
  · calc scaleSize p ≤ nearestSize (p + 1) := (scaleSize_bounds p).2
      _ ≤ nearestSize q := nearestSize_mono hlt
      _ ≤ scaleSize q := (scaleSize_bounds q).1

/-- The largest power of ten is a double, one that is not too small divides all whole numbers of 53
    digits, and what is scaled by one that is too small is less than a half. -/
theorem scaleSize_ends : scaleSize 308 < top ∧
    2 ^ 52 * one * one < overflowFrom * one * scaleSize (-292) ∧
    onGrid (top * scaleSize (-309)) one < one / 2 := by
  decide +kernel

theorem scaleSize_lt_top (h : p ≤ 308) : scaleSize p < top :=
  Nat.lt_of_le_of_lt (scaleSize_mono h) scaleSize_ends.1

theorem measures_tenTo (places : Int) : Measures (tenTo places) .positive (scaleSize places) := by
  unfold scaleSize
  split
  · obtain ⟨hf, hs, -⟩ := roundedUp_bounds places ‹_›
    exact measures_of_magnitude hf hs rfl
  · rename_i hmem
    have hten : tenTo places = nearest (1 * 10 ^ places.toNat) (10 ^ (-places).toNat) := by
      rw [tenTo, if_neg hmem]
      rfl
    rw [hten, Nat.one_mul]
    exact measures_nearest (Nat.pow_pos (by decide))

theorem measures_zero : Measures 0 .positive 0 := .zero .positive

theorem ok_bind {α β ε : Type} (a : α) (f : α → Except ε β) : (Except.ok a >>= f) = f a := rfl

/-- What is computed of a finite float, if there is a power of ten. -/
theorem roundTo_eq (hv : value.isFinite = true) (hl : -400 ≤ places) (hu : places ≤ 308) :
    roundTo value places =
      if (tenTo places == 0) = true then pure (copySign 0 value)
      else if value.abs * tenTo places ≥ wholeFrom then pure value
      else pure (copySign (roundHalfUp (value.abs * tenTo places)) value /
        tenTo places) := by
  have hof : scaleOf places = .ok (tenTo places) := by
    rw [scaleOf, if_neg]
    show ¬ places < -400
    omega
  have hmost : ¬ places > mostPlaces := by
    show ¬ places > 308
    omega
  unfold roundTo
  rw [hof, hv, if_neg (by simp [hmost]), ok_bind]

/-- **Rounding to decimal places** makes a size of a size, and keeps the sign. -/
theorem roundTo_measures (hv : value.isFinite = true) (hl : -400 ≤ places) (hu : places ≤ 308) :
    ∃ r, roundTo value places = .ok r ∧
      Measures r (signOf value) (roundedSize places (magnitude value)) := by
  have hx := measures_of_isFinite hv
  have hn := hx.isFinite_iff.1 hv
  have hs := measures_tenTo places
  have hscale := scaleSize_lt_top hu
  have hscaled := hx.abs.mul hs hn hscale
  have hwhole : value.abs * tenTo places ≥ wholeFrom ↔
      2 ^ 52 * one ≤ onGrid (magnitude value * scaleSize places) one :=
    measures_bounds.2.le_iff hscaled wholeFrom_lt_top
  rw [roundTo_eq hv hl hu, roundedSize]
  by_cases h0 : scaleSize places = 0
  · rw [if_pos h0, if_pos (hs.beq_zero_iff.2 h0)]
    exact ⟨_, rfl, measures_zero.copySign value⟩
  rw [if_neg h0, if_neg (mt hs.beq_zero_iff.1 h0)]
  simp only [hwhole]
  by_cases hw : 2 ^ 52 * one ≤ onGrid (magnitude value * scaleSize places) one
  · rw [if_pos hw, if_pos hw]
    exact ⟨_, rfl, hx⟩
  · rw [if_neg hw, if_neg hw, roundHalfUp_eq hscaled (Nat.lt_of_not_le hw)]
    have hle : wholeNearest (onGrid (magnitude value * scaleSize places) one) ≤ 2 ^ 52 :=
      wholeNearest_le (Nat.lt_of_not_le hw)
    have hint := (measures_ofInt (Nat.lt_of_le_of_lt hle (by decide))).copySign value
    have hsign : signOf value / Sign.positive = signOf value := by cases signOf value <;> rfl
    have hdiv := hint.div hs ?_ hscale (Nat.pos_of_ne_zero h0)
    · rw [hsign] at hdiv
      exact ⟨_, rfl, hdiv⟩
    · exact Nat.lt_of_le_of_lt (Nat.mul_le_mul_right one hle) wholeFrom_lt_top

/-! ## Beyond the doubles -/

/-- The numbers of decimal places at which rounding may go beyond the doubles, each with the least
    float that it takes there. -/
def overshoots : List (Int × Float) :=
  [(-308, 1.5000000000000002e308), (-307, 1.75e308), (-306, 1.795e308), (-305, 1.7975e308),
    (-304, 1.79765e308), (-299, 1.7976931345e308), (-298, 1.79769313485e308),
    (-294, 1.797693134862315e308), (-293, 1.7976931348623153e308)]

/-- The distance between the largest doubles. -/
def lastGap : Nat := 2 ^ 2045

theorem exists_lastGap : ∃ j : Nat, j = 2045 ∧ lastGap = 2 ^ j := ⟨_, rfl, rfl⟩

theorem two_pow_lastGap : 2 ^ 53 * lastGap = top := by
  obtain ⟨j, hj, hgap⟩ := exists_lastGap
  obtain ⟨k, hk, htop⟩ := exists_top
  rw [hgap, htop, hj, hk]

/-- Rounding makes no less of more, where what is scaled has a fraction at all. -/
theorem roundedSize_mono (hm : onGrid (m * scaleSize p) one < 2 ^ 52 * one) (h : n ≤ m) :
    roundedSize p n ≤ roundedSize p m := by
  have hscaled : onGrid (n * scaleSize p) one ≤ onGrid (m * scaleSize p) one :=
    onGrid_mono one_size_pos (Nat.mul_le_mul_right _ h)
  unfold roundedSize
  dsimp only
  split
  · exact Nat.le_refl 0
  rename_i h0
  rw [if_neg (Nat.not_le.2 (Nat.lt_of_le_of_lt hscaled hm)), if_neg (Nat.not_le.2 hm)]
  refine onGrid_mono (Nat.pos_of_ne_zero h0) ?_
  exact Nat.mul_le_mul_right one (Nat.mul_le_mul_right one (wholeNearest_mono hscaled))

/-- By a power of ten that is not too small all whole numbers are divided. -/
theorem roundedSize_lt_top_of_ge (hp : -292 ≤ p) (hn : n < top) : roundedSize p n < top := by
  unfold roundedSize
  dsimp only
  split
  · exact Nat.lt_of_le_of_lt (Nat.zero_le n) hn
  rename_i h0
  split
  · exact hn
  rename_i hw
  rw [onGrid_lt_top_iff (Nat.pos_of_ne_zero h0)]
  refine Nat.lt_of_le_of_lt ?_ (Nat.lt_of_lt_of_le scaleSize_ends.2.1 ?_)
  · have hv := wholeNearest_le (Nat.lt_of_not_le hw)
    exact Nat.mul_le_mul_right one (Nat.mul_le_mul_right one hv)
  · exact Nat.mul_le_mul_left _ (scaleSize_mono hp)

/-- By a power of ten that is too small everything is rounded to zero. -/
theorem roundedSize_lt_top_of_le (hp : p ≤ -309) (hn : n < top) : roundedSize p n < top := by
  have hscaled : onGrid (n * scaleSize p) one ≤ onGrid (top * scaleSize (-309)) one :=
    onGrid_mono one_size_pos (Nat.mul_le_mul (Nat.le_of_lt hn) (scaleSize_mono hp))
  unfold roundedSize
  dsimp only
  split
  · exact top_pos
  split
  · exact hn
  · rw [wholeNearest_of_lt_half (Nat.lt_of_le_of_lt hscaled scaleSize_ends.2.2), Nat.zero_mul,
      Nat.zero_mul, onGrid_zero]
    exact top_pos

/-- A double that is less than one of the largest is less by their distance. -/
theorem le_sub_lastGap (hx : Measures value s n) (hn : n < top) (hm : 2 ^ 52 < m)
    (h : n < m * lastGap) : n ≤ (m - 1) * lastGap := by
  obtain ⟨j, hj, hgap⟩ := exists_lastGap
  unfold Measures at hx
  generalize hu : value.toModel.unpack = u at hx
  rw [hgap] at h ⊢
  cases hx with
  | zero => exact Nat.zero_le _
  | infinity hle => exact absurd hn (Nat.not_lt.2 hle)
  | @finite s p k e hp he hlt hc =>
    have := exponent_of_unpack hu
    obtain rfl | hk : k = j ∨ k < j := by omega
    · have hlt := Nat.lt_of_mul_lt_mul_right h
      exact Nat.mul_le_mul_right _ (by omega)
    · have hlt := lt_of_exponent_lt (q := 2 ^ 52) hlt (.inl (Nat.le_refl _)) hk
      exact Nat.le_trans (Nat.le_of_lt hlt) (Nat.mul_le_mul_right _ (by omega))

/-- A float is the least that rounding takes beyond the doubles: one of the largest, and the one
    before is not taken there. -/
structure IsLeast (p : Int) (t : Float) : Prop where
  isFinite : t.isFinite = true
  signOf : signOf t = .positive
  lower : -308 ≤ p
  upper : p ≤ -293
  magnitude : ∃ m, 2 ^ 52 < m ∧ magnitude t = m * lastGap ∧ top ≤ roundedSize p (m * lastGap) ∧
    roundedSize p ((m - 1) * lastGap) < top

theorem isLeast_of_mem {t : Float} (h : (p, t) ∈ overshoots) : IsLeast p t := by
  have hall : ∀ e ∈ overshoots, e.2.isFinite = true ∧ isNegative e.2 = false ∧ -308 ≤ e.1 ∧
      e.1 ≤ -293 ∧ 2 ^ 52 < magnitude e.2 / lastGap ∧
      magnitude e.2 = magnitude e.2 / lastGap * lastGap ∧
      top ≤ roundedSize e.1 (magnitude e.2 / lastGap * lastGap) ∧
      roundedSize e.1 ((magnitude e.2 / lastGap - 1) * lastGap) < top := by decide +kernel
  obtain ⟨hf, hs, hl, hu, hm, hd, ht, hb⟩ := hall _ h
  exact ⟨hf, by rw [Binary64.signOf, hs]; rfl, hl, hu, _, hm, hd, ht, hb⟩

/-- At these numbers of places what is scaled has a fraction, and but for the listed ones even the
    largest double is kept. -/
theorem between_ends (hl : -308 ≤ p) (hu : p ≤ -293) :
    onGrid (top * scaleSize p) one < 2 ^ 52 * one ∧
      ((∀ t, (p, t) ∉ overshoots) → roundedSize p ((2 ^ 53 - 1) * lastGap) < top) := by
  have hall : ∀ i : Nat, i < 16 → onGrid (top * scaleSize (i - 308)) one < 2 ^ 52 * one ∧
      ((∀ e ∈ overshoots, e.1 ≠ i - 308) →
        roundedSize (i - 308) ((2 ^ 53 - 1) * lastGap) < top) := by decide +kernel
  have hp := hall (p + 308).toNat (by omega)
  rw [show ((p + 308).toNat : Int) - 308 = p by omega] at hp
  exact ⟨hp.1, fun h => hp.2 fun e he heq => h e.2 (heq ▸ he)⟩

/-- **What is rounded beyond the doubles**, by size. -/
theorem top_le_roundedSize_iff (hx : Measures value s n) (hn : n < top) :
    top ≤ roundedSize p n ↔ ∃ t, (p, t) ∈ overshoots ∧ magnitude t ≤ n := by
  -- where something is taken beyond the doubles, more is taken there
  have hmono : ∀ m k, -308 ≤ p → p ≤ -293 → m ≤ k → k ≤ top → roundedSize p m ≤ roundedSize p k :=
    fun m k hl hu hmk hk => by
      refine roundedSize_mono (Nat.lt_of_le_of_lt ?_ (between_ends hl hu).1) hmk
      exact onGrid_mono one_size_pos (Nat.mul_le_mul_right _ hk)
  constructor
  · intro h
    have hl : -308 ≤ p := by
      by_contra hlt
      exact absurd (roundedSize_lt_top_of_le (p := p) (by omega) hn) (Nat.not_lt.2 h)
    have hu : p ≤ -293 := by
      by_contra hlt
      exact absurd (roundedSize_lt_top_of_ge (p := p) (by omega) hn) (Nat.not_lt.2 h)
    by_contra hnone
    by_cases hex : ∃ t, (p, t) ∈ overshoots
    · obtain ⟨t, ht⟩ := hex
      have hleast := isLeast_of_mem ht
      have htop : magnitude t < top :=
        (measures_of_isFinite hleast.isFinite).isFinite_iff.1 hleast.isFinite
      obtain ⟨m, hm, hmag, -, hbefore⟩ := hleast.magnitude
      have hlt : n < m * lastGap := by
        rw [← hmag]
        exact Nat.lt_of_not_le fun hle => hnone ⟨t, ht, hle⟩
      have hle := le_sub_lastGap hx hn hm hlt
      have hm1 : (m - 1) * lastGap ≤ m * lastGap := Nat.mul_le_mul_right _ (Nat.sub_le m 1)
      have hle' := hmono n _ hl hu hle (by omega)
      omega
    · have hle := le_sub_lastGap hx hn (by decide) (Nat.lt_of_lt_of_eq hn two_pow_lastGap.symm)
      have hlast := (between_ends hl hu).2 fun t ht => hex ⟨t, ht⟩
      have hm1 : (2 ^ 53 - 1) * lastGap ≤ top := by
        rw [← two_pow_lastGap]
        exact Nat.mul_le_mul_right _ (Nat.sub_le _ 1)
      have hle' := hmono n _ hl hu hle (by omega)
      omega
  · rintro ⟨t, ht, hle⟩
    obtain ⟨hf, hs, hl, hu, m, hm, hmag, htop, -⟩ := isLeast_of_mem ht
    rw [hmag] at hle
    exact Nat.le_trans htop (hmono _ _ hl hu hle (Nat.le_of_lt hn))

end

/-! ## Texts -/

section
variable {d : Decimal.Digits} {n : Nat} {x : Float}

theorem n_not_mem_natDigits : 'n' ∉ Decimal.natDigits n := fun h => by
  have hd : Text.isDigit 'n' = false := by decide
  rw [isDigit_of_mem_natDigits h] at hd
  cases hd

theorem n_not_mem_positional (h : 'n' ∉ d.digits) : 'n' ∉ Decimal.positional d := by
  have ht : 'n' ∉ d.digits.take d.point.toNat := fun hm => h (List.mem_of_mem_take hm)
  have hd : 'n' ∉ d.digits.drop d.point.toNat := fun hm => h (List.mem_of_mem_drop hm)
  unfold Decimal.positional
  split
  · simp [h]
  · dsimp only
    split <;> simp [ht, hd]

theorem n_not_mem_scientific {k : Nat} (h : 'n' ∉ d.digits) : 'n' ∉ Decimal.scientific k d := by
  have hsign : 'n' ≠ if d.point - 1 < 0 then '-' else '+' := by split <;> decide
  have hpad : 'n' ∉ (Decimal.natDigits (d.point - 1).natAbs).leftpad k '0' := by
    simp [List.leftpad, n_not_mem_natDigits]
  unfold Decimal.scientific
  dsimp only
  split <;> simp_all

theorem n_not_mem_shortest (i : Decimal.Interval) (k : Nat) : 'n' ∉ (i.shortest k).digits := by
  unfold Decimal.Interval.shortest
  dsimp only
  cases hs : (List.range k).findSome? _ with
  | none => simp
  | some d =>
    obtain ⟨a, -, ha⟩ := List.exists_of_findSome?_eq_some hs
    obtain ⟨m, -, rfl⟩ := Option.map_eq_some_iff.1 ha
    intro hm
    have hm := List.mem_reverse.1 hm
    exact n_not_mem_natDigits (List.mem_reverse.1 ((List.dropWhile_suffix _).subset hm))

theorem isFinite_eq (x : Float) : x.isFinite = (!x.isNaN && !x.isInf) := by
  show x.toModel.unpack.isFinite = (!x.toModel.unpack.isNaN && !x.toModel.unpack.isInf)
  cases x.toModel.unpack <;> rfl

theorem n_not_mem_digits (h : x.isFinite = true) : 'n' ∉ digits x := by
  rw [isFinite_eq, Bool.and_eq_true, Bool.not_eq_true', Bool.not_eq_true'] at h
  have hsign : 'n' ∉ if isNegative x = true then ['-'] else [] := by split <;> decide
  unfold digits
  rw [h.1, h.2, if_neg Bool.false_ne_true, if_neg Bool.false_ne_true]
  split <;> rw [List.mem_append, not_or]
  · exact ⟨hsign, by decide⟩
  · refine ⟨hsign, ?_⟩
    unfold Decimal.Layout.write
    split
    · exact n_not_mem_positional (n_not_mem_shortest _ _)
    · exact n_not_mem_scientific (n_not_mem_shortest _ _)

/-- **A finite float is written in digits**, one that is not finite in letters. -/
theorem text_mem_iff : Binary64.text x ∈ ["inf", "-inf", "nan"] ↔ x.isFinite = false := by
  constructor
  · intro h
    by_contra hf
    have hn : 'n' ∈ (Binary64.text x).toList := by
      simp only [List.mem_cons, List.not_mem_nil, or_false] at h
      rcases h with h | h | h <;> rw [h] <;> decide
    rw [Binary64.text, String.toList_ofList] at hn
    exact n_not_mem_digits (by simpa using hf) hn
  · intro h
    rw [Binary64.text, digits]
    cases hn : x.isNaN with
    | true =>
      rw [if_pos rfl]
      decide
    | false =>
      have hi : x.isInf = true := by
        rwa [isFinite_eq, hn, Bool.not_false, Bool.true_and, Bool.not_eq_false'] at h
      rw [if_neg Bool.false_ne_true, hi, if_pos rfl]
      cases isNegative x <;> decide

end

/-! ## Finite floats -/

section
variable {value : Float} {places : Int}

/-- **What is rounded beyond the doubles.** -/
theorem isFinite_roundTo (hv : value.isFinite = true) (hl : -400 ≤ places) :
    ∃ r, roundTo value places = .ok r ∧ r.isNaN = false ∧
      (r.isFinite = false ↔ ∃ t, (places, t) ∈ overshoots ∧ t ≤ value.abs) := by
  have hx := measures_of_isFinite hv
  have hn := hx.isFinite_iff.1 hv
  have hcompare : ∀ t, (places, t) ∈ overshoots → (t ≤ value.abs ↔ magnitude t ≤ magnitude value) :=
    fun t ht => by
      obtain ⟨hf, hs, -, -, -⟩ := isLeast_of_mem ht
      have ht' := measures_of_isFinite hf
      rw [hs] at ht'
      exact ht'.le_iff hx.abs (ht'.isFinite_iff.1 hf)
  by_cases hu : places ≤ 308
  · obtain ⟨r, hr, hm⟩ := roundTo_measures hv hl hu
    refine ⟨r, hr, hm.isNaN, ?_⟩
    rw [Bool.eq_false_iff, Ne, hm.isFinite_iff, Nat.not_lt, top_le_roundedSize_iff hx hn]
    exact exists_congr fun t => and_congr_right fun ht => (hcompare t ht).symm
  · refine ⟨value, ?_, hx.isNaN, ?_⟩
    · have hmost : places > mostPlaces := by
        show 308 < places
        omega
      rw [roundTo, if_pos (by simp [hmost])]
    · rw [hv]
      refine iff_of_false (by simp) ?_
      rintro ⟨t, ht, -⟩
      have := (isLeast_of_mem ht).upper
      omega

/-- A float that is printed with a number of decimal places is rounded to them. -/
theorem render_of_toFloat {o : CommandLine.Options} {n : Number} {r : Float}
    (ho : o.precision = .places places) (hf : (o.float || !n.isInteger) = true)
    (hn : n.toFloat = .ok value) (hr : roundTo value places = .ok r) :
    CommandLine.Calculator.render o n = .ok (Binary64.text r) := by
  rw [CommandLine.Calculator.render, if_pos hf, hn, ho]
  show (do return Binary64.text (← Failure.ofFault (roundTo value places)) :
    Except Failure String) = _
  rw [hr]
  rfl

/-- **Rounding keeps finite floats finite**, but for large ones at nine numbers of decimal places,
    which become infinite.  So a finite answer is printed in digits, but for these. -/
theorem roundTo_finite_iff (hv : value.isFinite = true) (hl : -400 ≤ places) :
    (∃ r, roundTo value places = .ok r ∧ r.isNaN = false ∧
      (r.isFinite = false ↔ ∃ t, (places, t) ∈ overshoots ∧ t ≤ value.abs)) ∧
    ∀ (o : CommandLine.Options) (n : Number), o.precision = .places places →
      (o.float || !n.isInteger) = true → n.toFloat = .ok value →
        ∃ line, CommandLine.Calculator.render o n = .ok line ∧
          (line ∈ ["inf", "-inf", "nan"] ↔ ∃ t, (places, t) ∈ overshoots ∧ t ≤ value.abs) := by
  obtain ⟨r, hr, hnan, hfin⟩ := isFinite_roundTo hv hl
  refine ⟨⟨r, hr, hnan, hfin⟩, fun o n ho hf hn => ⟨_, render_of_toFloat ho hf hn hr, ?_⟩⟩
  rw [text_mem_iff, hfin]

/-- At hundreds of places before the point: `1.5e308` is rounded down to `1e308`, and from the next
    float on to `2e308`, which is no double. -/
theorem roundTo_finite_iff_halfway :
    let o : CommandLine.Options := ⟨none, [], false, .places (-308), false⟩
    (1.5e308 : Float).isFinite = true ∧ (-400 : Int) ≤ -308 ∧
      roundTo 1.5e308 (-308) = .ok 1e308 ∧
      (∃ r, roundTo 1.5e308 (-308) = .ok r ∧ r.isNaN = false ∧
        (r.isFinite = false ↔ ∃ t, (-308, t) ∈ overshoots ∧ t ≤ (1.5e308 : Float).abs)) ∧
      o.precision = .places (-308) ∧ (o.float || !(Number.float 1.5e308).isInteger) = true ∧
      (Number.float 1.5e308).toFloat = .ok 1.5e308 ∧
      ∃ line, CommandLine.Calculator.render o (.float 1.5e308) = .ok line ∧
        (line ∈ ["inf", "-inf", "nan"] ↔
          ∃ t, (-308, t) ∈ overshoots ∧ t ≤ (1.5e308 : Float).abs) := by
  intro o
  have hv : (1.5e308 : Float).isFinite = true := by decide +kernel
  have hl : (-400 : Int) ≤ -308 := by decide
  have hr : roundTo 1.5e308 (-308) = .ok 1e308 := by decide +kernel
  have h := roundTo_finite_iff hv hl
  exact ⟨hv, hl, hr, h.1, rfl, rfl, rfl, h.2 o (.float 1.5e308) rfl rfl rfl⟩

/-- A finite float that is rounded to infinity, and printed so. -/
theorem roundTo_beyond :
    (1.7e308 : Float).isFinite = true ∧
      (∃ r, roundTo 1.7e308 (-308) = .ok r ∧ r.isFinite = false) ∧
      CommandLine.run ["-p", "-308", "1.7 * 10 ^ 308"] "" false .first =
        ⟨⟨"inf\n", ""⟩, .status 0⟩ := by
  have hr : roundTo 1.7e308 (-308) = .ok (1 / 0) := by decide +kernel
  exact ⟨by decide +kernel, ⟨_, hr, by decide +kernel⟩, by decide +kernel⟩

end

end Reckon.Number
