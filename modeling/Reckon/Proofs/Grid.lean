/-
  The grid of the doubles.

  In the unit `2 ^ -1074` the finite doubles are whole numbers: below `2 ^ 53` all of them, and from
  there on multiples of a spacing that doubles with every power of two.  A quotient is rounded to
  the grid, to an even multiple if two are equally near.

  * `roundDiv_mono`, `roundDiv_mul`: rounding to whole numbers;
  * `gap`, `onGrid`: the spacing at a quotient, and the quotient rounded to the grid;
  * `Suits`, `onGrid_eq`: the quotient on the grid, by any spacing that suits it;
  * `onGrid_mono`, `onGrid_le_onGrid`: a larger quotient is not rounded to less;
    `onGrid_of_double`: what is on the grid stays;
  * `top`, `onGrid_lt_top_iff`: the end of the doubles, and what is rounded to less.
-/
import Reckon.Proofs.Widening

namespace Reckon.Binary64

variable {num num' den m n k g : Nat}

/-! ## Whole numbers -/

theorem roundDiv_mul (hden : 0 < den) : roundDiv (m * den) den = m := by
  unfold roundDiv
  dsimp only
  rw [Nat.mul_div_cancel m hden, Nat.mul_mod_left, if_neg]
  omega

/-- A larger numerator is not rounded to less. -/
theorem roundDiv_mono (h : num ≤ num') : roundDiv num den ≤ roundDiv num' den := by
  have hq : num / den ≤ num' / den := Nat.div_le_div_right h
  have hn := Nat.div_add_mod num den
  have hn' := Nat.div_add_mod num' den
  unfold roundDiv
  dsimp only
  obtain heq | hlt := Nat.eq_or_lt_of_le hq
  · rw [heq] at hn ⊢
    have hr : num % den ≤ num' % den := by omega
    split <;> split <;> omega
  · split <;> split <;> omega

theorem le_roundDiv (hden : 0 < den) (h : m * den ≤ num) : m ≤ roundDiv num den := by
  rw [← @roundDiv_mul den m hden]
  exact roundDiv_mono h

theorem roundDiv_le (hden : 0 < den) (h : num ≤ m * den) : roundDiv num den ≤ m := by
  rw [← @roundDiv_mul den m hden]
  exact roundDiv_mono h

/-! ## The grid -/

/-- The spacing of the doubles at `num / den` is two to this power. -/
def gap (num den : Nat) : Nat := (num / den).log2 - 52

/-- The multiple of the spacing that is nearest to `num / den`. -/
def onGrid (num den : Nat) : Nat := roundDiv num (den * 2 ^ gap num den) * 2 ^ gap num den

@[simp]
theorem onGrid_zero : onGrid 0 den = 0 := by
  simp [onGrid, gap, roundDiv]

/-- A significand that is rounded up to 54 digits has 53 before the next spacing. -/
theorem two_pow_carry (g : Nat) : 2 ^ 53 * 2 ^ g = 2 ^ 52 * 2 ^ (g + 1) := by
  rw [Nat.pow_succ 2 g]
  omega

/-- Two to the 1024, where the doubles end. -/
def top : Nat := 2 ^ 1024 * one

/-- One in the unit, the exponent being given a name so that its power stays as it is. -/
theorem exists_one : ∃ j : Nat, j = 1074 ∧ one = 2 ^ j := ⟨_, rfl, rfl⟩

/-- The end of the doubles by their last spacing. -/
theorem exists_top : ∃ j : Nat, j = 2045 ∧ top = 2 ^ 53 * 2 ^ j := by
  obtain ⟨i, hi, hone⟩ := exists_one
  obtain ⟨k, hk, htop⟩ : ∃ k : Nat, k = 1024 ∧ top = 2 ^ k * one := ⟨_, rfl, rfl⟩
  refine ⟨k + i - 53, by omega, ?_⟩
  rw [htop, hone, ← Nat.pow_add, ← Nat.pow_add, Nat.add_sub_cancel' (by omega)]

theorem one_size_pos : 0 < one := by
  obtain ⟨j, -, hone⟩ := exists_one
  rw [hone]
  exact Nat.two_pow_pos j

theorem top_pos : 0 < top := by
  obtain ⟨j, -, htop⟩ := exists_top
  rw [htop]
  exact Nat.mul_pos (Nat.two_pow_pos 53) (Nat.two_pow_pos j)

/-- A spacing suits a quotient if the quotient has 53 binary digits before it, or if it is the
    smallest of all and the quotient has no more. -/
structure Suits (g num den : Nat) : Prop where
  lower : g = 0 ∨ 2 ^ (52 + g) * den ≤ num
  upper : num < 2 ^ (53 + g) * den

theorem suits_gap (hden : 0 < den) : Suits (gap num den) num den := by
  constructor
  · obtain h | h := Nat.eq_zero_or_pos (gap num den)
    · exact .inl h
    · refine .inr ?_
      have hlog : 52 + gap num den = (num / den).log2 := by
        unfold gap at h ⊢
        omega
      have hne : num / den ≠ 0 := by
        intro h0
        rw [h0, Nat.log2_zero] at hlog
        omega
      rw [← Nat.le_div_iff_mul_le hden, hlog]
      exact Nat.log2_self_le hne
  · rw [← Nat.div_lt_iff_lt_mul hden]
    refine Nat.lt_of_lt_of_le Nat.lt_log2_self (Nat.pow_le_pow_right (by decide) ?_)
    unfold gap
    omega

/-- The larger quotient has the larger spacing. -/
theorem Suits.mono (h : Suits g num den) (h' : Suits k num' den) (hn : num ≤ num') : g ≤ k := by
  by_contra hlt
  rcases h.lower with rfl | hl
  · exact hlt (Nat.zero_le k)
  · have hu := h'.upper
    have hp : 2 ^ (53 + k) * den ≤ 2 ^ (52 + g) * den :=
      Nat.mul_le_mul_right den (Nat.pow_le_pow_right (by decide) (by omega))
    omega

/-- **A quotient on the grid**, by any spacing that suits it. -/
theorem onGrid_eq (hden : 0 < den) (h : Suits g num den) :
    onGrid num den = roundDiv num (den * 2 ^ g) * 2 ^ g := by
  have hs : Suits (gap num den) num den := suits_gap hden
  have hg : gap num den = g :=
    Nat.le_antisymm (hs.mono h (Nat.le_refl _)) (h.mono hs (Nat.le_refl _))
  rw [onGrid, hg]

/-- The significand that a suitable spacing leaves: of 53 digits, or rounded up to 54. -/
theorem Suits.roundDiv_le (hden : 0 < den) (h : Suits g num den) :
    roundDiv num (den * 2 ^ g) ≤ 2 ^ 53 := by
  refine Binary64.roundDiv_le (Nat.mul_pos hden (Nat.two_pow_pos g)) (Nat.le_of_lt ?_)
  have hu := h.upper
  rwa [Nat.pow_add, Nat.mul_assoc, Nat.mul_comm (2 ^ g)] at hu

theorem Suits.le_roundDiv (hden : 0 < den) (h : Suits g num den) (hg : g ≠ 0) :
    2 ^ 52 ≤ roundDiv num (den * 2 ^ g) := by
  refine Binary64.le_roundDiv (Nat.mul_pos hden (Nat.two_pow_pos g)) ?_
  have hl := h.lower.resolve_left hg
  rwa [Nat.pow_add, Nat.mul_assoc, Nat.mul_comm (2 ^ g)] at hl

/-- A larger numerator is not rounded to less. -/
theorem onGrid_mono (hden : 0 < den) (h : num ≤ num') : onGrid num den ≤ onGrid num' den := by
  have hs : Suits (gap num den) num den := suits_gap hden
  have hs' : Suits (gap num' den) num' den := suits_gap hden
  have hg := hs.mono hs' h
  unfold onGrid
  obtain heq | hlt := Nat.eq_or_lt_of_le hg
  · rw [heq]
    exact Nat.mul_le_mul_right _ (roundDiv_mono h)
  · -- the smaller one is at most 53 digits before its spacing, the larger one at least as much
    calc roundDiv num (den * 2 ^ gap num den) * 2 ^ gap num den
        ≤ 2 ^ 53 * 2 ^ gap num den := Nat.mul_le_mul_right _ (hs.roundDiv_le hden)
      _ = 2 ^ 52 * 2 ^ (gap num den + 1) := two_pow_carry _
      _ ≤ 2 ^ 52 * 2 ^ gap num' den :=
        Nat.mul_le_mul_left _ (Nat.pow_le_pow_right (by decide) hlt)
      _ ≤ roundDiv num' (den * 2 ^ gap num' den) * 2 ^ gap num' den :=
        Nat.mul_le_mul_right _ (hs'.le_roundDiv hden (by omega))

theorem onGrid_mul_right (hk : 0 < k) : onGrid (num * k) (den * k) = onGrid num den := by
  have hg : gap (num * k) (den * k) = gap num den := by
    rw [gap, Nat.mul_div_mul_right _ _ hk, gap]
  rw [onGrid, hg, Nat.mul_right_comm, roundDiv_mul_right hk, onGrid]

/-- **A larger quotient is not rounded to less.** -/
theorem onGrid_le_onGrid {den' : Nat} (hden : 0 < den) (hden' : 0 < den')
    (h : num * den' ≤ num' * den) : onGrid num den ≤ onGrid num' den' := by
  rw [← onGrid_mul_right hden', ← @onGrid_mul_right num' den' den hden, Nat.mul_comm den' den]
  exact onGrid_mono (Nat.mul_pos hden hden') h

/-- **What is on the grid stays**: a number of 53 binary digits and any number of zeros. -/
theorem onGrid_of_double (hm : m < 2 ^ 53) : onGrid (m * 2 ^ k) 1 = m * 2 ^ k := by
  obtain rfl | hpos := Nat.eq_zero_or_pos m
  · rw [Nat.zero_mul]
    rfl
  have hlog : m.log2 ≤ 52 := Nat.le_of_lt_succ ((Nat.log2_lt (by omega)).2 hm)
  have hg : gap (m * 2 ^ k) 1 ≤ k := by
    rw [gap, Nat.div_one, log2_mul_two_pow hpos]
    omega
  have hk : 2 ^ k = 2 ^ (k - gap (m * 2 ^ k) 1) * 2 ^ gap (m * 2 ^ k) 1 := by
    rw [← Nat.pow_add, Nat.sub_add_cancel hg]
  unfold onGrid
  generalize gap (m * 2 ^ k) 1 = g at *
  rw [hk, ← Nat.mul_assoc, Nat.one_mul, roundDiv_mul (Nat.two_pow_pos g)]

/-- **What is rounded to less than the end of the doubles**: what is below the middle between that
    and the largest double. -/
theorem onGrid_lt_top_iff (hden : 0 < den) :
    onGrid num den < top ↔ num < overflowFrom * one * den := by
  obtain ⟨j, hj, htop⟩ := exists_top
  obtain ⟨k, rfl⟩ : ∃ k, j = k + 1 := ⟨j - 1, by omega⟩
  have hover : overflowFrom * one = (2 ^ 54 - 1) * 2 ^ k := by
    rw [Nat.succ.inj hj]
    decide +kernel
  have hs : Suits (gap num den) num den := suits_gap hden
  have hu := hs.upper
  rw [htop, hover, Nat.mul_assoc]
  unfold onGrid
  generalize gap num den = g at *
  obtain hg | rfl | hg := Nat.lt_trichotomy g (k + 1)
  · have hp : 2 ^ (53 + g) * den ≤ 2 ^ 53 * (2 ^ k * den) := by
      rw [← Nat.mul_assoc, ← Nat.pow_add]
      exact Nat.mul_le_mul_right den (Nat.pow_le_pow_right (by decide) (by omega))
    have hr : roundDiv num (den * 2 ^ g) * 2 ^ g ≤ 2 ^ 53 * 2 ^ k :=
      Nat.mul_le_mul (hs.roundDiv_le hden) (Nat.pow_le_pow_right (by decide) (by omega))
    have hpos : 0 < 2 ^ k * den := Nat.mul_pos (Nat.two_pow_pos k) hden
    have hpos' : 0 < 2 ^ k := Nat.two_pow_pos k
    exact iff_of_true (by omega) (by omega)
  · -- the last spacing: the significand must not be rounded up to the next power of two
    have hp : den * 2 ^ (k + 1) = 2 * (2 ^ k * den) := by
      rw [Nat.pow_succ, Nat.mul_comm den, Nat.mul_comm _ 2, Nat.mul_assoc]
    rw [Nat.mul_lt_mul_right (Nat.two_pow_pos _), roundDiv_lt_iff
      (Nat.mul_pos hden (Nat.two_pow_pos _)) (by decide) (by decide), hp]
    omega
  · have hl := hs.lower.resolve_left (by omega)
    have hp : 2 ^ 54 * (2 ^ k * den) ≤ 2 ^ (52 + g) * den := by
      rw [← Nat.mul_assoc, ← Nat.pow_add]
      exact Nat.mul_le_mul_right den (Nat.pow_le_pow_right (by decide) (by omega))
    have hr : 2 ^ 52 * 2 ^ (k + 2) ≤ roundDiv num (den * 2 ^ g) * 2 ^ g :=
      Nat.mul_le_mul (hs.le_roundDiv hden (by omega)) (Nat.pow_le_pow_right (by decide) (by omega))
    rw [Nat.pow_add 2 k 2] at hr
    exact iff_of_false (by omega) (by omega)

end Reckon.Binary64
