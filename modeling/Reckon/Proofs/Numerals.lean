/-
  What numerals mean.

  A numeral without a dot is an integer, if it has not too many digits; one with a dot
  is the float nearest to the decimal fraction, if that is finite; and one with more
  dots is nothing.

  * `read?_whole`, `read?_fraction`, `read?_dots`: the three cases;
  * `digitsValue_lt`: so many digits, so large a number;
  * `read?_natDigits`: the digits of a natural number read back as that number.
-/
import Mathlib.Algebra.Group.Nat.Defs
import Mathlib.Data.List.Induction
import Reckon.Token.Scan

namespace Reckon

open Text Decimal

/-- The number that the digits among characters write. -/
def digitsValue (cs : List Char) : Nat := ofDigits (cs.filterMap digitValue?)

/-- The float nearest to a decimal fraction, with digits before and after the point. -/
def fractionValue (whole frac : List Char) : Float :=
  Binary64.ofDecimal (digitsValue (whole ++ frac)) (-frac.length)

variable {c : Char} {cs whole frac : List Char} {n : Number} {k : Nat}

/-! ## Digits -/

theorem digitValue?_lt {v : Nat} (h : digitValue? c = some v) : v < 10 := by
  unfold digitValue? at h
  obtain ⟨z, hz, rfl⟩ := Option.map_eq_some_iff.1 h
  have hz := List.find?_some hz
  simp only [Bool.and_eq_true, decide_eq_true_eq] at hz
  omega

theorem ofDigits_append_singleton (ds : List Nat) (d : Nat) :
    ofDigits (ds ++ [d]) = 10 * ofDigits ds + d := by
  simp [ofDigits]

/-- So many digits write a number below that power of ten. -/
theorem ofDigits_lt {ds : List Nat} (h : ∀ d ∈ ds, d < 10) : ofDigits ds < 10 ^ ds.length := by
  induction ds using List.reverseRecOn with
  | nil => decide
  | append_singleton ds d ih =>
    obtain ⟨hds, hd⟩ := List.forall_mem_append.1 h
    have hd : d < 10 := hd d (List.mem_singleton_self d)
    have := ih hds
    rw [ofDigits_append_singleton, List.length_append, List.length_singleton, Nat.pow_succ]
    omega

theorem digitsValue_lt (cs : List Char) : digitsValue cs < 10 ^ cs.length := by
  have h : ∀ d ∈ cs.filterMap digitValue?, d < 10 := by
    intro d hd
    obtain ⟨c, -, hc⟩ := List.mem_filterMap.1 hd
    exact digitValue?_lt hc
  exact Nat.lt_of_lt_of_le (ofDigits_lt h)
    (Nat.pow_le_pow_right (by decide) (List.length_filterMap_le ..))

/-! ## Reading -/

/-- The value of a numeral without a dot. -/
theorem read?_whole (h : '.' ∉ cs) : Number.read? cs =
    if cs.length ≤ digitLimit then some (.int (digitsValue cs)) else none := by
  have hc : cs.count '.' = 0 := List.count_eq_zero.2 h
  unfold Number.read?
  simp only [hc]
  rfl

/-- The value of a numeral with one dot. -/
theorem read?_fraction (hw : '.' ∉ whole) (hf : '.' ∉ frac) :
    Number.read? (whole ++ '.' :: frac) =
      if (fractionValue whole frac).isFinite then some (.float (fractionValue whole frac))
      else none := by
  have hc : (whole ++ '.' :: frac).count '.' = 1 := by
    simp [List.count_eq_zero.2 hw, List.count_eq_zero.2 hf]
  have hd : (whole ++ '.' :: frac).dropWhile (· ≠ '.') = '.' :: frac := by
    have hn : ∀ d ∈ whole, d ≠ '.' := by
      rintro d hd rfl
      exact hw hd
    rw [List.dropWhile_append_of_pos (by simpa using hn)]
    simp
  have hdot : digitValue? '.' = none := by decide +kernel
  have hv : (whole ++ '.' :: frac).filterMap digitValue? =
      (whole ++ frac).filterMap digitValue? := by
    simp [hdot]
  have hp : ((('.' :: frac).length : Int) - 1) = frac.length := by
    rw [List.length_cons]
    omega
  unfold Number.read?
  simp only [hc, hd, hv, hp]
  rfl

/-- More dots than one are too many. -/
theorem read?_dots (h : 1 < cs.count '.') : Number.read? cs = none := by
  unfold Number.read?
  split
  · omega
  · omega
  · rfl

theorem exists_fraction (h : cs.count '.' = 1) :
    ∃ whole frac, cs = whole ++ '.' :: frac ∧ '.' ∉ whole ∧ '.' ∉ frac := by
  have hm : '.' ∈ cs := List.count_pos_iff.1 (by omega)
  obtain ⟨whole, frac, rfl, hw⟩ := List.eq_append_cons_of_mem hm
  rw [List.count_append, List.count_cons_self, List.count_eq_zero.2 hw] at h
  exact ⟨whole, frac, rfl, hw, List.count_eq_zero.1 (by omega)⟩

/-! ## Writing -/

theorem digit_of_isDigit (h : c.isDigit = true) :
    isDigit c = true ∧ digitValue? c = some (c.toNat - 48) := by
  have hall : ∀ k < 10, isDigit (Char.ofNat (48 + k)) = true ∧
      digitValue? (Char.ofNat (48 + k)) = some k := by
    decide +kernel
  have hb : 48 ≤ c.toNat ∧ c.toNat ≤ 57 := by
    simp only [Char.isDigit, Bool.and_eq_true, decide_eq_true_eq, ge_iff_le,
      UInt32.le_iff_toNat_le] at h
    exact h
  have hk := hall (c.toNat - 48) (by omega)
  rwa [show 48 + (c.toNat - 48) = c.toNat by omega, Char.ofNat_toNat] at hk

theorem isDigit_natDigits : ∀ c ∈ natDigits k, c.isDigit = true := by
  intro c hc
  rw [natDigits_eq] at hc
  exact Nat.isDigit_of_mem_toDigits (by decide) (by decide) hc

theorem isDigit_of_mem_natDigits (h : c ∈ natDigits k) : isDigit c = true :=
  (digit_of_isDigit (isDigit_natDigits c h)).1

theorem digitsValue_natDigits (k : Nat) : digitsValue (natDigits k) = k := by
  have hv : ∀ cs : List Char, (∀ c ∈ cs, c.isDigit = true) →
      cs.filterMap digitValue? = cs.map (·.toNat - 48) := by
    intro cs h
    induction cs with
    | nil => rfl
    | cons c cs ih =>
      obtain ⟨hc, hcs⟩ := List.forall_mem_cons.1 h
      rw [List.filterMap_cons, (digit_of_isDigit hc).2, ih hcs, List.map_cons]
  rw [digitsValue, hv _ isDigit_natDigits, ofDigits, List.foldl_map, natDigits_eq]
  exact Nat.ofDigitChars_ten_toDigits

theorem isWritable_int {i : Int} :
    (Number.int i).isWritable = true ↔ i.natAbs < 10 ^ digitLimit := by
  simp only [Number.isWritable, decide_eq_true_eq, Nat.pow_eq]

theorem isWritable_natCast : (Number.int k).isWritable = true ↔ k < 10 ^ digitLimit := by
  rw [isWritable_int, Int.natAbs_natCast]

/-- Digits are no dots. -/
theorem not_mem_dot (h : ∀ c ∈ cs, isDigit c = true) : '.' ∉ cs := fun hm => by
  have hdot : isDigit '.' = false := by decide +kernel
  rw [h _ hm] at hdot
  cases hdot

/-- **What is written is read back.** -/
theorem read?_natDigits (h : (Number.int k).isWritable = true) :
    Number.read? (natDigits k) = some (.int k) := by
  have hdot : '.' ∉ natDigits k := not_mem_dot fun _ => isDigit_of_mem_natDigits
  have hlen : (natDigits k).length ≤ digitLimit := by
    rw [natDigits_eq]
    exact (Nat.length_toDigits_le_iff (by decide) (by decide)).2 (isWritable_natCast.1 h)
  rw [read?_whole hdot, if_pos hlen, digitsValue_natDigits]

end Reckon
