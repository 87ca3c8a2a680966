/-
  Decimal digits of natural numbers and integers.

  * `ofDigits` reads a list of digit values, most significant first;
  * `natDigits`, `intDigits` write a number, without leading zeros and with a
    minus sign where it is negative;
  * `digitLimit` bounds the integers that are read and written for a person.
-/
namespace Reckon.Decimal

/-- The most digits of an integer that are read or written. -/
def digitLimit : Nat := 4300

/-- The number that a list of digit values writes, most significant first. -/
def ofDigits (ds : List Nat) : Nat :=
  ds.foldl (fun n d => 10 * n + d) 0

/-! ## Writing

  Digits are split off in groups, so that a long number is seldom divided. -/

/-- The number of digits in a group. -/
def groupSize : Nat := 18

/-- The digits of a number below `10 ^ groupSize`, filled up with zeros to a full group. -/
def group (n : Nat) : List Char := (Nat.toDigits 10 n).leftpad groupSize '0'

/-- The digits of a natural number, before other text. -/
def natDigitsBefore (n : Nat) (tail : List Char) : List Char :=
  if n < Nat.pow 10 groupSize then Nat.toDigits 10 n ++ tail
  else natDigitsBefore (n / Nat.pow 10 groupSize) (group (n % Nat.pow 10 groupSize) ++ tail)
termination_by n
decreasing_by
  rename_i h
  have hn : 0 < n := Nat.lt_of_lt_of_le (by decide) (Nat.not_lt.1 h)
  exact Nat.div_lt_self hn (by decide)

/-- The digits of a natural number. -/
def natDigits (n : Nat) : List Char := natDigitsBefore n []

theorem leftpad_toDigits (k r : Nat) :
    (Nat.toDigits 10 r).leftpad (k + 2) '0' =
      (Nat.toDigits 10 (r / 10)).leftpad (k + 1) '0' ++ [(r % 10).digitChar] := by
  rw [Nat.toDigits_eq_if (n := r) (by decide)]
  split
  · rename_i h
    rw [Nat.div_eq_of_lt h, Nat.mod_eq_of_lt h, Nat.toDigits_zero]
    simp [List.leftpad, List.replicate_succ']
  · simp [List.leftpad]

/-- A number and the `k` digits after it stand side by side, the digits filled up with zeros. -/
theorem toDigits_append_leftpad {q : Nat} (hq : 0 < q) (k : Nat) {r : Nat}
    (hr : r < Nat.pow 10 (k + 1)) :
    Nat.toDigits 10 (Nat.pow 10 (k + 1) * q + r) =
      Nat.toDigits 10 q ++ (Nat.toDigits 10 r).leftpad (k + 1) '0' := by
  rw [Nat.pow_eq] at hr ⊢
  induction k generalizing r with
  | zero =>
    have hr' : r < 10 := by simpa using hr
    rw [Nat.pow_one, ← Nat.toDigits_append_toDigits (by decide) hq hr',
      Nat.toDigits_of_lt_base hr']
    rfl
  | succ k ih =>
    have hdiv : r / 10 < 10 ^ (k + 1) := Nat.div_lt_of_lt_mul (by rw [← Nat.pow_succ']; exact hr)
    have hpos : 0 < 10 ^ (k + 1) * q := Nat.mul_pos (Nat.pow_pos (by decide)) hq
    have split : 10 ^ (k + 2) * q + r = 10 * (10 ^ (k + 1) * q + r / 10) + r % 10 := by
      rw [Nat.pow_succ', Nat.mul_assoc, Nat.mul_add, Nat.add_assoc, Nat.div_add_mod]
    rw [split, ← Nat.toDigits_append_toDigits (by decide) (by omega) (Nat.mod_lt _ (by decide)),
      ih hdiv, leftpad_toDigits, Nat.toDigits_of_lt_base (Nat.mod_lt _ (by decide)),
      List.append_assoc]

theorem natDigitsBefore_eq (n : Nat) (tail : List Char) :
    natDigitsBefore n tail = Nat.toDigits 10 n ++ tail := by
  fun_induction natDigitsBefore n tail with
  | case1 => rfl
  | case2 n tail h ih =>
    have hq : 0 < n / Nat.pow 10 groupSize := Nat.div_pos (Nat.not_lt.1 h) (by decide)
    have hr : n % Nat.pow 10 groupSize < Nat.pow 10 groupSize := Nat.mod_lt _ (by decide)
    have key := toDigits_append_leftpad hq 17 hr
    rw [show 17 + 1 = groupSize from rfl, Nat.div_add_mod] at key
    rw [ih, key, group, List.append_assoc]

/-- Grouping changes nothing about the digits. -/
theorem natDigits_eq (n : Nat) : natDigits n = Nat.toDigits 10 n := by
  simp [natDigits, natDigitsBefore_eq]

/-- The digits of an integer, after a minus sign where it is negative. -/
def intDigits (n : Int) : List Char :=
  if n < 0 then '-' :: natDigits n.natAbs else natDigits n.natAbs

/-- An integer as text. -/
def intText (n : Int) : String := String.ofList (intDigits n)

end Reckon.Decimal
