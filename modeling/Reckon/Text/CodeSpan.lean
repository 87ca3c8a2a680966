/-
  Sets of characters given as spans of code points.

  * `CodeSpans.has t c`: some span of `t` holds the code point of `c`.
-/
namespace Reckon.Text

/-- Spans of code points, each with its first and its last member. -/
abbrev CodeSpans := List (Nat × Nat)

/-- Membership of a character. -/
def CodeSpans.has (t : CodeSpans) (c : Char) : Bool :=
  t.any fun s => s.1 ≤ c.toNat && c.toNat ≤ s.2

theorem CodeSpans.has_iff {t : CodeSpans} {c : Char} :
    t.has c = true ↔ ∃ s ∈ t, s.1 ≤ c.toNat ∧ c.toNat ≤ s.2 := by
  simp [CodeSpans.has]

end Reckon.Text
