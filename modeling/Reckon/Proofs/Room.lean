/-
  No room is enough for the trees of all texts.

  The tree of a sum leans to the left, and with each term it takes one more nested call to write
  it.  Parentheses have nothing to do with that: a sum has none, and is read however long it is.

  * `ones`: the sum of a one and so many more;
  * `lexes_ones`: its tokens; `forms_ones`: what they mean;
  * `parseText_ones`: the tree of such a sum, what it comes to, and the calls that it takes to
    write it.
-/
import Reckon.Host
import Reckon.Proofs.Printing

namespace Reckon

/-- The sum of a one and so many more, in characters. -/
def onesChars : Nat → List Char
  | 0 => ['1']
  | n + 1 => onesChars n ++ [' ', '+', ' ', '1']

/-- The lexemes of such a sum. -/
def onesLexemes : Nat → List Lexeme
  | 0 => [.number (.int 1)]
  | n + 1 => onesLexemes n ++ [.operator "+", .number (.int 1)]

/-- The sum of a one and so many more. -/
def ones (n : Nat) : String := String.ofList (onesChars n)

theorem lexes_one : Lexes ['1'] [.number (.int 1)] := by
  have h : Lexes (Decimal.natDigits 1) [.number (.int 1)] := lexes_natDigits (by decide +kernel)
  rwa [show Decimal.natDigits 1 = ['1'] by decide +kernel] at h

theorem lexes_ones : ∀ n, Lexes (onesChars n) (onesLexemes n)
  | 0 => lexes_one
  | n + 1 =>
    (lexes_ones n).append_blank isBlank_space
      (.sign (by simp [signs]) (.blank isBlank_space lexes_one))

namespace Expr

/-- **The tokens of a sum of ones** mean a tree that comes to their number, and each of them but the
    first takes one more call to write it. -/
theorem forms_ones : ∀ {n : Nat} {ts : List Token}, ts.map Token.lexeme = onesLexemes n →
    ∃ t, Forms maxDepth .sum 0 ts t ∧ t.textCalls = n + 3 ∧
      ∀ s, t.answer s = .ok (.int (n + 1 : Nat))
  | 0, ts, h => by
    obtain ⟨one, rfl, ho⟩ := List.map_eq_singleton_iff.1 h
    exact ⟨_, .ofPrimary (.number ho), rfl, fun s => answer_literal⟩
  | n + 1, ts, h => by
    obtain ⟨us, vs, rfl, hu, hv⟩ := List.map_eq_append_iff.1 h
    obtain ⟨plus, ws, rfl, hp, hw⟩ := List.map_eq_cons_iff.1 hv
    obtain ⟨one, rfl, ho⟩ := List.map_eq_singleton_iff.1 hw
    obtain ⟨t, ht, hc, ha⟩ := forms_ones hu
    have hsign : plus.additive? = some "+" := additive?_eq_some_iff.2 ⟨hp, by simp⟩
    refine ⟨_, .addition ht hsign (.ofPrimary (.number ho)), ?_, fun s => ?_⟩
    · rw [textCalls, textCalls, hc]
      omega
    · rw [answer_binary, ha s, answer_literal]
      rfl

/-- **The tree of a sum of ones**: the sum is read however long it is. -/
theorem parseText_ones (n : Nat) : ∃ t, parseText (ones n) = .ok t ∧ t.textCalls = n + 3 ∧
    ∀ s, outcome s (ones n) = .ok (.int (n + 1 : Nat)) := by
  obtain ⟨ts, q, hs, hl⟩ := lexes_ones n
  obtain ⟨t, ht, hc, ha⟩ := forms_ones hl
  have hscan : Token.scan (ones n) = .ok ts := by
    refine scanFrom_eq_ok.2 ⟨q, ?_⟩
    rwa [ones, String.toList_ofList]
  have h : parseText (ones n) = .ok t := parseText_eq_ok.2 ⟨ts, hscan, parse_eq_ok_iff_forms.2 ht⟩
  refine ⟨t, h, hc, fun s => ?_⟩
  rw [outcome_of_parseText h, ha]

end Expr

end Reckon
