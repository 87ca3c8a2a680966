/-
  Trees of texts can be written.

  A tree that is read from a text has the numbers and names of the text.  The
  integers of a text have no sign, and no more digits than are written for a person,
  so that such a tree has a text of its own, unlike what it comes to.

  * `exists_token`: every node of a tree has its token;
  * `natural_of_parseText`: the integers of a text;
  * `write_of_parseText`: the tree of a text can be written.
-/
import Reckon.Proofs.Outcomes
import Reckon.Proofs.Words

namespace Reckon.Expr

variable {text : String} {t u : Expr} {es : List Expr} {ts : List Token} {l : Lexeme} {p : Int}

theorem parseText_eq_ok : parseText text = .ok t ↔
    ∃ ts, Token.scan text = .ok ts ∧ parse ts = .ok t := bind_eq_ok

/-- A node of a tree stands for a token that it is read from. -/
theorem exists_token (hs : Token.scan text = .ok ts) (ht : parse ts = .ok t)
    (hu : u ∈ t.subtrees) (hl : (l, p) ∈ inOrder u) :
    ∃ w ∈ ts, w.lexeme = l ∧ l.Means w.text.toList := by
  have hm := inOrder_subset u hu hl
  rw [inOrder_of_parse ht] at hm
  obtain ⟨-, w, hw, rfl, rfl⟩ := mem_nodeTokens.1 hm
  obtain ⟨q, hq⟩ := scanFrom_eq_ok.1 hs
  exact ⟨w, hw, rfl, hq.means w hw⟩

/-- **The integers of a text** are natural numbers that can be written. -/
theorem natural_of_parseText (h : parseText text = .ok t) {i : Int}
    (hu : literal (.int i) p ∈ t.subtrees) :
    ∃ k : Nat, i = k ∧ (Number.int k).isWritable = true := by
  obtain ⟨ts, hs, ht⟩ := parseText_eq_ok.1 h
  obtain ⟨w, -, -, hm⟩ := exists_token hs ht hu (List.mem_singleton_self _)
  exact hm.natural

/-! ## Writing -/

mutual

theorem isWritable_of_literals : ∀ {t : Expr},
    (∀ n p, literal n p ∈ t.subtrees → n.isWritable = true) → t.isWritable = true
  | literal n p, h => h n p (mem_subtrees_self _)
  | .var _ _, _ => rfl
  | unary op e p, h => by
    rw [isWritable]
    exact isWritable_of_literals fun n q hn => h n q (List.mem_cons_of_mem _ hn)
  | binary op l r p, h => by
    rw [isWritable, Bool.and_eq_true]
    refine ⟨isWritable_of_literals fun n q hn => ?_, isWritable_of_literals fun n q hn => ?_⟩
    · exact h n q (List.mem_cons_of_mem _ (List.mem_append_left _ hn))
    · exact h n q (List.mem_cons_of_mem _ (List.mem_append_right _ hn))
  | call f args p, h => by
    rw [isWritable]
    exact areWritable_of_literals fun n q hn => h n q (List.mem_cons_of_mem _ hn)

theorem areWritable_of_literals : ∀ {es : List Expr},
    (∀ n p, literal n p ∈ subtreesAll es → n.isWritable = true) → areWritable es = true
  | [], _ => rfl
  | e :: es, h => by
    rw [areWritable, Bool.and_eq_true]
    refine ⟨isWritable_of_literals fun n q hn => ?_, areWritable_of_literals fun n q hn => ?_⟩
    · exact h n q (List.mem_append_left _ hn)
    · exact h n q (List.mem_append_right _ hn)

end

/-- **The tree of a text can be written.** -/
theorem write_of_parseText (h : parseText text = .ok t) : t.write = .ok t.render := by
  refine if_pos (isWritable_of_literals fun n p hn => ?_)
  cases n with
  | float x => rfl
  | int i =>
    obtain ⟨k, rfl, hk⟩ := natural_of_parseText h hn
    exact hk

end Reckon.Expr
