/-
  Operators without a sign.

  The reader of powers and the reader of negations take an operator whose sign is the empty text
  for one of theirs, and the evaluator has no operation for it.  Whatever else an operator among
  tokens carries, an expression that is read has known operations only.

  * `exists_unsigned`: an operation without a sign, for every such operator;
  * `Stuck`: such an operation, with its operands at hand;
  * `Origin.stuck_or_raises`: what a failure for want of an operation comes out of;
  * `operations_of_parse`: which operations an expression that is read can have, and when its
    evaluation fails for want of one.
-/
import Reckon.Proofs.Callers

namespace Reckon.Expr

variable {s : Scope} {u : Expr} {g : String} {p : Int}

/-! ## Nodes -/

mutual

/-- An operator without a sign among the nodes is that of an operation. -/
theorem exists_unsigned : ∀ {e : Expr}, (.operator "", p) ∈ inOrder e →
    ∃ u ∈ e.subtrees, u.Unsigned
  | literal _ _, h | .var _ _, h => by simp [inOrder] at h
  | unary op e q, h => by
    rw [inOrder, List.mem_cons] at h
    rcases h with h | h
    · cases h
      exact ⟨_, mem_subtrees_self _, rfl⟩
    · obtain ⟨u, hu, hn⟩ := exists_unsigned h
      exact ⟨u, List.mem_cons_of_mem _ hu, hn⟩
  | binary op l r q, h => by
    rw [inOrder, List.mem_append, List.mem_cons] at h
    rcases h with h | h | h
    · obtain ⟨u, hu, hn⟩ := exists_unsigned h
      exact ⟨u, List.mem_cons_of_mem _ (List.mem_append_left _ hu), hn⟩
    · cases h
      exact ⟨_, mem_subtrees_self _, rfl⟩
    · obtain ⟨u, hu, hn⟩ := exists_unsigned h
      exact ⟨u, List.mem_cons_of_mem _ (List.mem_append_right _ hu), hn⟩
  | call f args q, h => by
    rw [inOrder, List.mem_cons] at h
    rcases h with h | h
    · cases h
    · obtain ⟨u, hu, hn⟩ := exists_unsigned_among h
      exact ⟨u, List.mem_cons_of_mem _ hu, hn⟩

theorem exists_unsigned_among : ∀ {es : List Expr}, (.operator "", p) ∈ inOrderAll es →
    ∃ u ∈ subtreesAll es, u.Unsigned
  | [], h => by simp [inOrderAll] at h
  | e :: es, h => by
    rw [inOrderAll, List.mem_append] at h
    rcases h with h | h
    · obtain ⟨u, hu, hn⟩ := exists_unsigned h
      exact ⟨u, List.mem_append_left _ hu, hn⟩
    · obtain ⟨u, hu, hn⟩ := exists_unsigned_among h
      exact ⟨u, List.mem_append_right _ hu, hn⟩

end

theorem Unsigned.not_known (h : u.Unsigned) : ¬ u.Known := by
  cases u with
  | literal | var | call => cases h
  | unary op e q =>
    cases h
    simp [Known]
  | binary op l r q =>
    cases h
    simp [Known, Operator.all, Operator.glyph]

/-- **The operations of an expression that is read** are known iff no operator among the tokens is
    without a sign. -/
theorem known_iff_of_parse {ts : List Token} {e : Expr} (h : parse ts = .ok e) :
    (∀ u ∈ e.subtrees, u.Known) ↔ ∀ t ∈ ts, t.lexeme ≠ .operator "" := by
  constructor
  · intro hk t ht hl
    have hn : (.operator "", t.spot) ∈ inOrder e := by
      rw [inOrder_of_parse h]
      exact mem_nodeTokens.2 ⟨rfl, t, ht, hl, rfl⟩
    obtain ⟨u, hu, hu'⟩ := exists_unsigned hn
    exact hu'.not_known (hk u hu)
  · exact known_of_parse h

/-! ## Failures -/

/-- An operation without a sign, all of whose operands that are asked for have answers: a unary one
    asks for none before its sign is looked up. -/
inductive Stuck (s : Scope) : Expr → Prop
  | unary {e : Expr} {p : Int} : Stuck s (unary "" e p)
  | binary {l r : Expr} {p : Int} {a b : Number} : l.answer s = .ok a → r.answer s = .ok b →
      Stuck s (binary "" l r p)

theorem Stuck.origin (h : Stuck s u) : Origin s (.unknownOperator "") u := by
  cases h with
  | unary => exact .sign (by decide) rfl
  | binary hl hr => exact .operation hl hr rfl

/-- **What a failure for want of an operation comes out of**: an operation without a sign, or a
    function of a caller's that gave the failure itself. -/
theorem Origin.stuck_or_raises (h : Origin s (.unknownOperator g) u) (hu : u.Known ∨ u.Unsigned) :
    g = "" ∧ Stuck s u ∨ Raises s (.unknownOperator g) u := by
  cases h with
  | value h =>
    rcases value_eq_error.1 h with ⟨-, hf⟩ | ⟨v, -, -, hf⟩
    · cases hf
    · cases hf
  | sign hop hf =>
    cases hf
    obtain rfl := hu.resolve_left hop
    exact .inl ⟨rfl, .unary⟩
  | operation hl hr h =>
    rcases applyOperator_eq_error_iff.1 h with ⟨hn, hf⟩ | ⟨o, k, -, -, ⟨⟩⟩
    cases hf
    obtain rfl := hu.resolve_left fun hk => ofGlyph?_ne_none hk hn
    exact .inl ⟨rfl, .binary hl hr⟩
  | callee h => cases (callable_eq_error.1 h).2
  | run hg hv h =>
    rcases run_eq_error.1 h with ⟨k, e, -, -, ⟨⟩⟩ | ⟨k, rfl, hk | ⟨v, -, -, ⟨⟩⟩⟩
    exact .inr (.call hg hv hk)

/-- **Which operations an expression that is read can have.**  They are known, or carry no sign at
    all, and they are all known iff no operator among the tokens is without a sign.  The evaluation
    fails for want of an operation, whatever the scope, iff it comes to one without a sign, whose
    operands have answers, or to a function of a caller's that fails so itself. -/
theorem operations_of_parse {ts : List Token} {e : Expr} (h : parse ts = .ok e) :
    (∀ u ∈ e.subtrees, u.Known ∨ u.Unsigned) ∧
    ((∀ u ∈ e.subtrees, u.Known) ↔ ∀ t ∈ ts, t.lexeme ≠ .operator "") ∧
    ∀ s g, e.answer s = .error (.unknownOperator g) ↔
      ∃ u, Reaches s e u ∧ (g = "" ∧ Stuck s u ∨ Raises s (.unknownOperator g) u) := by
  have hk : ∀ u ∈ e.subtrees, u.Known ∨ u.Unsigned := (parse_eq_ok_iff_forms.1 h).known_or_unsigned
  refine ⟨hk, known_iff_of_parse h, fun s g => ?_⟩
  rw [answer_eq_error_iff]
  constructor
  · rintro ⟨u, hu, ho⟩
    exact ⟨u, hu, ho.stuck_or_raises (hk u hu.mem_subtrees)⟩
  · rintro ⟨u, hu, ⟨rfl, hs⟩ | hr⟩
    · exact ⟨u, hu, hs.origin⟩
    · exact ⟨u, hu, hr.origin⟩

/-- An operator without a sign in an exponent, which is stuck where its variable is defined. -/
theorem operations_of_parse_exponent :
    let ts : List Token := [⟨"2", 0, .number (.int 2)⟩, ⟨"^", 1, .operator "^"⟩,
      ⟨"x", 2, .name "x"⟩, ⟨"?", 3, .operator ""⟩, ⟨"3", 4, .number (.int 3)⟩]
    let u : Expr := .binary "" (.var "x" 2) (.literal (.int 3) 4) 3
    let e : Expr := .binary "^" (.literal (.int 2) 0) u 1
    let s : Scope := .of (some ⟨[("x", .number (.int 1))]⟩) none
    parse ts = .ok e ∧ (∀ u ∈ e.subtrees, u.Known ∨ u.Unsigned) ∧ (¬ ∀ u ∈ e.subtrees, u.Known) ∧
      Stuck s u ∧ e.answer s = .error (.unknownOperator "") ∧
      e.answer .empty ≠ .error (.unknownOperator "") := by
  intro ts u e s
  have h : parse ts = .ok e := by cbv
  obtain ⟨hk, hi, hf⟩ := operations_of_parse h
  have hu : Stuck s u := .binary rfl answer_literal
  have hx : e.answer .empty = .error (.error (.undefinedVariable "x")) := by decide +kernel
  refine ⟨h, hk, fun hall => ?_, hu, ?_, ?_⟩
  · exact hi.1 hall ⟨"?", 3, .operator ""⟩ (by simp [ts]) rfl
  · exact (hf s "").2 ⟨u, .right answer_literal .self, .inl ⟨rfl, hu⟩⟩
  · rw [hx]
    simp

/-- **An operator without a sign is read** as a power and as a minus, though it is neither, and the
    evaluation of what is read has no operation for it. -/
theorem parse_unsigned :
    let one : Expr := .literal (.int 1) 0
    let two : Expr := .literal (.int 2) 2
    let power : Expr := .binary "" one two 1
    let opposite : Expr := .unary "" two 1
    (parse [⟨"1", 0, .number (.int 1)⟩, ⟨"?", 1, .operator ""⟩, ⟨"2", 2, .number (.int 2)⟩] =
        .ok power ∧ ¬ power.Known ∧ power.answer .empty = .error (.unknownOperator "")) ∧
      parse [⟨"?", 1, .operator ""⟩, ⟨"2", 2, .number (.int 2)⟩] = .ok opposite ∧
        ¬ opposite.Known ∧ opposite.answer .empty = .error (.unknownOperator "") := by
  intro one two power opposite
  have hp : Unsigned power := rfl
  have ho : Unsigned opposite := rfl
  refine ⟨⟨by cbv, hp.not_known, ?_⟩, by cbv, ho.not_known, ?_⟩
  · exact (Stuck.binary answer_literal answer_literal).origin.fails
  · exact Stuck.unary.origin.fails

end Reckon.Expr
