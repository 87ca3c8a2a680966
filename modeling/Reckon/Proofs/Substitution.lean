/-
  Expressions in the place of variables.

  To define a variable comes to the same as to write its expression in parentheses
  wherever the variable stands, as far as that nests no deeper than allowed.

  * `inline`, `Expr.subst`: the same replacement, in tokens and in trees;
  * `Forms.inline`: tokens with a variable replaced form the tree with it replaced;
  * `answer_subst`: a tree with a variable replaced comes to what the tree comes to where
    the variable has the value of the replacement;
  * `parse_inline`: all of it together.
-/
import Reckon.Proofs.Nesting
import Reckon.Proofs.Relabelling

namespace Reckon

/-- A scope with a variable set to a number. -/
def Scope.set (s : Scope) (x : String) (v : Number) : Scope :=
  ⟨fun y => if y = x then some (.number v) else s.value? y, s.callable?⟩

/-- The scope of definitions to which a variable is added. -/
theorem Scope.of_insert (definitions : Option (Registry PlainValue)) (functions : Option Functions)
    (x : String) (v : Number) :
    Scope.of (some ((definitions.getD .empty).insert x (.number v))) functions =
      (Scope.of definitions functions).set x v := by
  have hv (y : String) : ((definitions.getD .empty).insert x (.number v)).find? y =
      if y = x then some (.number v) else definitions.bind (·.find? y) := by
    rw [Registry.find?_insert]
    cases definitions <;> rfl
  unfold Scope.of Scope.set
  simp only [Option.bind_some, hv]

namespace Expr

/-! ## Replacement -/

mutual

/-- A tree with a variable replaced. -/
def subst (x : String) (u : Expr) : Expr → Expr
  | literal n p => literal n p
  | .var y p => if y = x then u else .var y p
  | unary op e p => unary op (subst x u e) p
  | binary op l r p => binary op (subst x u l) (subst x u r) p
  | call f args p => call f (substAll x u args) p

/-- Trees with a variable replaced. -/
def substAll (x : String) (u : Expr) : List Expr → List Expr
  | [] => []
  | e :: es => subst x u e :: substAll x u es

end

/-- Tokens in which every name that stands for a variable, and not for a function, is replaced. -/
def inline (x : String) (ws : List Token) : List Token → List Token
  | [] => []
  | t :: ts =>
    if t.lexeme = .name x ∧ opensCall ts = false then ws ++ inline x ws ts else t :: inline x ws ts

/-- Tokens with parentheses round them. -/
def inParens (ts : List Token) : List Token := ⟨"(", 0, .opening⟩ :: (ts ++ [⟨")", 0, .closing⟩])

/-- An operand that is the variable of a name. -/
def Operand.IsVar (a : Operand) (x : String) : Prop := a.lexeme = .name x ∧ a.called = false

section
variable {p : Phrase} {m d : Nat} {ts us ws : List Token} {t : Token} {x : String} {e u : Expr}
  {es : List Expr} {v : Number} {s : Scope}

/-! ## Tokens -/

@[simp]
theorem inline_nil : inline x ws [] = [] := rfl

theorem inline_cons : inline x ws (t :: ts) =
    if t.lexeme = .name x ∧ opensCall ts = false then ws ++ inline x ws ts
    else t :: inline x ws ts := rfl

theorem inline_cons_of_ne (ht : t.lexeme ≠ .name x) :
    inline x ws (t :: ts) = t :: inline x ws ts := by
  rw [inline_cons, if_neg fun h => ht h.1]

theorem inline_append (h : opensCall us = false) :
    inline x ws (ts ++ us) = inline x ws ts ++ inline x ws us := by
  induction ts with
  | nil => rfl
  | cons t ts ih =>
    rw [List.cons_append, inline_cons, inline_cons, opensCall_append h, ih]
    split
    · rw [List.append_assoc]
    · rfl

/-- Between phrases nothing is replaced. -/
theorem inline_between (ht : t.lexeme.isOperand = false) (ho : t.lexeme ≠ .opening) :
    inline x ws (ts ++ t :: us) = inline x ws ts ++ t :: inline x ws us := by
  have hx : t.lexeme ≠ .name x := by
    intro h
    rw [h] at ht
    cases ht
  rw [inline_append (by simpa using ho), inline_cons_of_ne hx]

theorem inline_operator {g : String} (ht : t.lexeme = .operator g) :
    inline x ws (ts ++ t :: us) = inline x ws ts ++ t :: inline x ws us :=
  inline_between (by rw [ht]; rfl) (by simp [ht])

theorem inline_closing {c : Token} (hc : c.lexeme = .closing) :
    inline x ws (ts ++ [c]) = inline x ws ts ++ [c] :=
  inline_between (by rw [hc]; rfl) (by simp [hc])

/-- The name of a call is not replaced. -/
theorem inline_call {f o : Token} (ho : o.lexeme = .opening) :
    inline x ws (f :: o :: ts) = f :: o :: inline x ws ts := by
  rw [inline_cons, if_neg (by simp [ho]), inline_cons_of_ne (by simp [ho])]

mutual

/-- **Tokens with a variable replaced form the tree with it replaced**, if the replacement is a
    primary wherever the variable stands. -/
theorem Forms.inline {p d ts e} : Forms m p d ts e → ∀ {q : Place}, q.Awaits d p →
    (∀ a ∈ operands q ts, a.IsVar x → Forms m .primary a.level ws u) →
    Forms m p d (inline x ws ts) (subst x u e)
  | .sum h, q, hq, ha => .sum (h.inline (hq.operand (k := .sum)) ha)
  | .addition h ht h', q, hq, ha => by
    rw [h.operands_chain (k := .sum) hq ht] at ha
    obtain ⟨ha, ha'⟩ := List.forall_mem_append.1 ha
    rw [inline_operator (additive?_eq_some_iff.1 ht).1]
    exact .addition (h.inline hq ha) ht (h'.inline (hq.operand (k := .sum)) ha')
  | .product h, q, hq, ha => .product (h.inline (hq.operand (k := .product)) ha)
  | .multiplication h ht h', q, hq, ha => by
    rw [h.operands_chain (k := .product) hq ht] at ha
    obtain ⟨ha, ha'⟩ := List.forall_mem_append.1 ha
    rw [inline_operator (multiplicative?_eq_some_iff.1 ht).1]
    exact .multiplication (h.inline hq ha) ht (h'.inline (hq.operand (k := .product)) ha')
  | .power h, q, hq, ha => .power (h.inline hq.negation ha)
  | .exponentiation h ht hd h', q, hq, ha => by
    obtain ⟨q', hq', heq⟩ := h.operands_power hq ht
    rw [heq] at ha
    obtain ⟨ha, ha'⟩ := List.forall_mem_append.1 ha
    rw [inline_operator (power?_eq_some.1 ht).1]
    exact .exponentiation (h.inline hq.negation ha) ht hd (h'.inline hq' ha')
  | .negation h, q, hq, ha => .negation (h.inline hq ha)
  | .opposite ht hd h, q, hq, ha => by
    rw [operands_minus ht] at ha
    rw [inline_cons_of_ne (by simp [(negation?_eq_some.1 ht).1])]
    exact .opposite ht hd (h.inline (hq.minus ht) ha)
  | .number ht, q, hq, ha => by
    rw [inline_cons_of_ne (by simp [ht])]
    exact .number ht
  | .name (x := y) ht, q, hq, ha => by
    rw [operands_name ht, List.forall_mem_singleton, hq.2] at ha
    rw [inline_cons, ht]
    by_cases hy : y = x
    · -- the place is at the level of the phrase, so that the replacement fits here
      subst hy
      simpa [Expr.subst] using ha ⟨rfl, rfl⟩
    · simpa [Expr.subst, hy] using Forms.name ht
  | .parens ho hd h hc, q, hq, ha => by
    rw [operands_parens ho hc] at ha
    rw [inline_cons_of_ne (by simp [ho]), inline_closing hc]
    exact .parens ho hd (h.inline (hq.inside ho) ha) hc
  | .bareCall hf ho hc, q, hq, ha => by
    rw [inline_call ho, inline_cons_of_ne (by simp [hc])]
    exact .bareCall hf ho hc
  | .call hf ho hd h hc, q, hq, ha => by
    rw [operands_call hf ho hc, List.forall_mem_cons] at ha
    rw [inline_call ho, inline_closing hc]
    exact .call hf ho hd (h.inline (hq.arguments hf ho) ha.2) hc

theorem FormsAll.inline {d ts es} : FormsAll m d ts es → ∀ {q : Place}, q.Awaits d .sum →
    (∀ a ∈ operands q ts, a.IsVar x → Forms m .primary a.level ws u) →
    FormsAll m d (inline x ws ts) (substAll x u es)
  | .one h, q, hq, ha => .one (h.inline hq ha)
  | .more h hc hs, q, hq, ha => by
    rw [h.operands_comma hq hc] at ha
    obtain ⟨ha, ha'⟩ := List.forall_mem_append.1 ha
    rw [inline_between (by rw [hc]; rfl) (by simp [hc])]
    exact .more (h.inline hq ha) hc (hs.inline hq ha')

end

/-- An expression in parentheses is a primary wherever it does not nest too deep. -/
theorem forms_inParens {u : Expr} (h : parse us = .ok u) (hd : d + 1 + nesting us ≤ maxDepth) :
    Forms maxDepth .primary d (inParens us) u := by
  have h := parse_eq_ok_iff_forms.1 h
  have h : Forms (nesting us) .sum 0 us u := (forms_iff_nesting_le h).2 (Nat.le_refl _)
  exact .parens rfl (by omega) (h.shift (by omega)) rfl

/-! ## Answers -/

mutual

/-- **What has an answer without names** has the same answer whatever names mean. -/
theorem answer_of_empty : ∀ {e : Expr} {n : Number}, e.answer .empty = .ok n → e.answer s = .ok n
  | literal _ _, _, h => h
  | .var _ _, _, h => by cases h
  | unary _ e _, _, h => by
    obtain ⟨hop, m, he, hn⟩ := answer_unary_eq_ok.1 h
    exact answer_unary_eq_ok.2 ⟨hop, m, answer_of_empty he, hn⟩
  | binary _ l r _, _, h => by
    obtain ⟨a, b, ha, hb, hn⟩ := answer_binary_eq_ok.1 h
    exact answer_binary_eq_ok.2 ⟨a, b, answer_of_empty ha, answer_of_empty hb, hn⟩
  | call _ _ _, _, h => by
    obtain ⟨g, _, hg, -⟩ := answer_call_eq_ok.1 h
    cases hg

end

mutual

/-- **A tree with a variable replaced** comes to what it comes to where the variable has the value
    of the replacement. -/
theorem answer_subst (hu : u.answer s = .ok v) : ∀ e : Expr,
    (subst x u e).answer s = e.answer (s.set x v)
  | literal n p => by rw [subst, answer_literal, answer_literal]
  | .var y p => by
    rw [subst, answer_var]
    unfold Scope.value Scope.set
    by_cases hy : y = x
    · simp only [hy, if_true]
      exact hu
    · simp only [hy, if_false, answer_var]
      rfl
  | unary op e p => by rw [subst, answer_unary, answer_unary, answer_subst hu e]
  | binary op l r p => by
    simp only [subst, answer_binary, answer_subst hu l, answer_subst hu r]
  | call f args p => by
    rw [subst, answer_call, answer_call, answers_subst hu args]
    rfl

theorem answers_subst (hu : u.answer s = .ok v) : ∀ es : List Expr,
    (substAll x u es).mapM (answer s) = es.mapM (answer (s.set x v))
  | [] => rfl
  | e :: es => by
    simp only [substAll, List.mapM_cons, answer_subst hu e, answers_subst hu es]

end

/-! ## Definitions -/

/-- **To define a variable is to write its expression in parentheses.**  Let an expression come to
    a number without any names, and let it stand in parentheses for a variable of another one, where
    this nests no deeper than allowed.  What is written so is accepted, as the tree with the
    variable replaced, and comes in every scope to what the other expression comes to where the
    variable is defined as the number: the same number, or the same failure apart from its
    position. -/
theorem parse_inline {us ts ts' : List Token} {u e : Expr} {v : Number} {x : String}
    (hu : parse us = .ok u) (hv : u.answer (Scope.of none none) = .ok v) (he : parse ts = .ok e)
    (hd : ∀ a ∈ operands .start ts, a.IsVar x → a.level + 1 + nesting us ≤ maxDepth)
    (ht : SameLexemes ts' (inline x (inParens us) ts)) :
    ∃ e', parse ts' = .ok e' ∧ e'.unspotted = (subst x u e).unspotted ∧
      ∀ (definitions : Option (Registry PlainValue)) (functions : Option Functions),
        (e'.answer (Scope.of definitions functions)).mapError Failure.unplaced =
          (e.answer (Scope.of (some ((definitions.getD .empty).insert x (.number v)))
            functions)).mapError Failure.unplaced := by
  have hf : Forms maxDepth .sum 0 (inline x (inParens us) ts) (subst x u e) :=
    (parse_eq_ok_iff_forms.1 he).inline Place.awaits_start fun a ha hx =>
      forms_inParens hu (hd a ha hx)
  obtain ⟨e', he', hs⟩ := parse_relay (parse_eq_ok_iff_forms.2 hf) ht
  refine ⟨e', he', hs, fun definitions functions => ?_⟩
  rw [answer_congr_unspotted hs, answer_subst (answer_of_empty hv), Scope.of_insert]

/-- An exponent that is defined as minus three. -/
theorem parse_inline_exponent :
    let us : List Token := [⟨"-", 0, .operator "-"⟩, ⟨"3", 1, .number (.int 3)⟩]
    let ts : List Token :=
      [⟨"2", 0, .number (.int 2)⟩, ⟨"^", 2, .operator "^"⟩, ⟨"x", 4, .name "x"⟩]
    let ts' : List Token := [⟨"2", 0, .number (.int 2)⟩, ⟨"^", 2, .operator "^"⟩,
      ⟨"(", 4, .opening⟩, ⟨"-", 5, .operator "-"⟩, ⟨"3", 6, .number (.int 3)⟩, ⟨")", 7, .closing⟩]
    let u : Expr := .unary "-" (.literal (.int 3) 1) 0
    let e : Expr := .binary "^" (.literal (.int 2) 0) (.var "x" 4) 2
    parse us = .ok u ∧ u.answer (Scope.of none none) = .ok (.int (-3)) ∧ parse ts = .ok e ∧
      (∀ a ∈ operands .start ts, a.IsVar "x" → a.level + 1 + nesting us ≤ maxDepth) ∧
      SameLexemes ts' (inline "x" (inParens us) ts) ∧
      ∃ e', parse ts' = .ok e' ∧ e'.unspotted = (subst "x" u e).unspotted ∧
        ∀ (definitions : Option (Registry PlainValue)) (functions : Option Functions),
          (e'.answer (Scope.of definitions functions)).mapError Failure.unplaced =
            (e.answer (Scope.of (some ((definitions.getD .empty).insert "x" (.number (.int (-3)))))
              functions)).mapError Failure.unplaced := by
  intro us ts ts' u e
  have hu : parse us = .ok u := parse_eq_ok_iff_forms.2
    (.sum (.product (.power (.opposite rfl (by decide) (.negation (.number rfl))))))
  have hv : u.answer (Scope.of none none) = .ok (.int (-3)) := by
    rw [answer_unary, answer_literal]
    rfl
  have hp : Forms maxDepth .power 0 ts e := .exponentiation (g := "^") (.negation (.number rfl)) rfl
    (by decide) (.power (.negation (.name rfl)))
  have he : parse ts = .ok e := parse_eq_ok_iff_forms.2 (.sum (.product hp))
  have hd : ∀ a ∈ operands .start ts, a.IsVar "x" → a.level + 1 + nesting us ≤ maxDepth := by
    intro a ha _
    have hl : a.level ≤ nesting ts := nesting_le.1 (Nat.le_refl _) a ha
    have hts : nesting ts = 1 := rfl
    have hus : nesting us = 1 := rfl
    have hm : maxDepth = 100 := rfl
    omega
  have ht : SameLexemes ts' (inline "x" (inParens us) ts) := rfl
  exact ⟨hu, hv, he, hd, ht, parse_inline hu hv he hd ht⟩

end

end Expr

end Reckon
