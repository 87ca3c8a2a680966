/-
  The names that occur.

  Names are looked up where they stand in an expression, and nowhere else.  What other names
  mean is of no account, and a variable and a function of the same name are two names.

  * `Scope.AgreesOn`: two scopes give the names in an expression the same meaning;
  * `evaluate_congr`: in such scopes the expression is the same calculation;
  * `Scope.Extends`: a scope with further names; `agreesOn_of_answer`: an expression with an
    answer has no further names in it;
  * `evaluate_occurring`: both together, for registries.
-/
import Reckon.Proofs.Answers

namespace Reckon

/-- Two scopes give the same meaning to every variable and every function that occurs in an
    expression, or give it none. -/
structure Scope.AgreesOn (s s' : Scope) (e : Expr) : Prop where
  value : ∀ x p, .var x p ∈ e.subtrees → s'.value? x = s.value? x
  callable : ∀ f args p, .call f args p ∈ e.subtrees → s'.callable? f = s.callable? f

/-- A scope with further names, in which the names of another keep their meaning. -/
structure Scope.Extends (s' s : Scope) : Prop where
  value : ∀ x v, s.value? x = some v → s'.value? x = some v
  callable : ∀ f g, s.callable? f = some g → s'.callable? f = some g

namespace Expr

variable {s s' : Scope} {e t : Expr} {n : Number}

/-! ## The same meaning -/

/-- Scopes that agree on an expression agree on its parts. -/
theorem agreesOn_part (h : s.AgreesOn s' e) (ht : t ∈ e.subtrees) : s.AgreesOn s' t where
  value x p hx := h.value x p (subtrees_subset t ht hx)
  callable f args p hf := h.callable f args p (subtrees_subset t ht hf)

theorem value_congr {x : String} (h : s'.value? x = s.value? x) : s'.value x = s.value x := by
  unfold Scope.value
  rw [h]

theorem callable_congr {f : String} (h : s'.callable? f = s.callable? f) :
    s'.callable f = s.callable f := by
  unfold Scope.callable
  rw [h]

mutual

/-- **An expression denotes the same calculation** in scopes that agree on its names. -/
theorem denote_congr : ∀ e : Expr, s.AgreesOn s' e → denote s' e = denote s e
  | literal n p, _ => by rw [denote, denote]
  | .var x p, h => by
    have hx := h.value x p (mem_subtrees_self _)
    rw [denote, denote, value_congr hx]
  | unary op e p, h => by
    have he : e ∈ (unary op e p).subtrees := by simp [subtrees, mem_subtrees_self]
    rw [denote, denote, denote_congr e (agreesOn_part h he)]
  | binary op l r p, h => by
    have hl : l ∈ (binary op l r p).subtrees := by simp [subtrees, mem_subtrees_self]
    have hr : r ∈ (binary op l r p).subtrees := by simp [subtrees, mem_subtrees_self]
    rw [denote, denote, denote_congr l (agreesOn_part h hl), denote_congr r (agreesOn_part h hr)]
  | call f args p, h => by
    have hf := h.callable f args p (mem_subtrees_self _)
    have hargs : ∀ e ∈ args, s.AgreesOn s' e := fun e he =>
      agreesOn_part h (List.mem_cons_of_mem _ (mem_subtreesAll.2 ⟨e, he, mem_subtrees_self e⟩))
    rw [denote, denote, callable_congr hf, denoteAll_congr args hargs]

theorem denoteAll_congr : ∀ es : List Expr, (∀ e ∈ es, s.AgreesOn s' e) →
    denoteAll s' es = denoteAll s es
  | [], _ => by rw [denoteAll, denoteAll]
  | e :: es, h => by
    obtain ⟨he, hes⟩ := List.forall_mem_cons.1 h
    rw [denoteAll, denoteAll, denote_congr e he, denoteAll_congr es hes]

end

/-- An expression is evaluated alike in scopes that agree on its names. -/
theorem evaluate_congr (h : s.AgreesOn s' e) : e.evaluate s' = e.evaluate s := by
  rw [evaluate, evaluate, evaluateWith_eq, evaluateWith_eq, denote_congr e h]

/-! ## Further names -/

/-- The names in an expression with an answer have a meaning, so that none of them is further. -/
theorem agreesOn_of_answer (hx : s'.Extends s) (h : e.answer s = .ok n) : s.AgreesOn s' e where
  value x p ht := by
    obtain ⟨m, hm⟩ := subtrees_answer h _ ht
    rw [answer_var] at hm
    have hv := value_eq_ok.1 hm
    rw [hv, hx.value x _ hv]
  callable f args p ht := by
    obtain ⟨m, hm⟩ := subtrees_answer h _ ht
    obtain ⟨g, -, hg, -⟩ := answer_call_eq_ok.1 hm
    have hc := callable_eq_ok.1 hg
    rw [hc, hx.callable f g hc]

/-! ## Registries -/

/-- **Only the names that occur matter.**  With registries, present or not, that agree on the
    variables and on the functions in an expression, its evaluation is the same calculation: it
    comes to the same number or the same failure, after the same runs of functions.  And what an
    expression comes to when it has an answer, it comes to with further names as well. -/
theorem evaluate_occurring (e : Expr) (definitions definitions' : Option (Registry PlainValue))
    (functions functions' : Option Functions) :
    ((Scope.of definitions functions).AgreesOn (Scope.of definitions' functions') e →
      e.evaluate (Scope.of definitions' functions') =
        e.evaluate (Scope.of definitions functions)) ∧
    ∀ n runs, (e.evaluate (Scope.of definitions functions)).outcome = (.ok n, runs) →
      (Scope.of definitions' functions').Extends (Scope.of definitions functions) →
      (e.evaluate (Scope.of definitions' functions')).outcome = (.ok n, runs) := by
  refine ⟨evaluate_congr, fun n runs h hx => ?_⟩
  have ha : e.answer (Scope.of definitions functions) = .ok n := congrArg Prod.fst h
  rw [evaluate_congr (agreesOn_of_answer hx ha), h]

/-- A function and a variable, with a variable and a function of the same names further on: the sum
    fails without the definition of the one, and with it has the same answer. -/
theorem evaluate_occurring_names :
    let g : Callable := .given fun _ => .ok (.number (.int 5))
    let e : Expr := .binary "+" (.call "x" [.literal (.int 1) 2] 0) (.var "y" 7) 5
    let s := Scope.of none (some ⟨[("x", g)]⟩)
    let s' := Scope.of (some ⟨[("x", .number (.int 7))]⟩) (some ⟨[("y", g), ("x", g)]⟩)
    let u := Scope.of (some ⟨[("y", .number (.int 2))]⟩) (some ⟨[("x", g)]⟩)
    let u' := Scope.of (some ⟨[("x", .flag true), ("y", .number (.int 2))]⟩)
      (some ⟨[("y", g), ("x", g)]⟩)
    (s.AgreesOn s' e ∧ e.evaluate s' = e.evaluate s ∧
      (e.evaluate s').outcome = (.error (.error (.undefinedVariable "y")), #[⟨"x", [.int 1]⟩])) ∧
    (e.evaluate u).outcome = (.ok (.int 7), #[⟨"x", [.int 1]⟩]) ∧ u'.Extends u ∧
      (e.evaluate u').outcome = (.ok (.int 7), #[⟨"x", [.int 1]⟩]) := by
  intro g e s s' u u'
  have hagree : s.AgreesOn s' e := by
    refine ⟨fun x p h => ?_, fun f args p h => ?_⟩
    · simp only [e, subtrees, subtreesAll, List.append_nil, List.mem_cons, List.mem_append,
        reduceCtorEq, List.not_mem_nil, or_false, false_or, Expr.var.injEq] at h
      rw [h.1]
      rfl
    · simp only [e, subtrees, subtreesAll, List.append_nil, List.mem_cons, List.mem_append,
        reduceCtorEq, List.not_mem_nil, or_false, false_or, Expr.call.injEq] at h
      rw [h.1]
      rfl
  have hext : u'.Extends u := by
    refine ⟨fun x v h => ?_, fun f k h => ?_⟩
    · by_cases hy : x = "y"
      · subst hy
        exact h
      · have hb : (x == "y") = false := by simpa using hy
        simp [u, Scope.of, Registry.find?, List.lookup_cons, hb] at h
    · by_cases hx : f = "x"
      · subst hx
        exact h
      · have hb : (f == "x") = false := by simpa using hx
        simp [u, Scope.of, Registry.find?, List.lookup_cons, hb] at h
  have hu : (e.evaluate u).outcome = (.ok (.int 7), #[⟨"x", [.int 1]⟩]) := by rfl
  have hs' : (e.evaluate s').outcome =
      (.error (.error (.undefinedVariable "y")), #[⟨"x", [.int 1]⟩]) := by rfl
  exact ⟨⟨hagree, (evaluate_occurring e _ _ _ _).1 hagree, hs'⟩, hu, hext,
    (evaluate_occurring e _ _ _ _).2 _ _ hu hext⟩

end Expr

end Reckon
