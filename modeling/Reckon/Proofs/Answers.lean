/-
  What an expression comes to, apart from the functions that it runs.

  An evaluation keeps a record of the functions it runs, but nothing in it looks at
  the record.  The number or the failure of an expression is therefore a matter of
  the answers of its parts.

  * `Evaluation.answer`: what a calculation comes to; `Evaluation.Steady`: whatever is
    on record before;
  * `value_eq_error`, `callable_eq_error`, `run_eq_error`: what names and functions fail with;
  * `answer_literal` to `answer_call`: the answer of an expression by the answers of its
    operands;
  * `subtrees`: an expression and everything inside it; `subtrees_answer`: of an
    expression with an answer, every part has one.
-/
import Reckon.Proofs.Denotation
import Reckon.Proofs.Reading

namespace Reckon

/-! ## Calculations -/

/-- Results can be compared, so that what a given calculation comes to is found by running it. -/
instance instDecidableEqResult {ε α : Type} [DecidableEq ε] [DecidableEq α] :
    DecidableEq (Except ε α)
  | .ok a, .ok b => decidable_of_iff (a = b) (by simp)
  | .error x, .error y => decidable_of_iff (x = y) (by simp)
  | .ok _, .error _ | .error _, .ok _ => isFalse (by simp)

/-- What a calculation comes to. -/
def Evaluation.answer {α : Type} (c : Evaluation α) : Except Failure α := c.outcome.1

/-- A calculation comes to the same whatever is on record before. -/
def Evaluation.Steady {α : Type} (c : Evaluation α) : Prop :=
  ∀ log, (c.run.run log).1 = c.answer

namespace Evaluation

variable {α β : Type} {c : Evaluation α} {k : α → Evaluation β}

@[simp]
theorem answer_pure (a : α) : (pure a : Evaluation α).answer = .ok a := rfl

@[simp]
theorem answer_lift (r : Except Failure α) : (Evaluation.lift r).answer = r := rfl

theorem Steady.pure (a : α) : (Pure.pure a : Evaluation α).Steady := fun _ => rfl

theorem Steady.throw (f : Failure) : (MonadExcept.throw f : Evaluation α).Steady := fun _ => rfl

theorem Steady.lift (r : Except Failure α) : (Evaluation.lift r).Steady := fun _ => rfl

/-- One calculation after another, from any record. -/
theorem run_bind (hk : ∀ a, (k a).Steady) (log : Array Run) :
    ((c >>= k).run.run log).1 = (c.run.run log).1 >>= fun a => (k a).answer := by
  rw [ExceptT.run_bind, StateT.run_bind]
  rcases c.run.run log with ⟨_ | a, log'⟩
  · rfl
  · exact hk a log'

theorem answer_bind (hk : ∀ a, (k a).Steady) :
    (c >>= k).answer = c.answer >>= fun a => (k a).answer := run_bind hk #[]

theorem Steady.bind (hc : c.Steady) (hk : ∀ a, (k a).Steady) : (c >>= k).Steady := by
  intro log
  rw [run_bind hk, answer_bind hk, hc log]

end Evaluation

theorem runFunction_steady (name : String) (g : Callable) (args : List Number) :
    (runFunction name g args).Steady := fun _ => rfl

@[simp]
theorem answer_runFunction (name : String) (g : Callable) (args : List Number) :
    (runFunction name g args).answer = g.run args := rfl

/-! ## Operations -/

section
variable {op : String} {p : Int} {a b n : Number} {f : Failure}

theorem glyph_of_ofGlyph? {g : String} {o : Operator} (h : Operator.ofGlyph? g = some o) :
    o.glyph = g := by
  simpa using List.find?_some h

/-- An operation has an answer if its sign is an operator's, and the operator has it. -/
theorem applyOperator_eq_ok : applyOperator op p a b = .ok n ↔
    ∃ o, Operator.ofGlyph? op = some o ∧ o.apply a b = .ok n := by
  unfold applyOperator
  rcases Operator.ofGlyph? op with _ | o
  · simp
  · simp [Expr.mapError_eq_ok]

/-- An operation fails for its sign, or with the fault of the operator put into words. -/
theorem applyOperator_eq_error_iff : applyOperator op p a b = .error f ↔
    (Operator.ofGlyph? op = none ∧ f = .unknownOperator op) ∨
      ∃ o k, Operator.ofGlyph? op = some o ∧ o.apply a b = .error k ∧
        f = .error (operatorError op p k) := by
  unfold applyOperator
  rcases Operator.ofGlyph? op with _ | o
  · simp [eq_comm]
  · simp [Expr.mapError_eq_error]

/-- Every known sign has an operator. -/
theorem ofGlyph?_ne_none {g : String} (h : g ∈ Operator.all.map Operator.glyph) :
    Operator.ofGlyph? g ≠ none := by
  obtain ⟨o, ho, rfl⟩ := List.mem_map.1 h
  intro hn
  have := List.find?_eq_none.1 hn o ho
  simp at this

end

/-! ## Names and functions -/

section
variable {s : Scope} {x : String} {n : Number} {f : Failure} {v : PlainValue} {g : Callable}
  {args : List Number}

theorem ofRejection_eq_ok : Failure.ofRejection (Number.ofPlain v) = .ok n ↔ v = .number n := by
  rw [Failure.ofRejection, Expr.mapError_eq_ok]
  cases v <;> simp [Number.ofPlain]

theorem ofPlain_eq_error {r : Rejection} :
    Number.ofPlain v = .error r ↔ (∀ n, v ≠ .number n) ∧ r = .notNumber v := by
  cases v <;> simp [Number.ofPlain, eq_comm]

theorem ofRejection_eq_error : Failure.ofRejection (Number.ofPlain v) = .error f ↔
    (∀ n, v ≠ .number n) ∧ f = .rejected (.notNumber v) := by
  rw [Failure.ofRejection, Expr.mapError_eq_error]
  simp only [ofPlain_eq_error, and_assoc, exists_and_left, exists_eq_left]

theorem value_eq_ok : s.value x = .ok n ↔ s.value? x = some (.number n) := by
  unfold Scope.value
  rcases s.value? x with _ | v
  · simp
  · simp [ofRejection_eq_ok]

/-- A variable has no value if it is undefined, or defined as what is no number. -/
theorem value_eq_error : s.value x = .error f ↔
    (s.value? x = none ∧ f = .error (.undefinedVariable x)) ∨
      ∃ v, s.value? x = some v ∧ (∀ n, v ≠ .number n) ∧ f = .rejected (.notNumber v) := by
  unfold Scope.value
  rcases s.value? x with _ | v
  · simp [eq_comm]
  · simp [ofRejection_eq_error]

theorem callable_eq_ok : s.callable x = .ok g ↔ s.callable? x = some g := by
  unfold Scope.callable
  rcases s.callable? x with _ | g'
  · simp
  · simp

theorem callable_eq_error : s.callable x = .error f ↔
    s.callable? x = none ∧ f = .error (.undefinedFunction x) := by
  unfold Scope.callable
  rcases s.callable? x with _ | g
  · simp [eq_comm]
  · simp

/-- A function has an answer if it is a standard one that has it, or a caller's that gives it. -/
theorem run_eq_ok : g.run args = .ok n ↔ (∃ k, g = .standard k ∧ k.run args = .ok n) ∨
    ∃ k, g = .given k ∧ k args = .ok (.number n) := by
  cases g with
  | standard k => simp [Callable.run, Failure.ofError, Expr.mapError_eq_ok]
  | given k =>
    refine Expr.bind_eq_ok.trans ?_
    simp [ofRejection_eq_ok]

/-- A standard function fails with an error of its own.  A function of a caller's fails with
    whatever it likes, and its answer is rejected if it is no number. -/
theorem run_eq_error : g.run args = .error f ↔
    (∃ k e, g = .standard k ∧ k.run args = .error e ∧ f = .error e) ∨
      ∃ k, g = .given k ∧ (k args = .error f ∨
        ∃ v, k args = .ok v ∧ (∀ n, v ≠ .number n) ∧ f = .rejected (.notNumber v)) := by
  cases g with
  | standard k => simp [Callable.run, Failure.ofError, Expr.mapError_eq_error]
  | given k =>
    refine Expr.bind_eq_error.trans ?_
    simp [ofRejection_eq_error]

end

namespace Expr

variable {s : Scope} {op x f : String} {p : Int} {e l r t u : Expr} {args : List Expr} {n : Number}
  {err : Failure}

open Evaluation (Steady)

/-! ## Expressions -/

mutual

theorem denote_steady : ∀ e, (denote s e).Steady
  | literal n _ => by
    rw [denote]
    exact .pure n
  | .var x _ => by
    rw [denote]
    exact .lift _
  | unary op e _ => by
    rw [denote]
    have he : ∀ _ : PUnit, (denote s e >>= fun n => pure n.negate).Steady := fun _ =>
      (denote_steady e).bind fun n => .pure n.negate
    by_cases h : op = "-"
    · simpa [h] using he ⟨⟩
    · simpa [h] using Steady.bind (.throw (.unknownOperator op)) he
  | binary op l r p => by
    rw [denote]
    exact (denote_steady l).bind fun a => (denote_steady r).bind fun b => .lift _
  | call f args _ => by
    rw [denote]
    exact Steady.bind (.lift _) fun g =>
      (denoteAll_steady args).bind fun values => runFunction_steady f g values

theorem denoteAll_steady : ∀ es, (denoteAll s es).Steady
  | [] => by
    rw [denoteAll]
    exact .pure []
  | e :: es => by
    rw [denoteAll]
    exact (denote_steady e).bind fun n => (denoteAll_steady es).bind fun ns => .pure (n :: ns)

end

/-- The number or the failure that an expression comes to. -/
def answer (s : Scope) (e : Expr) : Except Failure Number := (e.evaluate s).answer

theorem answer_eq (e : Expr) : e.answer s = (denote s e).answer := by
  rw [answer, evaluate, evaluateWith_eq, resume_nil, bind_pure]

theorem evaluate_steady (e : Expr) : (e.evaluate s).Steady := by
  rw [evaluate, evaluateWith_eq, resume_nil, bind_pure]
  exact denote_steady e

@[simp]
theorem answer_literal : (literal n p).answer s = .ok n := by
  rw [answer_eq, denote]
  rfl

@[simp]
theorem answer_var : (Expr.var x p).answer s = s.value x := by
  rw [answer_eq, denote]
  rfl

theorem answer_unary : (unary op e p).answer s =
    if op = "-" then (e.answer s).map Number.negate else .error (.unknownOperator op) := by
  rw [answer_eq, answer_eq, denote]
  by_cases h : op = "-"
  · have hb := Evaluation.answer_bind (c := denote s e) fun n => .pure n.negate
    simp only [h, ne_eq, not_true_eq_false, if_false, if_true]
    rw [hb]
    cases (denote s e).answer <;> rfl
  · simp only [h, ne_eq, not_false_eq_true, if_true, if_false]
    rfl

theorem answer_binary : (binary op l r p).answer s =
    (do let a ← l.answer s; let b ← r.answer s; applyOperator op p a b) := by
  have hk : ∀ a b, (Evaluation.lift (applyOperator op p a b)).Steady := fun a b => .lift _
  rw [answer_eq, answer_eq, answer_eq, denote,
    Evaluation.answer_bind fun a => (denote_steady r).bind (hk a)]
  simp only [Evaluation.answer_bind (hk _), Evaluation.answer_lift]

theorem denoteAll_answer : ∀ es : List Expr, (denoteAll s es).answer = es.mapM (·.answer s)
  | [] => by
    rw [denoteAll]
    rfl
  | e :: es => by
    have hk : ∀ n ns, (pure (n :: ns) : Evaluation (List Number)).Steady := fun n ns => .pure _
    rw [denoteAll, Evaluation.answer_bind fun n => (denoteAll_steady es).bind (hk n),
      List.mapM_cons, answer_eq, ← denoteAll_answer es]
    simp only [Evaluation.answer_bind (hk _), Evaluation.answer_pure]
    rfl

theorem answer_call : (call f args p).answer s =
    (do let g ← s.callable f; let values ← args.mapM (·.answer s); g.run values) := by
  rw [answer_eq, denote, Evaluation.answer_bind fun g =>
    (denoteAll_steady args).bind (runFunction_steady f g)]
  simp only [Evaluation.answer_bind (runFunction_steady f _), Evaluation.answer_lift,
    denoteAll_answer, answer_runFunction]

/-! ## Answers and failures of operands -/

theorem mapM_eq_ok : ∀ {es : List Expr} {ns : List Number}, es.mapM (·.answer s) = .ok ns →
    ∀ e ∈ es, ∃ n, e.answer s = .ok n
  | [], _, _ => by simp
  | e :: es, ns, h => by
    rw [List.mapM_cons] at h
    obtain ⟨m, hm, h⟩ := bind_eq_ok.1 h
    obtain ⟨ms, hms, -⟩ := bind_eq_ok.1 h
    exact List.forall_mem_cons.2 ⟨⟨m, hm⟩, mapM_eq_ok hms⟩

theorem answer_unary_eq_ok : (unary op e p).answer s = .ok n ↔
    op = "-" ∧ ∃ m, e.answer s = .ok m ∧ m.negate = n := by
  rw [answer_unary]
  by_cases h : op = "-"
  · simp only [h, if_true, true_and]
    exact map_eq_ok
  · simp [h]

theorem answer_binary_eq_ok : (binary op l r p).answer s = .ok n ↔
    ∃ a b, l.answer s = .ok a ∧ r.answer s = .ok b ∧ applyOperator op p a b = .ok n := by
  rw [answer_binary]
  constructor
  · intro h
    obtain ⟨a, ha, h⟩ := bind_eq_ok.1 h
    obtain ⟨b, hb, h⟩ := bind_eq_ok.1 h
    exact ⟨a, b, ha, hb, h⟩
  · rintro ⟨a, b, ha, hb, h⟩
    rw [ha, hb]
    exact h

theorem answer_call_eq_ok : (call f args p).answer s = .ok n ↔
    ∃ g values, s.callable f = .ok g ∧ args.mapM (·.answer s) = .ok values ∧
      g.run values = .ok n := by
  rw [answer_call]
  constructor
  · intro h
    obtain ⟨g, hg, h⟩ := bind_eq_ok.1 h
    obtain ⟨values, hv, h⟩ := bind_eq_ok.1 h
    exact ⟨g, values, hg, hv, h⟩
  · rintro ⟨g, values, hg, hv, h⟩
    rw [hg, hv]
    exact h

/-! ## Parts of an expression -/

mutual

/-- An expression and everything inside it, operations before their operands. -/
def subtrees : Expr → List Expr
  | literal n p => [literal n p]
  | .var x p => [.var x p]
  | unary op e p => unary op e p :: subtrees e
  | binary op l r p => binary op l r p :: (subtrees l ++ subtrees r)
  | call f args p => call f args p :: subtreesAll args

/-- Several expressions and everything inside them. -/
def subtreesAll : List Expr → List Expr
  | [] => []
  | e :: es => subtrees e ++ subtreesAll es

end

theorem mem_subtrees_self (e : Expr) : e ∈ e.subtrees := by
  cases e <;> simp [subtrees]

theorem mem_subtreesAll {es : List Expr} : t ∈ subtreesAll es ↔ ∃ e ∈ es, t ∈ e.subtrees := by
  induction es with
  | nil => simp [subtreesAll]
  | cons e es ih => simp [subtreesAll, ih]

mutual

/-- A part of a part is a part. -/
theorem subtrees_subset : ∀ {e : Expr}, ∀ t ∈ e.subtrees, t.subtrees ⊆ e.subtrees
  | literal _ _ | .var _ _ => by simp [subtrees]
  | unary _ e _ => by
    rw [subtrees, List.forall_mem_cons]
    exact ⟨by simp [subtrees], fun t ht => List.subset_cons_of_subset _ (subtrees_subset t ht)⟩
  | binary _ l r _ => by
    rw [subtrees, List.forall_mem_cons, List.forall_mem_append]
    refine ⟨by simp [subtrees], fun t ht => ?_, fun t ht => ?_⟩
    · exact List.subset_cons_of_subset _
        (List.subset_append_of_subset_left _ (subtrees_subset t ht))
    · exact List.subset_cons_of_subset _
        (List.subset_append_of_subset_right _ (subtrees_subset t ht))
  | call _ args _ => by
    rw [subtrees, List.forall_mem_cons]
    exact ⟨by simp [subtrees], fun t ht => List.subset_cons_of_subset _ (subtreesAll_subset t ht)⟩

theorem subtreesAll_subset : ∀ {es : List Expr}, ∀ t ∈ subtreesAll es,
    t.subtrees ⊆ subtreesAll es
  | [] => by simp [subtreesAll]
  | e :: es => by
    rw [subtreesAll, List.forall_mem_append]
    refine ⟨fun t ht => ?_, fun t ht => ?_⟩
    · exact List.subset_append_of_subset_left _ (subtrees_subset t ht)
    · exact List.subset_append_of_subset_right _ (subtreesAll_subset t ht)

end

mutual

/-- **Whatever has an answer is made of parts with answers.** -/
theorem subtrees_answer : ∀ {e : Expr} {n : Number}, e.answer s = .ok n →
    ∀ t ∈ e.subtrees, ∃ m, t.answer s = .ok m
  | literal _ _, _, h | .var _ _, _, h => by
    rw [subtrees, List.forall_mem_singleton]
    exact ⟨_, h⟩
  | unary _ e _, _, h => by
    obtain ⟨-, m, he, -⟩ := answer_unary_eq_ok.1 h
    rw [subtrees, List.forall_mem_cons]
    exact ⟨⟨_, h⟩, subtrees_answer he⟩
  | binary _ l r _, _, h => by
    obtain ⟨a, b, ha, hb, -⟩ := answer_binary_eq_ok.1 h
    rw [subtrees, List.forall_mem_cons, List.forall_mem_append]
    exact ⟨⟨_, h⟩, subtrees_answer ha, subtrees_answer hb⟩
  | call _ args _, _, h => by
    obtain ⟨g, values, -, hv, -⟩ := answer_call_eq_ok.1 h
    rw [subtrees, List.forall_mem_cons]
    exact ⟨⟨_, h⟩, subtreesAll_answer (mapM_eq_ok hv)⟩

theorem subtreesAll_answer : ∀ {es : List Expr}, (∀ e ∈ es, ∃ n, e.answer s = .ok n) →
    ∀ t ∈ subtreesAll es, ∃ m, t.answer s = .ok m
  | [], _ => by simp [subtreesAll]
  | e :: es, h => by
    obtain ⟨⟨n, hn⟩, h⟩ := List.forall_mem_cons.1 h
    rw [subtreesAll, List.forall_mem_append]
    exact ⟨subtrees_answer hn, subtreesAll_answer h⟩

end

end Expr

end Reckon
