/-
  The first failure.

  Nothing in an expression holds a failure back or turns it into another one.  What an
  expression fails with is what the first part fails with that evaluation comes to and that has
  nothing to wait for.

  * `Reaches`: evaluation comes to a part of an expression; `Reaches.fails`: the failure of such a
    part is that of the whole;
  * `Origin`: a failure comes out of an expression itself, whose operands have answers;
  * `answer_eq_error_iff`: the failure of an expression is that of the first part that fails.
-/
import Reckon.Proofs.Answers

namespace Reckon.Expr

/-- The evaluation of an expression comes to a part of it: whatever is evaluated before that part
    has an answer. -/
inductive Reaches (s : Scope) : Expr → Expr → Prop
  | self {e : Expr} : Reaches s e e
  | operand {e u : Expr} {p : Int} : Reaches s e u → Reaches s (unary "-" e p) u
  | left {op : String} {l r u : Expr} {p : Int} : Reaches s l u → Reaches s (binary op l r p) u
  | right {op : String} {l r u : Expr} {p : Int} {a : Number} : l.answer s = .ok a →
      Reaches s r u → Reaches s (binary op l r p) u
  | argument {f : String} {before after : List Expr} {e u : Expr} {p : Int} {g : Callable}
      {values : List Number} : s.callable f = .ok g → before.mapM (·.answer s) = .ok values →
      Reaches s e u → Reaches s (call f (before ++ e :: after) p) u

/-- A failure comes out of an expression itself: its operands, if any are needed, have answers. -/
inductive Origin (s : Scope) (err : Failure) : Expr → Prop
  | value {x : String} {p : Int} : s.value x = .error err → Origin s err (.var x p)
  | sign {op : String} {e : Expr} {p : Int} : op ≠ "-" → err = .unknownOperator op →
      Origin s err (unary op e p)
  | operation {op : String} {l r : Expr} {p : Int} {a b : Number} : l.answer s = .ok a →
      r.answer s = .ok b → applyOperator op p a b = .error err → Origin s err (binary op l r p)
  | callee {f : String} {args : List Expr} {p : Int} : s.callable f = .error err →
      Origin s err (call f args p)
  | run {f : String} {args : List Expr} {p : Int} {g : Callable} {values : List Number} :
      s.callable f = .ok g → args.mapM (·.answer s) = .ok values → g.run values = .error err →
      Origin s err (call f args p)

variable {s : Scope} {e u t : Expr} {f : Failure}

/-- **The failure of a part that evaluation comes to is that of the whole.** -/
theorem Reaches.fails (h : Reaches s t u) (hu : u.answer s = .error f) : t.answer s = .error f := by
  induction h with
  | self => exact hu
  | operand _ ih =>
    rw [answer_unary, if_pos rfl, ih hu]
    rfl
  | left _ ih =>
    rw [answer_binary, ih hu]
    rfl
  | right hl _ ih =>
    rw [answer_binary, hl, ih hu]
    rfl
  | argument hg hv _ ih =>
    rw [answer_call, hg, List.mapM_append, hv, List.mapM_cons, ih hu]
    rfl

theorem Reaches.mem_subtrees (h : Reaches s t u) : u ∈ t.subtrees := by
  induction h with
  | self => exact mem_subtrees_self _
  | operand _ ih => exact List.mem_cons_of_mem _ ih
  | left _ ih => exact List.mem_cons_of_mem _ (List.mem_append_left _ ih)
  | right _ _ ih => exact List.mem_cons_of_mem _ (List.mem_append_right _ ih)
  | argument _ _ _ ih => exact List.mem_cons_of_mem _ (mem_subtreesAll.2 ⟨_, by simp, ih⟩)

/-- What comes out of an expression is what the expression fails with. -/
theorem Origin.fails (h : Origin s f u) : u.answer s = .error f := by
  cases h with
  | value h => rw [answer_var, h]
  | sign hop hf => rw [answer_unary, if_neg hop, hf]
  | operation hl hr h =>
    rw [answer_binary, hl, hr]
    exact h
  | callee h =>
    rw [answer_call, h]
    rfl
  | run hg hv h =>
    rw [answer_call, hg, hv]
    exact h

mutual

/-- Every failure comes out of a part that evaluation comes to. -/
theorem exists_reached : ∀ {e : Expr}, e.answer s = .error f → ∃ u, Reaches s e u ∧ Origin s f u
  | literal _ _, h => by simp at h
  | .var x p, h => ⟨_, .self, .value (by simpa using h)⟩
  | unary op e p, h => by
    rw [answer_unary] at h
    split at h
    · rename_i hop
      subst hop
      obtain ⟨u, hu, ho⟩ := exists_reached (map_eq_error.1 h)
      exact ⟨u, .operand hu, ho⟩
    · rename_i hop
      cases h
      exact ⟨_, .self, .sign hop rfl⟩
  | binary op l r p, h => by
    rw [answer_binary] at h
    rcases bind_eq_error.1 h with hl | ⟨a, ha, h⟩
    · obtain ⟨u, hu, ho⟩ := exists_reached hl
      exact ⟨u, .left hu, ho⟩
    rcases bind_eq_error.1 h with hr | ⟨b, hb, h⟩
    · obtain ⟨u, hu, ho⟩ := exists_reached hr
      exact ⟨u, .right ha hu, ho⟩
    · exact ⟨_, .self, .operation ha hb h⟩
  | call name args p, h => by
    rw [answer_call] at h
    rcases bind_eq_error.1 h with hg | ⟨g, hg, h⟩
    · exact ⟨_, .self, .callee hg⟩
    rcases bind_eq_error.1 h with hv | ⟨values, hv, h⟩
    · obtain ⟨before, e, after, rfl, ⟨values, hb⟩, u, hu, ho⟩ := exists_reached_among hv
      exact ⟨u, .argument hg hb hu, ho⟩
    · exact ⟨_, .self, .run hg hv h⟩

/-- Of several expressions, those before the one that fails have answers. -/
theorem exists_reached_among : ∀ {es : List Expr}, es.mapM (·.answer s) = .error f →
    ∃ before e after, es = before ++ e :: after ∧
      (∃ values, before.mapM (·.answer s) = .ok values) ∧ ∃ u, Reaches s e u ∧ Origin s f u
  | [], h => by cases h
  | e :: es, h => by
    rw [List.mapM_cons] at h
    rcases bind_eq_error.1 h with he | ⟨n, hn, h⟩
    · exact ⟨[], e, es, rfl, ⟨[], rfl⟩, exists_reached he⟩
    rcases bind_eq_error.1 h with hes | ⟨ns, -, ⟨⟩⟩
    obtain ⟨before, e', after, rfl, ⟨values, hb⟩, hu⟩ := exists_reached_among hes
    refine ⟨e :: before, e', after, rfl, ⟨n :: values, ?_⟩, hu⟩
    rw [List.mapM_cons, hn, hb]
    rfl

end

/-- **The first failure counts**: an expression fails with what comes out of a part that evaluation
    comes to, and with nothing else. -/
theorem answer_eq_error_iff :
    e.answer s = .error f ↔ ∃ u, Reaches s e u ∧ Origin s f u :=
  ⟨exists_reached, fun ⟨_, hu, ho⟩ => hu.fails ho.fails⟩

/-- A failure comes out of a part of the expression. -/
theorem exists_origin (h : e.answer s = .error f) : ∃ t ∈ e.subtrees, Origin s f t := by
  obtain ⟨u, hu, ho⟩ := exists_reached h
  exact ⟨u, hu.mem_subtrees, ho⟩

end Reckon.Expr
