/-
  How deep evaluation nests.

  Evaluation visits an expression, from there its operands, and so on.  It visits a chain of sums
  and products at once: it walks down the left spine and visits the bottom of the spine and the
  right operands along it, all one level deeper.  So a long text does not nest deeply.

  * `visitDepth`: how deep the visits of an expression nest;
  * `spine`, `visit`: evaluation in visits that nest no deeper than a limit;
  * `visit_eq_denote`: a limit of `visitDepth` makes no difference;
  * `Forms.visitDepth_le`: a phrase nests four visits for every level that is left to it, and a few;
  * `visits_of_parse`: the visits of a whole token list.
-/
import Reckon.Proofs.Forms
import Reckon.Proofs.Denotation

namespace Reckon.Expr

/-! ## Visits -/

mutual

/-- How deep the visits of an expression nest.  On the spine of a chain an operation of the chain is
    not visited by itself. -/
def visitDepth (onSpine : Bool) : Expr → Nat
  | literal _ _ | .var _ _ => 1
  | unary _ e _ => visitDepth false e + 1
  | binary op l r _ =>
    let inner := max (visitDepth (leansLeft op) l) (visitDepth false r)
    if onSpine && leansLeft op then inner else inner + 1
  | call _ args _ => visitDepthAll args + 1

/-- How deep the visits of several expressions nest. -/
def visitDepthAll : List Expr → Nat
  | [] => 0
  | e :: es => max (visitDepth false e) (visitDepthAll es)

end

/-- An operation of a chain, without its left operand. -/
structure Link where
  op : String
  rhs : Expr
  spot : Int

/-- The bottom of the left spine, and the operations along it from there. -/
def spine : Expr → Expr × List Link
  | binary op l r p =>
    if leansLeft op then ((spine l).1, (spine l).2 ++ [⟨op, r, p⟩]) else (binary op l r p, [])
  | e => (e, [])

/-- Carries the value of the bottom through the operations of a chain, of which the right operands
    are evaluated in a given way. -/
def carry (value : Expr → Evaluation Number) (links : List Link) (a : Number) : Evaluation Number :=
  links.foldlM (fun a k => do
    let b ← value k.rhs
    Evaluation.lift (applyOperator k.op k.spot a b)) a

section
variable (s : Scope) (tooDeep : Failure)

/-- Evaluates an expression in visits that nest no deeper than a limit; the first that would nest
    deeper fails. -/
def visit : Nat → Expr → Evaluation Number
  | 0, _ => throw tooDeep
  | _ + 1, literal m _ => return m
  | _ + 1, .var x _ => Evaluation.lift (s.value x)
  | n + 1, unary op e _ => do
    if op ≠ "-" then throw (.unknownOperator op)
    let m ← visit n e
    return m.negate
  | n + 1, binary op l r p =>
    if leansLeft op then do
      let a ← visit n (spine l).1
      carry (visit n) ((spine l).2 ++ [⟨op, r, p⟩]) a
    else do
      let a ← visit n l
      let b ← visit n r
      Evaluation.lift (applyOperator op p a b)
  | n + 1, call f args _ => do
    let g ← Evaluation.lift (s.callable f)
    let values ← args.mapM (visit n)
    runFunction f g values

end

section
variable {s : Scope} {tooDeep : Failure} {n : Nat} {e : Expr} {es : List Expr}
  {v w : Expr → Evaluation Number} {k : Link} {ks : List Link} {a : Number}

/-! ## Spines -/

theorem carry_append {ks' : List Link} : carry v (ks ++ ks') a = carry v ks a >>= carry v ks' :=
  List.foldlM_append

theorem carry_singleton : carry v [k] a = (do
    let b ← v k.rhs
    Evaluation.lift (applyOperator k.op k.spot a b)) := bind_pure _

/-- Only the right operands of a chain are evaluated on the way. -/
theorem carry_congr (h : ∀ k ∈ ks, v k.rhs = w k.rhs) : carry v ks a = carry w ks a := by
  induction ks generalizing a with
  | nil => rfl
  | cons k ks ih =>
    obtain ⟨hk, h⟩ := List.forall_mem_cons.1 h
    rw [← List.singleton_append, carry_append, carry_append, carry_singleton, carry_singleton, hk]
    exact congrArg _ (funext fun a => ih h)

/-- The visits along a spine are those of its bottom and of the right operands. -/
theorem visitDepth_spine : ∀ {e : Expr}, visitDepth true e ≤ n →
    visitDepth false (spine e).1 ≤ n ∧ ∀ k ∈ (spine e).2, visitDepth false k.rhs ≤ n
  | literal _ _, h | .var _ _, h | unary _ _ _, h | call _ _ _, h => by
    refine ⟨?_, List.forall_mem_nil _⟩
    simpa only [spine, visitDepth] using h
  | binary op l r p, h => by
    rw [visitDepth] at h
    rw [spine]
    by_cases hop : leansLeft op = true
    · simp only [hop, Bool.and_self, if_true, Nat.max_le] at h ⊢
      obtain ⟨hb, hk⟩ := visitDepth_spine h.1
      exact ⟨hb, List.forall_mem_append.2 ⟨hk, List.forall_mem_singleton.2 h.2⟩⟩
    · simp only [hop, Bool.and_false, if_false, Bool.false_eq_true] at h ⊢
      refine ⟨?_, List.forall_mem_nil _⟩
      rw [visitDepth]
      simpa only [hop, Bool.and_false, if_false, Bool.false_eq_true] using h

/-- A chain comes to what the bottom of its spine and the operations along it come to. -/
theorem denote_spine : ∀ e, denote s e = denote s (spine e).1 >>= carry (denote s) (spine e).2
  | literal _ _ | .var _ _ | unary _ _ _ | call _ _ _ => (bind_pure _).symm
  | binary op l r p => by
    rw [spine]
    by_cases hop : leansLeft op = true
    · simp only [hop, if_true]
      rw [denote, denote_spine l, bind_assoc]
      refine congrArg _ (funext fun a => ?_)
      rw [carry_append]
      exact congrArg _ (funext fun b => (@carry_singleton _ ⟨op, r, p⟩ b).symm)
    · simp only [hop, if_false, Bool.false_eq_true]
      exact (bind_pure _).symm

theorem denoteAll_eq_mapM (es : List Expr) : denoteAll s es = es.mapM (denote s) := by
  induction es with
  | nil =>
    rw [denoteAll]
    rfl
  | cons e es ih => rw [denoteAll, ih, List.mapM_cons]

theorem mapM_congr_of_mem {es : List Expr} (h : ∀ e ∈ es, v e = w e) : es.mapM v = es.mapM w := by
  induction es with
  | nil => rfl
  | cons e es ih =>
    obtain ⟨he, h⟩ := List.forall_mem_cons.1 h
    rw [List.mapM_cons, List.mapM_cons, he, ih h]

theorem visitDepthAll_le : visitDepthAll es ≤ n ↔ ∀ e ∈ es, visitDepth false e ≤ n := by
  induction es with
  | nil => simp [visitDepthAll]
  | cons e es ih => rw [visitDepthAll, Nat.max_le, ih, List.forall_mem_cons]

/-- **A limit that is deep enough makes no difference.** -/
theorem visit_eq_denote : ∀ {n : Nat} {e : Expr}, visitDepth false e ≤ n →
    visit s tooDeep n e = denote s e
  | 0, e, h => by
    cases e <;> simp [visitDepth] at h
  | n + 1, literal m _, _ => by rw [visit, denote]
  | n + 1, .var x _, _ => by rw [visit, denote]
  | n + 1, unary op e _, h => by
    rw [visitDepth] at h
    rw [visit, denote, visit_eq_denote (Nat.le_of_succ_le_succ h)]
  | n + 1, binary op l r p, h => by
    rw [visitDepth, Bool.false_and, if_neg Bool.false_ne_true, Nat.succ_le_succ_iff,
      Nat.max_le] at h
    obtain ⟨hl, hr⟩ := h
    rw [visit]
    by_cases hop : leansLeft op = true
    · rw [hop] at hl
      obtain ⟨hb, hk⟩ := visitDepth_spine hl
      have hc : ∀ a, carry (visit s tooDeep n) ((spine l).2 ++ [⟨op, r, p⟩]) a =
          carry (denote s) ((spine l).2 ++ [⟨op, r, p⟩]) a := fun a =>
        carry_congr fun k hm => visit_eq_denote
          (List.forall_mem_append.2 ⟨hk, List.forall_mem_singleton.2 hr⟩ k hm)
      have hd := @denote_spine s (binary op l r p)
      rw [spine] at hd
      simp only [hop, if_true] at hd ⊢
      rw [hd, visit_eq_denote hb]
      exact congrArg _ (funext hc)
    · simp only [hop, if_false, Bool.false_eq_true] at hl ⊢
      rw [denote, visit_eq_denote hl, visit_eq_denote hr]
  | n + 1, call f args _, h => by
    rw [visitDepth, Nat.succ_le_succ_iff, visitDepthAll_le] at h
    rw [visit, denote, denoteAll_eq_mapM, mapM_congr_of_mem fun e he => visit_eq_denote (h e he)]

end

/-! ## Phrases -/

/-- How deep the visits of a phrase nest at most, by the nesting levels that are left to it. -/
def Phrase.visits (left : Nat) : Phrase → Nat
  | .sum => 4 * left + 3
  | .product => 4 * left + 2
  | .power => 4 * left + 1
  | .negation | .primary => max 1 (4 * left)

/-- How deep the visits along the spine of a phrase nest at most. -/
def Phrase.spineVisits (left : Nat) : Phrase → Nat
  | .sum => 4 * left + 2
  | .product | .power | .negation | .primary => 4 * left + 1

theorem visitDepth_onSpine_le : ∀ e, visitDepth true e ≤ visitDepth false e
  | literal _ _ | .var _ _ | unary _ _ _ | call _ _ _ => by simp only [visitDepth, Nat.le_refl]
  | binary op l r _ => by
    simp only [visitDepth, Bool.true_and, Bool.false_and, if_neg Bool.false_ne_true]
    split <;> omega

theorem visitDepth_binary_le (b : Bool) {op : String} {l r : Expr} {p : Int} {n : Nat}
    (hl : visitDepth false l ≤ n) (hr : visitDepth false r ≤ n) :
    visitDepth b (binary op l r p) ≤ n + 1 := by
  have hs : visitDepth (leansLeft op) l ≤ visitDepth false l := by
    cases leansLeft op
    · exact Nat.le_refl _
    · exact visitDepth_onSpine_le l
  rw [visitDepth]
  split <;> omega

/-- The operations of a chain are visited at once. -/
theorem visitDepth_chain {k : Chain} {t : Token} {g : String} (hk : k.sign? t = some g) {l r : Expr}
    {p : Int} {n : Nat} (hl : visitDepth true l ≤ n) (hr : visitDepth false r ≤ n) :
    visitDepth false (binary g l r p) ≤ n + 1 ∧ visitDepth true (binary g l r p) ≤ n := by
  have hop : leansLeft g = true := by
    cases k with
    | sum =>
      obtain ⟨-, hg⟩ := additive?_eq_some_iff.1 hk
      exact decide_eq_true (List.mem_append_left ["*", "/", "%"] hg)
    | product =>
      obtain ⟨-, hg⟩ := multiplicative?_eq_some_iff.1 hk
      exact decide_eq_true (List.mem_append_right ["+", "-"] hg)
  simp only [visitDepth, hop, Bool.and_true, Bool.false_eq_true, if_false, if_true]
  omega

mutual

/-- **The visits of a phrase** nest four times for every level that is left to it, and a few
    more. -/
theorem Forms.visitDepth_le {m p d ts e} : Forms m p d ts e →
    visitDepth false e ≤ p.visits (m - d) ∧ visitDepth true e ≤ p.spineVisits (m - d)
  | .sum h | .product h | .power h | .negation h => by
    obtain ⟨hv, hs⟩ := h.visitDepth_le
    simp only [Phrase.visits, Phrase.spineVisits] at hv hs ⊢
    omega
  | .addition h ht h' => by
    obtain ⟨-, hl⟩ := h.visitDepth_le
    obtain ⟨hr, -⟩ := h'.visitDepth_le
    exact visitDepth_chain (k := .sum) ht hl hr
  | .multiplication h ht h' => by
    obtain ⟨-, hl⟩ := h.visitDepth_le
    obtain ⟨hr, -⟩ := h'.visitDepth_le
    exact visitDepth_chain (k := .product) ht hl hr
  | .exponentiation h _ hd h' => by
    obtain ⟨hl, -⟩ := h.visitDepth_le
    obtain ⟨hr, -⟩ := h'.visitDepth_le
    simp only [Phrase.visits, Phrase.spineVisits] at hl hr ⊢
    exact ⟨visitDepth_binary_le _ (by omega) (by omega),
      visitDepth_binary_le _ (by omega) (by omega)⟩
  | .opposite _ hd h => by
    obtain ⟨hv, -⟩ := h.visitDepth_le
    simp only [Phrase.visits, Phrase.spineVisits, visitDepth] at hv ⊢
    omega
  | .number _ | .name _ => by
    simp only [Phrase.visits, Phrase.spineVisits, visitDepth]
    omega
  | .parens _ hd h _ => by
    obtain ⟨hv, hs⟩ := h.visitDepth_le
    simp only [Phrase.visits, Phrase.spineVisits] at hv hs ⊢
    omega
  | .bareCall _ _ _ => by
    simp only [Phrase.visits, Phrase.spineVisits, visitDepth, visitDepthAll]
    omega
  | .call _ _ hd h _ => by
    have hv := h.visitDepth_le
    simp only [Phrase.visits, Phrase.spineVisits, visitDepth] at hv ⊢
    omega

theorem FormsAll.visitDepth_le {m d ts es} : FormsAll m d ts es →
    visitDepthAll es ≤ Phrase.visits (m - d) .sum
  | .one h => by
    rw [visitDepthAll, visitDepthAll, Nat.max_zero]
    exact h.visitDepth_le.1
  | .more h _ hs => by
    rw [visitDepthAll]
    exact Nat.max_le.2 ⟨h.visitDepth_le.1, hs.visitDepth_le⟩

end

/-! ## Whole token lists -/

/-- **Evaluation of what is parsed does not nest deeply**, however long it is: its visits nest at
    most four times for every nesting level of expressions and three times more, and a limit of so
    many visits makes no difference to any evaluation. -/
theorem visits_of_parse {ts : List Token} {e : Expr} (h : parse ts = .ok e) :
    visitDepth false e ≤ 4 * maxDepth + 3 ∧
      ∀ s tooDeep, visit s tooDeep (4 * maxDepth + 3) e = e.evaluate s := by
  have hv : visitDepth false e ≤ 4 * maxDepth + 3 := (parse_eq_ok_iff_forms.1 h).visitDepth_le.1
  refine ⟨hv, fun s tooDeep => ?_⟩
  rw [evaluate_eq_denote, visit_eq_denote hv]

/-- A sum of one and of a product of one and a power. -/
def sumOver (w : List Token × Expr) : List Token × Expr :=
  let one : Token := ⟨"1", 0, .number (.int 1)⟩
  ([one] ++ ⟨"+", 0, .operator "+"⟩ :: ([one] ++ ⟨"*", 0, .operator "*"⟩ :: w.1),
    .binary "+" (.literal (.int 1) 0) (.binary "*" (.literal (.int 1) 0) w.2 0) 0)

/-- Sums nested in each other so many times, `1+1*f(...)^1`. -/
def nestedSums : Nat → List Token × Expr
  | 0 => sumOver ([⟨"1", 0, .number (.int 1)⟩], .literal (.int 1) 0)
  | k + 1 => sumOver
    ((⟨"f", 0, .name "f"⟩ :: ⟨"(", 0, .opening⟩ :: ((nestedSums k).1 ++ [⟨")", 0, .closing⟩])) ++
        ⟨"^", 0, .operator "^"⟩ :: [⟨"1", 0, .number (.int 1)⟩],
      .binary "^" (.call "f" [(nestedSums k).2] 0) (.literal (.int 1) 0) 0)

theorem forms_sumOver {m d : Nat} {w : List Token × Expr} (h : Forms m .power d w.1 w.2) :
    Forms m .sum d (sumOver w).1 (sumOver w).2 :=
  .addition (.sum (.product (.power (.negation (.number rfl))))) rfl
    (.multiplication (.product (.power (.negation (.number rfl)))) rfl h)

theorem forms_nestedSums {m d : Nat} : ∀ {k : Nat}, d + k ≤ m →
    Forms m .sum d (nestedSums k).1 (nestedSums k).2
  | 0, _ => forms_sumOver (.power (.negation (.number rfl)))
  | k + 1, h => by
    have hin : Forms m .sum (d + 1) (nestedSums k).1 (nestedSums k).2 :=
      forms_nestedSums (by omega)
    exact forms_sumOver (.exponentiation (.negation (.call rfl rfl (by omega) (.one hin) rfl)) rfl
      (by omega) (.power (.negation (.number rfl))))

theorem visitDepth_nestedSums : ∀ k, visitDepth false (nestedSums k).2 = 4 * k + 3
  | 0 => by decide
  | k + 1 => by
    have hp : leansLeft "+" = true ∧ leansLeft "*" = true ∧ leansLeft "^" = false := by decide
    simp only [nestedSums, sumOver, visitDepth, visitDepthAll, visitDepth_nestedSums k, hp,
      Bool.and_true, Bool.and_false, Bool.false_eq_true, if_false]
    omega

/-- As many nested sums as there are levels: their visits nest as deep as can be. -/
theorem visits_of_parse_nestedSums :
    let ts := (nestedSums maxDepth).1
    let e := (nestedSums maxDepth).2
    parse ts = .ok e ∧ visitDepth false e = 4 * maxDepth + 3 ∧ visitDepth false e ≤ 403 ∧
      ∀ s tooDeep, visit s tooDeep 403 e = e.evaluate s := by
  intro ts e
  have h : parse ts = .ok e :=
    parse_eq_ok_iff_forms.2 (forms_nestedSums (Nat.le_of_eq (Nat.zero_add _)))
  exact ⟨h, visitDepth_nestedSums maxDepth, visits_of_parse h⟩

end Reckon.Expr
