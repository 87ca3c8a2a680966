/-
  Trees by their loosest sign.

  A sign between two operands and outside all parentheses cuts an expression in two.
  The tree of the expression has the loosest such sign at its root, the last one of
  those that lean to the left and the first one of those that lean to the right, and
  the trees of what stands before and after it below.

  * `Cut`, `LastCut`, `FirstCut`: where a token list can be cut at a sign;
  * `Derives.nested`: within a phrase nothing outside of it is closed;
  * `Derives.exists_sign`: the signs at which a phrase can be cut, by its kind;
  * `parse_splits`: the root of a tree and what stands below it.
-/
import Reckon.Proofs.Prefix

namespace Reckon.Expr

/-! ## Signs between operands -/

/-- At one of some signs, between two operands and outside all parentheses, tokens are cut. -/
structure Cut (gs : List String) (ts before : List Token) (t : Token) (after : List Token) :
    Prop where
  eq : ts = before ++ t :: after
  sign : ∃ g ∈ gs, t.lexeme = .operator g
  operand : EndsOperand before
  outside : openings before = []

/-- Tokens can be cut at one of some signs. -/
def HasCut (gs : List String) (ts : List Token) : Prop :=
  ∃ before t after, Cut gs ts before t after

/-- The rightmost of the cuts at some signs. -/
def LastCut (gs : List String) (ts before : List Token) (t : Token) (after : List Token) : Prop :=
  Cut gs ts before t after ∧
    ∀ before' t' after', Cut gs ts before' t' after' → before'.length ≤ before.length

/-- The leftmost of the cuts at some signs. -/
def FirstCut (gs : List String) (ts before : List Token) (t : Token) (after : List Token) : Prop :=
  Cut gs ts before t after ∧
    ∀ before' t' after', Cut gs ts before' t' after' → before.length ≤ before'.length

/-- A tree is the operation of a sign on the trees of what stands before and after it. -/
def SplitsAs (e : Expr) (before : List Token) (t : Token) (after : List Token) : Prop :=
  ∃ g l r, t.lexeme = .operator g ∧ parse before = .ok l ∧ parse after = .ok r ∧
    e = .binary g l r t.spot

/-- The signs at which a phrase of a kind can be cut. -/
def Phrase.signs : Phrase → List String
  | .sum => ["+", "-", "*", "/", "%", "^"]
  | .product => ["*", "/", "%", "^"]
  | .power => ["^"]
  | .negation | .primary => []

/-- The signs between the operands of a chain. -/
def Chain.signs : Chain → List String
  | .sum => ["+", "-"]
  | .product => ["*", "/", "%"]

section
variable {p : Phrase} {k : Chain} {d : Nat} {gs : List String} {ts us vs before after : List Token}
  {t o c : Token} {g : String} {e l r : Expr}

/-! ## Nesting -/

/-- Tokens that never close what was opened before them. -/
def Nested (ts : List Token) : Prop :=
  ∀ us vs, ts = us ++ vs → ∀ stack, stack <:+ us.foldl opens stack

theorem nested_nil : Nested [] := by
  intro us vs h stack
  rw [(List.append_eq_nil_iff.1 h.symm).1]
  exact List.suffix_rfl

theorem nested_singleton (ht : t.lexeme ≠ .closing) : Nested [t] := by
  intro us vs h stack
  rcases List.singleton_eq_append_iff.1 h with ⟨rfl, -⟩ | ⟨rfl, -⟩
  · exact List.suffix_rfl
  · rw [List.foldl_cons, List.foldl_nil]
    unfold opens
    split
    · exact List.suffix_cons _ _
    · exact absurd ‹_› ht
    all_goals exact List.suffix_rfl

theorem Nested.append (hs : Nested ts) (hu : Nested us) : Nested (ts ++ us) := by
  intro vs ws h stack
  rcases List.append_eq_append_iff.1 h with ⟨xs, rfl, hx⟩ | ⟨xs, hx, -⟩
  · rw [List.foldl_append]
    have hs := hs ts [] (List.append_nil ts).symm stack
    exact hs.trans (hu xs ws hx _)
  · exact hs vs xs hx stack

theorem Nested.cons (ht : t.lexeme ≠ .closing) (hs : Nested ts) : Nested (t :: ts) :=
  (nested_singleton ht).append hs

/-- A parenthesis closes what the one before the nested tokens opens. -/
theorem Nested.parens (ho : o.lexeme = .opening) (hc : c.lexeme = .closing) (hs : Nested ts)
    (hf : ∀ stack, ts.foldl opens stack = stack) : Nested (o :: (ts ++ [c])) := by
  intro us vs h stack
  rw [← List.cons_append] at h
  -- the beginning ends before `c`, or it is the whole and `c` has closed what `o` opens
  rcases List.append_eq_append_iff.1 h with ⟨xs, rfl, hx⟩ | ⟨xs, hx, -⟩
  · rcases List.singleton_eq_append_iff.1 hx with ⟨rfl, -⟩ | ⟨rfl, -⟩
    · rw [List.append_nil, List.foldl_cons, hf]
      simp [opens, ho]
    · rw [List.foldl_append, List.foldl_cons, List.foldl_cons, List.foldl_nil, hf]
      simp [opens, ho, hc]
  · exact (hs.cons (by simp [ho])) us xs hx stack

/-- Matched parentheses close nothing outside of them. -/
theorem Matched.nested (h : Matched ts) : Nested ts := by
  induction h with
  | nil => exact nested_nil
  | plain _ hc _ ih => exact ih.cons hc
  | parens ho hc h _ ih ih' => simpa using (ih.parens ho hc h.foldl_opens).append ih'

/-- Within a phrase nothing outside of it is closed. -/
theorem Derives.nested {p d ts e} (h : Derives p d ts e) : Nested ts := h.matched.nested

theorem Arguments.nested {d ts es} (h : Arguments d ts es) : Nested ts := h.matched.nested

/-! ## The cuts of a phrase -/

theorem not_endsOperand_nil : ¬ EndsOperand [] := by
  rintro ⟨t, ⟨⟩, -⟩

/-- Where an operand ends after an operator, it also begins after it. -/
theorem EndsOperand.of_append_cons (ho : o.lexeme = .operator g) (h : EndsOperand (us ++ o :: vs)) :
    EndsOperand vs := by
  cases vs with
  | nil =>
    obtain ⟨t, ht, hk⟩ := h
    rw [List.getLast?_concat, Option.mem_some_iff] at ht
    simp [← ht, ho] at hk
  | cons v vs =>
    obtain ⟨t, ht, hk⟩ := h
    exact ⟨t, by simpa [List.getLast?_append] using ht, hk⟩

/-- A cut of tokens with an operator among them stands before it, at it or after it. -/
theorem Cut.of_append_cons (hu : ∀ stack, us.foldl opens stack = stack)
    (ho : o.lexeme = .operator g) (h : Cut gs (us ++ o :: vs) before t after) :
    (∃ mid, Cut gs us before t mid ∧ after = mid ++ o :: vs) ∨
      (before = us ∧ t = o ∧ after = vs) ∨
      ∃ mid, Cut gs vs mid t after ∧ before = us ++ o :: mid := by
  rcases List.append_eq_append_iff.1 h.eq with ⟨xs, rfl, hx⟩ | ⟨xs, rfl, hx⟩
  · rcases List.cons_eq_append_iff.1 hx with ⟨rfl, hx⟩ | ⟨mid, rfl, rfl⟩
    · cases hx
      exact .inr (.inl ⟨List.append_nil us, rfl, rfl⟩)
    · refine .inr (.inr ⟨mid, ⟨rfl, h.sign, h.operand.of_append_cons ho, ?_⟩, rfl⟩)
      have hm := h.outside
      rw [openings, List.foldl_append, hu, List.foldl_cons] at hm
      simpa [openings, opens, ho] using hm
  · rcases List.cons_eq_append_iff.1 hx with ⟨rfl, hx⟩ | ⟨mid, rfl, rfl⟩
    · cases hx
      exact .inr (.inl ⟨(List.append_nil before).symm, rfl, rfl⟩)
    · exact .inl ⟨mid, ⟨rfl, h.sign, h.operand, h.outside⟩, rfl⟩

/-- An operator between two phrases cuts them apart. -/
theorem cut_append_cons (h : Derives p d us e) (ho : o.lexeme = .operator g) (hg : g ∈ gs) :
    Cut gs (us ++ o :: vs) us o vs :=
  ⟨rfl, ⟨g, hg, ho⟩, h.endsOperand, h.foldl_opens []⟩

theorem not_hasCut_nil : ¬ HasCut gs [] := by
  rintro ⟨before, t, after, h⟩
  exact List.append_ne_nil_of_right_ne_nil before (List.cons_ne_nil t after) h.eq.symm

theorem HasCut.of_append_cons (hu : ∀ stack, us.foldl opens stack = stack)
    (ho : o.lexeme = .operator g) (h : HasCut gs (us ++ o :: vs)) :
    HasCut gs us ∨ EndsOperand us ∧ g ∈ gs ∨ HasCut gs vs := by
  obtain ⟨before, t, after, h⟩ := h
  rcases h.of_append_cons hu ho with ⟨mid, hl, -⟩ | ⟨rfl, rfl, -⟩ | ⟨mid, hr, -⟩
  · exact .inl ⟨_, _, _, hl⟩
  · obtain ⟨g', hg, ht⟩ := h.sign
    rw [ho] at ht
    cases ht
    exact .inr (.inl ⟨h.operand, hg⟩)
  · exact .inr (.inr ⟨_, _, _, hr⟩)

/-- A sign that nothing stands before is not between operands. -/
theorem HasCut.of_cons (ho : o.lexeme = .operator g) (h : HasCut gs (o :: vs)) : HasCut gs vs := by
  have h : HasCut gs ([] ++ o :: vs) := h
  rcases h.of_append_cons (fun _ => rfl) ho with h | ⟨h, -⟩ | h
  · exact absurd h not_hasCut_nil
  · exact absurd h not_endsOperand_nil
  · exact h

/-- Tokens among which every operator stands in parentheses. -/
def Enclosed (ts : List Token) : Prop :=
  ∀ before t after g, ts = before ++ t :: after → t.lexeme = .operator g → openings before ≠ []

theorem Enclosed.not_hasCut (h : Enclosed ts) : ¬ HasCut gs ts := by
  rintro ⟨before, t, after, hc⟩
  obtain ⟨g, -, ht⟩ := hc.sign
  exact h before t after g hc.eq ht hc.outside

theorem enclosed_nil : Enclosed [] := by
  intro before t after g h
  simp at h

theorem Enclosed.cons (h : Enclosed ts) (ht : ∀ g, t.lexeme ≠ .operator g)
    (hn : ∀ stack, opens stack t = stack) : Enclosed (t :: ts) := by
  intro before t' after g heq hg
  rcases List.cons_eq_append_iff.1 heq with ⟨-, heq⟩ | ⟨us, rfl, rfl⟩
  · cases heq
    exact absurd hg (ht g)
  · rw [openings, List.foldl_cons, hn]
    exact h us t' after g rfl hg

/-- What follows a parenthesis is enclosed as far as nothing closes it. -/
theorem Nested.enclosed (hs : Nested ts) (ho : o.lexeme = .opening) :
    Enclosed (o :: (ts ++ [c])) := by
  intro before t after g heq hg
  rcases List.cons_eq_append_iff.1 heq with ⟨-, heq⟩ | ⟨us, rfl, heq⟩
  · cases heq
    simp [ho] at hg
  · -- before `t` there is `o` and a beginning of `ts`, which leaves `o` open
    have heq : ts ++ [c] = us ++ t :: after := by simpa using heq
    have hpre : ∃ vs, ts = us ++ vs := by
      rcases List.append_eq_append_iff.1 heq with ⟨xs, rfl, hx⟩ | ⟨xs, hx, -⟩
      · rcases List.singleton_eq_append_iff.1 hx with ⟨rfl, -⟩ | ⟨-, hx⟩
        · exact ⟨[], by simp⟩
        · cases hx
      · exact ⟨xs, hx⟩
    obtain ⟨vs, hvs⟩ := hpre
    have hsuf := hs us vs hvs (opens [] o)
    intro hnil
    rw [openings, List.foldl_cons] at hnil
    rw [hnil, List.suffix_nil] at hsuf
    simp [opens, ho] at hsuf

theorem Derives.enclosed (h : Derives .primary d ts e) : Enclosed ts := by
  cases h with
  | number ht | name ht => exact enclosed_nil.cons (by simp [ht]) (by simp [opens, ht])
  | parens ho _ h hc => exact h.nested.enclosed ho
  | bareCall hf ho hc =>
    exact (nested_nil.enclosed ho).cons (by simp [hf]) (by simp [opens, hf])
  | call hf ho _ h hc =>
    exact (h.nested.enclosed ho).cons (by simp [hf]) (by simp [opens, hf])

theorem exists_sign_mono {gs' : List String} (hs : gs' ⊆ p.signs) (h : ∃ g ∈ gs, g ∈ gs') :
    ∃ g ∈ gs, g ∈ p.signs := by
  obtain ⟨g, hg, h⟩ := h
  exact ⟨g, hg, hs h⟩

/-- **A phrase is cut at signs of its kind only.** -/
theorem Derives.exists_sign {p d ts e} : Derives p d ts e → HasCut gs ts → ∃ g ∈ gs, g ∈ p.signs
  | .sum h, hc | .product h, hc | .power h, hc =>
    exists_sign_mono (by simp [Phrase.signs]) (h.exists_sign hc)
  | .addition h ht hg h', hc | .multiplication h ht hg h', hc => by
    rcases hc.of_append_cons h.foldl_opens ht with hc | ⟨-, hg'⟩ | hc
    · exact h.exists_sign hc
    · exact exists_sign_mono (by simp [Phrase.signs]) ⟨_, hg', hg⟩
    · exact exists_sign_mono (by simp [Phrase.signs]) (h'.exists_sign hc)
  | .exponentiation h ht _ h', hc => by
    rcases hc.of_append_cons h.foldl_opens ht with hc | ⟨-, hg'⟩ | hc
    · exact exists_sign_mono (by simp [Phrase.signs]) (h.exists_sign hc)
    · exact ⟨_, hg', List.mem_singleton_self _⟩
    · exact h'.exists_sign hc
  | .negation h, hc => absurd hc h.enclosed.not_hasCut
  | .opposite ht _ h, hc => h.exists_sign (hc.of_cons ht)
  | h@(.number _), hc | h@(.name _), hc | h@(.parens _ _ _ _), hc | h@(.bareCall _ _ _), hc
  | h@(.call _ _ _ _ _), hc => absurd hc h.enclosed.not_hasCut

/-! ## Splitting -/

/-- The operands of a chain are not cut at its signs. -/
theorem Derives.not_hasCut_operand (h : Derives k.operand d ts e) : ¬ HasCut k.signs ts := by
  intro hc
  obtain ⟨g, hg, ho⟩ := h.exists_sign hc
  have hdisjoint : ∀ g ∈ k.signs, g ∉ k.operand.signs := by cases k <;> decide
  exact hdisjoint g hg ho

/-- A chain is one operand, or a chain, a sign and an operand. -/
theorem Derives.operand_or_further (h : Derives k.phrase d ts e) : Derives k.operand d ts e ∨
    ∃ us t vs g l r, ts = us ++ t :: vs ∧ t.lexeme = .operator g ∧ g ∈ k.signs ∧
      Derives k.phrase d us l ∧ Derives k.operand d vs r ∧ e = .binary g l r t.spot := by
  cases k with
  | sum =>
    cases h with
    | sum h => exact .inl h
    | addition h ht hg h' => exact .inr ⟨_, _, _, _, _, _, rfl, ht, hg, h, h', rfl⟩
  | product =>
    cases h with
    | product h => exact .inl h
    | multiplication h ht hg h' => exact .inr ⟨_, _, _, _, _, _, rfl, ht, hg, h, h', rfl⟩

/-- A phrase of any kind and at any level is an expression of its own. -/
theorem Derives.parse_alone (h : Derives p d ts e) : parse ts = .ok e := by
  have hs : Derives .sum d ts e := by
    cases p with
    | sum => exact h
    | product => exact .sum h
    | power => exact .sum (.product h)
    | negation => exact .sum (.product (.power h))
    | primary => exact .ofPrimary h
  exact parse_eq_ok_iff_forms.2 (hs.forms.shift (by omega))

theorem splitsAs_of_derives {q : Phrase} {d' : Nat} (ht : t.lexeme = .operator g)
    (hl : Derives p d before l) (hr : Derives q d' after r) :
    SplitsAs (.binary g l r t.spot) before t after :=
  ⟨g, l, r, ht, hl.parse_alone, hr.parse_alone, rfl⟩

/-- A chain that is cut at one of its signs splits at the last of them. -/
theorem Derives.splitsAs_last (h : Derives k.phrase d ts e) (hc : HasCut k.signs ts) :
    ∃ before t after, LastCut k.signs ts before t after ∧ SplitsAs e before t after := by
  rcases h.operand_or_further with h | ⟨us, t, vs, g, l, r, rfl, ht, hg, hl, hr, rfl⟩
  · exact absurd hc h.not_hasCut_operand
  refine ⟨us, t, vs, ⟨cut_append_cons hl ht hg, fun before t' after hc => ?_⟩,
    splitsAs_of_derives ht hl hr⟩
  rcases hc.of_append_cons hl.foldl_opens ht with ⟨mid, hc, -⟩ | ⟨rfl, -⟩ | ⟨mid, hc, -⟩
  · rw [hc.eq, List.length_append]
    omega
  · exact Nat.le_refl _
  · exact absurd ⟨_, _, _, hc⟩ hr.not_hasCut_operand

/-- A chain that is not cut at its signs is one operand. -/
theorem Derives.operand_of_not_hasCut (h : Derives k.phrase d ts e) (hc : ¬ HasCut k.signs ts) :
    Derives k.operand d ts e := by
  rcases h.operand_or_further with h | ⟨us, t, vs, g, l, r, rfl, ht, hg, hl, -, -⟩
  · exact h
  · exact absurd ⟨_, _, _, cut_append_cons hl ht hg⟩ hc

theorem Derives.not_hasCut_negation (h : Derives .negation d ts e) : ¬ HasCut gs ts := by
  intro hc
  obtain ⟨g, -, hg⟩ := h.exists_sign hc
  exact List.not_mem_nil hg

/-- A power that is cut splits at the first sign. -/
theorem Derives.splitsAs_first (h : Derives .power d ts e) (hc : HasCut ["^"] ts) :
    ∃ before t after, FirstCut ["^"] ts before t after ∧ SplitsAs e before t after := by
  cases h with
  | power h => exact absurd hc h.not_hasCut_negation
  | @exponentiation _ us vs t _ _ hl ht _ hr =>
    have hcut : Cut ["^"] (us ++ t :: vs) us t vs := cut_append_cons hl ht (by simp)
    refine ⟨us, t, vs, ⟨hcut, fun before t' after hc => ?_⟩, splitsAs_of_derives ht hl hr⟩
    rcases hc.of_append_cons hl.foldl_opens ht with ⟨mid, hc, -⟩ | ⟨rfl, -⟩ | ⟨mid, -, rfl⟩
    · exact absurd ⟨_, _, _, hc⟩ hl.not_hasCut_negation
    · exact Nat.le_refl _
    · rw [List.length_append]
      omega

theorem Derives.negation_of_not_hasCut (h : Derives .power d ts e) (hc : ¬ HasCut ["^"] ts) :
    Derives .negation d ts e := by
  cases h with
  | power h => exact h
  | exponentiation hl ht _ _ => exact absurd ⟨_, _, _, cut_append_cons hl ht (by simp)⟩ hc

/-- A negation that begins with an operator is the opposite of what follows. -/
theorem Derives.opposite_of_operator (h : Derives .negation d (t :: ts) e)
    (ht : t.lexeme = .operator g) : ∃ x, parse ts = .ok x ∧ e = .unary "-" x t.spot := by
  cases h with
  | opposite _ _ h => exact ⟨_, h.parse_alone, rfl⟩
  | negation h => exact absurd rfl (h.enclosed [] t ts g rfl ht)

theorem HasCut.mono {gs' : List String} (hs : gs ⊆ gs') (h : HasCut gs ts) : HasCut gs' ts := by
  obtain ⟨before, t, after, heq, ⟨g, hg, ht⟩, ho, hout⟩ := h
  exact ⟨before, t, after, heq, ⟨g, hs hg, ht⟩, ho, hout⟩

/-- **The loosest sign is the root.**  An accepted expression that is cut at a sign of sums splits
    at the last of these; otherwise, if it is cut at one of products, at the last of these;
    otherwise, if it is cut at one of powers, at the first of these.  One that is not cut and begins
    with a minus is the opposite of the expression that follows. -/
theorem parse_splits (hs : ∀ t ∈ ts, t.IsSigned) (h : parse ts = .ok e) :
    (HasCut ["+", "-"] ts →
      ∃ before t after, LastCut ["+", "-"] ts before t after ∧ SplitsAs e before t after) ∧
    (¬ HasCut ["+", "-"] ts → HasCut ["*", "/", "%"] ts →
      ∃ before t after, LastCut ["*", "/", "%"] ts before t after ∧ SplitsAs e before t after) ∧
    (¬ HasCut ["+", "-"] ts → ¬ HasCut ["*", "/", "%"] ts → HasCut ["^"] ts →
      ∃ before t after, FirstCut ["^"] ts before t after ∧ SplitsAs e before t after) ∧
    (¬ HasCut (Operator.all.map Operator.glyph) ts → ∀ t rest, ts = t :: rest →
      t.lexeme = .operator "-" → ∃ x, parse rest = .ok x ∧ e = .unary "-" x t.spot) := by
  have hsum : Derives Chain.sum.phrase 0 ts e := derives_of_parse hs h
  have hproduct (hc : ¬ HasCut ["+", "-"] ts) : Derives Chain.product.phrase 0 ts e :=
    hsum.operand_of_not_hasCut hc
  have hpower (hc : ¬ HasCut ["+", "-"] ts) (hc' : ¬ HasCut ["*", "/", "%"] ts) :
      Derives .power 0 ts e := (hproduct hc).operand_of_not_hasCut hc'
  refine ⟨hsum.splitsAs_last, fun hc => (hproduct hc).splitsAs_last, fun hc hc' =>
    (hpower hc hc').splitsAs_first, fun hc t rest heq ht => ?_⟩
  have hnone (gs : List String) (hgs : gs ⊆ Operator.all.map Operator.glyph) : ¬ HasCut gs ts :=
    fun h => hc (h.mono hgs)
  have hp : Derives .power 0 ts e := hpower (hnone _ (by decide)) (hnone _ (by decide))
  have hneg : Derives .negation 0 ts e := hp.negation_of_not_hasCut (hnone _ (by decide))
  subst heq
  exact hneg.opposite_of_operator ht

/-- A product whose first factor is a power, with a minus in the exponent. -/
theorem parse_splits_product :
    let two : Token := ⟨"2", 0, .number (.int 2)⟩
    let caret : Token := ⟨"^", 2, .operator "^"⟩
    let minus : Token := ⟨"-", 4, .operator "-"⟩
    let one : Token := ⟨"1", 5, .number (.int 1)⟩
    let times : Token := ⟨"*", 7, .operator "*"⟩
    let three : Token := ⟨"3", 9, .number (.int 3)⟩
    let ts := [two, caret, minus, one, times, three]
    let e : Expr := .binary "*" (.binary "^" (.literal (.int 2) 0)
      (.unary "-" (.literal (.int 1) 5) 4) 2) (.literal (.int 3) 9) 7
    (∀ t ∈ ts, t.IsSigned) ∧ parse ts = .ok e ∧ ¬ HasCut ["+", "-"] ts ∧
      HasCut ["*", "/", "%"] ts ∧
      ∃ before t after, LastCut ["*", "/", "%"] ts before t after ∧ SplitsAs e before t after := by
  intro two caret minus one times three ts e
  have hl : Derives .product 0 [two, caret, minus, one] _ :=
    .product (.exponentiation (.negation (.number rfl)) rfl (by decide)
      (.power (.opposite rfl (by decide) (.negation (.number rfl)))))
  have hr : Derives .power 0 [three] _ := .power (.negation (.number rfl))
  have hp : Derives Chain.sum.operand 0 ts e := .multiplication hl rfl (by simp) hr
  have hs : ∀ t ∈ ts, t.IsSigned := hp.isSigned
  have he : parse ts = .ok e := hp.parse_alone
  have hsum : ¬ HasCut ["+", "-"] ts := hp.not_hasCut_operand
  have hproduct : HasCut ["*", "/", "%"] ts := ⟨_, _, _, cut_append_cons hl rfl (by simp)⟩
  exact ⟨hs, he, hsum, hproduct, (parse_splits hs he).2.1 hsum hproduct⟩

end

end Reckon.Expr
