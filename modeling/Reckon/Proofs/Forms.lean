/-
  What the readers of expressions read, whatever signs the operators carry.

  A reader asks an operator only whether it can be the sign of a sum, a product, a
  power or a negation.  The grammar of expressions without more said of the signs is
  the relation `Forms`; it also leaves open how deep expressions may nest.

  * `Forms m p d ts e`: at nesting level `d` and no deeper than `m`, the tokens `ts`
    form a phrase of the kind `p` and mean the tree `e`;
  * `Forms.shift`: a phrase at one level forms one at every other, if as many are left;
  * `Forms.inOrder_eq`: the nodes of the tree, in the order of the text, are the numbers,
    names and operators among the tokens, each with its own spot;
  * `Forms.reads`: a reader gets through every phrase of its kind;
  * `takes_of_read_sum` and the like: and through nothing else;
  * `parse_eq_ok_iff_forms`: a whole token list is read as a tree iff it forms a sum
    that means it.
-/
import Mathlib.Logic.Basic
import Reckon.Proofs.Reading

namespace Reckon.Expr

/-! ## Phrases -/

mutual

/-- At a nesting level, and nowhere below the deepest one, tokens that form a phrase of a kind, and
    the tree they mean. -/
inductive Forms (m : Nat) : Phrase → Nat → List Token → Expr → Prop
  | sum {d ts e} : Forms m .product d ts e → Forms m .sum d ts e
  | addition {d ts us t g l r} : Forms m .sum d ts l → t.additive? = some g →
      Forms m .product d us r → Forms m .sum d (ts ++ t :: us) (.binary g l r t.spot)
  | product {d ts e} : Forms m .power d ts e → Forms m .product d ts e
  | multiplication {d ts us t g l r} : Forms m .product d ts l → t.multiplicative? = some g →
      Forms m .power d us r → Forms m .product d (ts ++ t :: us) (.binary g l r t.spot)
  | power {d ts e} : Forms m .negation d ts e → Forms m .power d ts e
  | exponentiation {d ts us t g l r} : Forms m .negation d ts l → t.power? = some g → d < m →
      Forms m .power (d + 1) us r → Forms m .power d (ts ++ t :: us) (.binary g l r t.spot)
  | negation {d ts e} : Forms m .primary d ts e → Forms m .negation d ts e
  | opposite {d ts t g e} : t.negation? = some g → d < m → Forms m .negation (d + 1) ts e →
      Forms m .negation d (t :: ts) (.unary g e t.spot)
  | number {d t n} : t.lexeme = .number n → Forms m .primary d [t] (.literal n t.spot)
  | name {d t x} : t.lexeme = .name x → Forms m .primary d [t] (.var x t.spot)
  | parens {d ts o c e} : o.lexeme = .opening → d < m → Forms m .sum (d + 1) ts e →
      c.lexeme = .closing → Forms m .primary d (o :: (ts ++ [c])) e
  | bareCall {d f o c x} : f.lexeme = .name x → o.lexeme = .opening → c.lexeme = .closing →
      Forms m .primary d [f, o, c] (.call x [] f.spot)
  | call {d ts f o c x es} : f.lexeme = .name x → o.lexeme = .opening → d < m →
      FormsAll m (d + 1) ts es → c.lexeme = .closing →
      Forms m .primary d (f :: o :: (ts ++ [c])) (.call x es f.spot)

/-- At a nesting level, tokens that form arguments with commas between, at least one. -/
inductive FormsAll (m : Nat) : Nat → List Token → List Expr → Prop
  | one {d ts e} : Forms m .sum d ts e → FormsAll m d ts [e]
  | more {d ts us c e es} : Forms m .sum d ts e → c.lexeme = .comma → FormsAll m d us es →
      FormsAll m d (ts ++ c :: us) (e :: es)

end

/-- Tokens of which the last is a name, so that a parenthesis after them opens a call. -/
def EndsInName (ts : List Token) : Prop := ∃ t ∈ ts.getLast?, ∃ x, t.lexeme = .name x

theorem endsInName_append {ts us : List Token} (h : us ≠ []) :
    EndsInName (ts ++ us) ↔ EndsInName us := by
  obtain ⟨t, ht⟩ : ∃ t, us.getLast? = some t := ⟨us.getLast h, List.getLast?_eq_some_getLast h⟩
  simp [EndsInName, ht]

/-- Tokens that go on with a phrase of a kind. -/
def Phrase.Continues : Phrase → Token → Prop
  | .sum, t => t.additive? ≠ none ∨ t.multiplicative? ≠ none ∨ t.power? ≠ none
  | .product, t => t.multiplicative? ≠ none ∨ t.power? ≠ none
  | .power, t => t.power? ≠ none
  | .negation, _ | .primary, _ => False

/-- The token after a phrase, if there is one, does not go on with it. -/
def Phrase.Ends (p : Phrase) (ts rest : List Token) : Prop :=
  ∀ t ∈ rest.head?, ¬ p.Continues t ∧ (t.lexeme = .opening → ¬ EndsInName ts)

/-- Tokens that begin with a phrase, as long as can be, and go on with a rest. -/
def Takes (p : Phrase) (d : Nat) (ts : List Token) (e : Expr) (rest : List Token) : Prop :=
  ∃ us, ts = us ++ rest ∧ Forms maxDepth p d us e ∧ p.Ends us rest

section
variable {p : Phrase} {stop : Int} {m d n : Nat} {ts us rest : List Token} {t : Token} {g : String}
  {e l r : Expr} {es : List Expr} {k : Chain}

/-! ## Ends of phrases -/

@[simp]
theorem Phrase.ends_nil : p.Ends ts [] := by simp [Phrase.Ends]

@[simp]
theorem Phrase.ends_cons : p.Ends ts (t :: rest) ↔
    ¬ p.Continues t ∧ (t.lexeme = .opening → ¬ EndsInName ts) := by simp [Phrase.Ends]

theorem Phrase.Ends.mono {q : Phrase} (h : p.Ends ts rest)
    (hq : ∀ t, q.Continues t → p.Continues t) : q.Ends ts rest := by
  intro t ht
  obtain ⟨hn, ho⟩ := h t ht
  exact ⟨fun hc => hn (hq t hc), ho⟩

theorem Phrase.Ends.operand (h : k.phrase.Ends ts rest) : k.operand.Ends ts rest := by
  cases k with
  | sum => exact h.mono fun _ => Or.inr
  | product => exact h.mono fun _ => Or.inr

/-- Where a phrase ends depends on its last part only. -/
theorem Phrase.ends_append (h : us ≠ []) : p.Ends (ts ++ us) rest ↔ p.Ends us rest := by
  simp only [Phrase.Ends, endsInName_append h]

theorem Phrase.ends_cons_left (h : us ≠ []) : p.Ends (t :: us) rest ↔ p.Ends us rest := by
  rw [← List.singleton_append, Phrase.ends_append h]

theorem Phrase.ends_append_cons (h : us ≠ []) :
    p.Ends (ts ++ t :: us) rest ↔ p.Ends us rest := by
  rw [List.append_cons, Phrase.ends_append h]

/-- An operator after a phrase ends it, unless it goes on with it. -/
theorem Phrase.ends_operator (ht : t.lexeme = .operator g) (hp : ¬ p.Continues t) :
    p.Ends ts (t :: rest) := by simp [ht, hp]

/-! ## Signs -/

theorem additive?_eq_some_iff :
    t.additive? = some g ↔ t.lexeme = .operator g ∧ g ∈ ["+", "-"] := by
  unfold Token.additive?
  split <;> simp_all
  grind

theorem multiplicative?_eq_some_iff :
    t.multiplicative? = some g ↔ t.lexeme = .operator g ∧ g ∈ ["*", "/", "%"] := by
  unfold Token.multiplicative?
  split <;> simp_all
  grind

theorem power?_eq_some : t.power? = some g ↔ t.lexeme = .operator g ∧ g ∈ ["^", ""] := by
  unfold Token.power?
  split <;> simp_all
  grind

theorem negation?_eq_some : t.negation? = some g ↔ t.lexeme = .operator g ∧ g ∈ ["-", ""] := by
  unfold Token.negation?
  split <;> simp_all
  grind

/-- The sign between two operands is that of an operator that makes a chain of them. -/
theorem Chain.forms (hk : k.sign? t = some g) (hl : Forms m k.phrase d ts l)
    (hr : Forms m k.operand d us r) :
    Forms m k.phrase d (ts ++ t :: us) (.binary g l r t.spot) := by
  cases k with
  | sum => exact .addition hl hk hr
  | product => exact .multiplication hl hk hr

theorem Chain.lexeme_of_sign? (hk : k.sign? t = some g) : t.lexeme = .operator g := by
  cases k with
  | sum => exact (additive?_eq_some_iff.1 hk).1
  | product => exact (multiplicative?_eq_some_iff.1 hk).1

/-- The sign between two operands does not go on with the first one. -/
theorem Chain.not_continues_operand (hk : k.sign? t = some g) : ¬ k.operand.Continues t := by
  cases k with
  | sum =>
    obtain ⟨ht, hg⟩ := additive?_eq_some_iff.1 hk
    simp only [List.mem_cons, List.not_mem_nil, or_false] at hg
    rcases hg with rfl | rfl <;>
      simp [Chain.operand, Phrase.Continues, Token.multiplicative?, Token.power?, ht]
  | product =>
    obtain ⟨ht, hg⟩ := multiplicative?_eq_some_iff.1 hk
    simp only [List.mem_cons, List.not_mem_nil, or_false] at hg
    rcases hg with rfl | rfl | rfl <;> simp [Chain.operand, Phrase.Continues, Token.power?, ht]

theorem Chain.power?_eq_none (hk : k.sign? t = some g) : t.power? = none := by
  have hc := Chain.not_continues_operand hk
  cases k with
  | sum => exact not_not.1 (not_or.1 hc).2
  | product => exact not_not.1 hc

/-- The sign between two operands ends the first one. -/
theorem Chain.ends_operand (hk : k.sign? t = some g) : k.operand.Ends ts (t :: rest) :=
  Phrase.ends_operator (Chain.lexeme_of_sign? hk) (Chain.not_continues_operand hk)

theorem Chain.not_continues (h : ¬ k.phrase.Continues t) : k.sign? t = none := by
  cases k with
  | sum => exact not_not.1 (not_or.1 h).1
  | product => exact not_not.1 (not_or.1 h).1

theorem Chain.ends_phrase (hk : k.sign? t = none) (he : k.operand.Ends ts (t :: rest)) :
    k.phrase.Ends ts (t :: rest) := by
  obtain ⟨hc, ho⟩ := Phrase.ends_cons.1 he
  refine Phrase.ends_cons.2 ⟨?_, ho⟩
  cases k with
  | sum => exact not_or.2 ⟨not_not.2 hk, hc⟩
  | product => exact not_or.2 ⟨not_not.2 hk, hc⟩

theorem not_continues_of_plain (ht : ∀ g, t.lexeme ≠ .operator g) : ¬ p.Continues t := by
  cases p <;>
    simp only [Phrase.Continues, Token.additive?, Token.multiplicative?, Token.power?] <;> grind

/-- A phrase begins with a token, and not with a closing parenthesis. -/
theorem Forms.exists_cons {p d ts e} : Forms m p d ts e → ∃ t us, ts = t :: us ∧ t.lexeme ≠ .closing
  | .sum h | .product h | .power h | .negation h => h.exists_cons
  | .addition h _ _ | .multiplication h _ _ | .exponentiation h _ _ _ => by
    obtain ⟨t, us, rfl, ht⟩ := h.exists_cons
    exact ⟨t, _, List.cons_append, ht⟩
  | .opposite ht _ _ => ⟨_, _, rfl, by simp [(negation?_eq_some.1 ht).1]⟩
  | .number ht | .name ht | .parens ht _ _ _ | .bareCall ht _ _ | .call ht _ _ _ _ =>
    ⟨_, _, rfl, by simp [ht]⟩

theorem FormsAll.exists_cons : FormsAll m d ts es → ∃ t us, ts = t :: us ∧ t.lexeme ≠ .closing
  | .one h => h.exists_cons
  | .more h _ _ => by
    obtain ⟨t, us, rfl, ht⟩ := h.exists_cons
    exact ⟨t, _, List.cons_append, ht⟩

theorem Forms.ne_nil (h : Forms m p d ts e) : ts ≠ [] := by
  obtain ⟨t, us, rfl, -⟩ := h.exists_cons
  exact List.cons_ne_nil _ _

theorem FormsAll.ne_nil (h : FormsAll m d ts es) : ts ≠ [] := by
  obtain ⟨t, us, rfl, -⟩ := h.exists_cons
  exact List.cons_ne_nil _ _

mutual

/-- A phrase that nests no deeper than some level forms one at every other level, with as many
    levels left below it. -/
theorem Forms.shift {p d m' d' ts e} : Forms m p d ts e → m + d' ≤ m' + d → Forms m' p d' ts e
  | .sum h, hd => .sum (h.shift hd)
  | .addition h ht h', hd => .addition (h.shift hd) ht (h'.shift hd)
  | .product h, hd => .product (h.shift hd)
  | .multiplication h ht h', hd => .multiplication (h.shift hd) ht (h'.shift hd)
  | .power h, hd => .power (h.shift hd)
  | .exponentiation h ht hm h', hd =>
    .exponentiation (h.shift hd) ht (by omega) (h'.shift (by omega))
  | .negation h, hd => .negation (h.shift hd)
  | .opposite ht hm h, hd => .opposite ht (by omega) (h.shift (by omega))
  | .number ht, _ => .number ht
  | .name ht, _ => .name ht
  | .parens ho hm h hc, hd => .parens ho (by omega) (h.shift (by omega)) hc
  | .bareCall hf ho hc, _ => .bareCall hf ho hc
  | .call hf ho hm h hc, hd => .call hf ho (by omega) (h.shift (by omega)) hc

theorem FormsAll.shift {d m' d' ts es} : FormsAll m d ts es → m + d' ≤ m' + d →
    FormsAll m' d' ts es
  | .one h, hd => .one (h.shift hd)
  | .more h hc hs, hd => .more (h.shift hd) hc (hs.shift hd)

end

mutual

/-- **The nodes of a tree are the node tokens of its phrase**, in order. -/
theorem Forms.inOrder_eq {p d ts e} : Forms m p d ts e → inOrder e = nodeTokens ts
  | .sum h | .product h | .power h | .negation h => h.inOrder_eq
  | .addition h ht h' => by
    simp [inOrder, h.inOrder_eq, h'.inOrder_eq, (additive?_eq_some_iff.1 ht).1, Lexeme.isNode]
  | .multiplication h ht h' => by
    simp [inOrder, h.inOrder_eq, h'.inOrder_eq, (multiplicative?_eq_some_iff.1 ht).1, Lexeme.isNode]
  | .exponentiation h ht _ h' => by
    simp [inOrder, h.inOrder_eq, h'.inOrder_eq, (power?_eq_some.1 ht).1, Lexeme.isNode]
  | .opposite ht _ h => by
    simp [inOrder, h.inOrder_eq, (negation?_eq_some.1 ht).1, Lexeme.isNode]
  | .number ht => by simp [inOrder, ht, Lexeme.isNode]
  | .name ht => by simp [inOrder, ht, Lexeme.isNode]
  | .parens ho _ h hc => by simp [h.inOrder_eq, ho, hc, Lexeme.isNode]
  | .bareCall hf ho hc => by simp [inOrder, inOrderAll, hf, ho, hc, Lexeme.isNode]
  | .call hf ho _ h hc => by simp [inOrder, h.inOrder_eq, hf, ho, hc, Lexeme.isNode]

theorem FormsAll.inOrder_eq {d ts es} : FormsAll m d ts es → inOrderAll es = nodeTokens ts
  | .one h => by simp [inOrderAll, h.inOrder_eq]
  | .more h hc hs => by
    simp [inOrderAll, h.inOrder_eq, hs.inOrder_eq, hc, Lexeme.isNode]

end

/-- A primary is a phrase of every kind. -/
theorem Forms.ofPrimary (h : Forms m .primary d ts e) : Forms m p d ts e := by
  have hn : Forms m .negation d ts e := .negation h
  cases p with
  | sum => exact .sum (.product (.power hn))
  | product => exact .product (.power hn)
  | power => exact .power hn
  | negation => exact hn
  | primary => exact h

/-! ## A reader gets through every phrase of its kind -/

/-- The reader of a chain gets through tokens, and goes on with further operands. -/
def Chain.Reads (k : Chain) (d : Nat) (ts : List Token) (e : Expr) : Prop :=
  ∀ stop rest, k.operand.Ends ts rest →
    k.phrase.read stop d (ts ++ rest) = k.readFrom stop d e rest

/-- The reader of a kind of phrase gets through tokens, whatever follows. -/
def Phrase.Reads (p : Phrase) (d : Nat) (ts : List Token) (e : Expr) : Prop :=
  match p with
  | .sum => Chain.sum.Reads d ts e
  | .product => Chain.product.Reads d ts e
  | p => ∀ stop rest, p.Ends ts rest → p.read stop d (ts ++ rest) = .ok (e, rest)

theorem readFrom_of_ends (he : k.phrase.Ends ts rest) :
    k.readFrom stop d e rest = .ok (e, rest) := by
  cases rest with
  | nil => exact readFrom_nil k
  | cons t rest => rw [readFrom_cons, Chain.not_continues (Phrase.ends_cons.1 he).1]

theorem readExponent_of_ends (he : Phrase.Ends .power ts rest) :
    readExponent stop d e rest = .ok (e, rest) := by
  cases rest with
  | nil => rfl
  | cons t rest =>
    have hn := (Phrase.ends_cons.1 he).1
    simp only [Phrase.Continues, not_not] at hn
    rw [readExponent, hn]

/-- At the end of a phrase its reader stops. -/
theorem Phrase.Reads.read (hr : p.Reads d ts e) (stop : Int) (he : p.Ends ts rest) :
    p.read stop d (ts ++ rest) = .ok (e, rest) := by
  cases p with
  | sum => exact (hr stop rest (he.operand (k := .sum))).trans (readFrom_of_ends he)
  | product => exact (hr stop rest (he.operand (k := .product))).trans (readFrom_of_ends he)
  | power | negation | primary => exact hr stop rest he

/-- A chain of one operand. -/
theorem Chain.Reads.of_operand (h : k.operand.Reads d ts e) : k.Reads d ts e := by
  intro stop rest he
  rw [read_chain, h.read stop he]
  rfl

/-- After a chain and a sign the reader looks for an operand. -/
theorem Chain.Reads.read_sign (h : k.Reads d ts l) (hk : k.sign? t = some g) :
    k.phrase.read stop d (ts ++ t :: rest) = (k.operand.read stop d rest).bind fun r =>
      k.readFrom stop d (.binary g l r.1 t.spot) r.2 := by
  rw [h stop _ (Chain.ends_operand hk), readFrom_cons, hk]

/-- A chain with a further operand. -/
theorem Chain.Reads.snoc (h : k.Reads d ts l) (hk : k.sign? t = some g)
    (h' : k.operand.Reads d us r) (hne : us ≠ []) :
    k.Reads d (ts ++ t :: us) (.binary g l r t.spot) := by
  intro stop rest he
  rw [Phrase.ends_append_cons hne] at he
  rw [List.append_assoc, List.cons_append, h.read_sign hk, h'.read stop he]
  rfl

/-- A primary does not begin with an operator. -/
theorem Forms.exists_cons_primary (h : Forms m .primary d ts e) :
    ∃ t us, ts = t :: us ∧ t.negation? = none := by
  cases h with
  | number ht | name ht | parens ht | bareCall ht | call ht =>
    exact ⟨_, _, rfl, by simp [Token.negation?, ht]⟩

/-- The closing parenthesis of a call ends its last argument. -/
theorem ends_closing {c : Token} (hc : c.lexeme = .closing) : p.Ends ts (c :: rest) := by
  simp [hc, not_continues_of_plain]

theorem ends_comma {c : Token} (hc : c.lexeme = .comma) : p.Ends ts (c :: rest) := by
  simp [hc, not_continues_of_plain]

/-- The readers of arguments get through tokens, and go on with whatever follows. -/
def ArgumentsRead (d : Nat) (ts : List Token) (es : List Expr) : Prop :=
  ∀ stop rest, Phrase.Ends .sum ts rest → ∃ e es' us, es = e :: es' ∧
    Phrase.read stop d (ts ++ rest) .sum = .ok (e, us) ∧ ∀ o, readArgumentsFrom stop d o us =
      (readArgumentsFrom stop d o rest).map fun r => (es' ++ r.1, r.2)

theorem ArgumentsRead.readArguments {o : Token} {es : List Expr}
    (h : ArgumentsRead (d + 1) (t :: ts) es) (ht : t.lexeme ≠ .closing) (hd : d < maxDepth)
    (he : Phrase.Ends .sum (t :: ts) rest) : readArguments stop d o (t :: ts ++ rest) =
      (readArgumentsFrom stop (d + 1) o rest).map fun r => (es ++ r.1, r.2) := by
  obtain ⟨e, es', us, rfl, hp, hf⟩ := h stop rest he
  rw [List.cons_append] at hp ⊢
  rw [readArguments_cons, if_neg ht, if_neg (Nat.not_le.2 hd), hp]
  simp only [Except.bind, hf]
  cases readArgumentsFrom stop (d + 1) o rest <;> rfl

mutual

theorem Forms.reads {p d ts e} : Forms maxDepth p d ts e → p.Reads d ts e
  | .sum h => Chain.Reads.of_operand (k := .sum) h.reads
  | .addition h ht h' => Chain.Reads.snoc (k := .sum) h.reads ht h'.reads h'.ne_nil
  | .product h => Chain.Reads.of_operand (k := .product) h.reads
  | .multiplication h ht h' => Chain.Reads.snoc (k := .product) h.reads ht h'.reads h'.ne_nil
  | .power h => by
    intro stop rest he
    rw [read_power, h.reads.read stop (he.mono fun _ => False.elim)]
    exact readExponent_of_ends he
  | .exponentiation h ht hd h' => by
    intro stop rest he
    rw [Phrase.ends_append_cons h'.ne_nil] at he
    rw [List.append_assoc, List.cons_append, read_power,
      h.reads.read stop (Phrase.ends_operator (power?_eq_some.1 ht).1 id)]
    simp only [Except.bind, readExponent, ht, if_neg (Nat.not_le.2 hd),
      h'.reads.read stop he, Except.map]
  | .negation h => by
    intro stop rest he
    have hp := h.reads.read stop he
    obtain ⟨t, us, rfl, ht⟩ := h.exists_cons_primary
    rw [List.cons_append] at hp ⊢
    rw [read_negation_cons, ht, hp]
  | .opposite ht hd h => by
    intro stop rest he
    rw [Phrase.ends_cons_left h.ne_nil] at he
    rw [List.cons_append, read_negation_cons, ht]
    simp only [if_neg (Nat.not_le.2 hd), h.reads.read stop he, Except.map]
  | .number ht => by
    intro stop rest he
    rw [List.singleton_append, read_primary_cons, ht]
  | .name ht => by
    intro stop rest he
    rw [List.singleton_append, read_primary_cons, ht]
    cases rest with
    | nil => rfl
    | cons t rest =>
      have hn : t.lexeme ≠ .opening := fun ho =>
        (Phrase.ends_cons.1 he).2 ho ⟨_, rfl, _, ht⟩
      simp only [hn, if_false]
  | .parens ho hd h hc => by
    intro stop rest he
    rw [List.cons_append, List.append_assoc, List.singleton_append, read_primary_cons, ho]
    simp only [if_neg (Nat.not_le.2 hd), h.reads.read stop (ends_closing hc), Except.bind,
      readClose, hc, if_true, Except.map]
  | .bareCall hf ho hc => by
    intro stop rest he
    rw [List.cons_append, read_primary_cons, hf]
    simp [ho, readArguments_cons, hc, Except.map]
  | .call hf ho hd h hc => by
    intro stop rest he
    have ha := h.reads
    obtain ⟨t, us, rfl, ht⟩ := h.exists_cons
    rw [List.cons_append, List.cons_append, List.append_assoc, read_primary_cons, hf]
    simp only [ho, if_true]
    rw [List.singleton_append, ha.readArguments ht hd (ends_closing hc),
      readArgumentsFrom_cons, if_pos hc]
    simp [Except.map]

theorem FormsAll.reads {d ts es} : FormsAll maxDepth d ts es → ArgumentsRead d ts es
  | .one h => by
    intro stop rest he
    refine ⟨_, [], rest, rfl, h.reads.read stop he, fun o => ?_⟩
    cases readArgumentsFrom stop d o rest <;> rfl
  | .more (c := k) h hk hs => by
    intro stop rest he
    rw [Phrase.ends_append_cons hs.ne_nil] at he
    obtain ⟨e, es, us, rfl, hp, hf⟩ := hs.reads stop rest he
    rw [List.append_assoc, List.cons_append]
    refine ⟨_, _, _, rfl, h.reads.read stop (ends_comma hk), fun o => ?_⟩
    rw [readArgumentsFrom_cons, if_neg (by simp [hk]), if_pos hk, hp]
    simp only [Except.bind, hf]
    cases readArgumentsFrom stop d o rest <;> rfl

end

/-- Only a name may be taken for a call by what follows it. -/
theorem ends_of_last (ts : List Token) (ht : ∀ x, t.lexeme ≠ .name x) :
    Phrase.Ends .primary (ts ++ [t]) rest := by
  refine fun u _ => ⟨id, fun _ hn => ?_⟩
  obtain ⟨s, hs, x, hx⟩ := hn
  simp only [List.getLast?_append, List.getLast?_singleton, Option.some_or, Option.mem_def,
    Option.some.injEq] at hs
  exact ht x (hs ▸ hx)

/-! ## Whatever a reader gets through is a phrase of its kind -/

theorem readClose_eq_ok {o : Token} {ts rest : List Token} :
    readClose o ts = .ok rest ↔ ∃ c, c.lexeme = .closing ∧ ts = c :: rest := by
  cases ts with
  | nil => simp [readClose]
  | cons t ts =>
    rw [readClose]
    split
    · rename_i ht
      constructor
      · rintro ⟨⟩
        exact ⟨t, ht, rfl⟩
      · rintro ⟨c, hc, ⟨⟩⟩
        rfl
    · rename_i ht
      constructor
      · rintro ⟨⟩
      · rintro ⟨c, hc, ⟨⟩⟩
        exact absurd hc ht

mutual

theorem takes_of_read_sum {stop d ts e rest}
    (h : Phrase.read stop d ts .sum = .ok (e, rest)) : Takes .sum d ts e rest := by
  obtain ⟨⟨l, us⟩, hl, hf⟩ := bind_eq_ok.1 ((read_chain .sum).symm.trans h)
  have hlen := read_length hl
  obtain ⟨pre, rfl, hd, he⟩ := takes_of_read_product hl
  exact takes_of_readFrom (k := .sum) (.sum hd) he hf
termination_by 8 * ts.length + 4

theorem takes_of_read_product {stop d ts e rest}
    (h : Phrase.read stop d ts .product = .ok (e, rest)) : Takes .product d ts e rest := by
  obtain ⟨⟨l, us⟩, hl, hf⟩ := bind_eq_ok.1 ((read_chain .product).symm.trans h)
  have hlen := read_length hl
  obtain ⟨pre, rfl, hd, he⟩ := takes_of_read_power hl
  exact takes_of_readFrom (k := .product) (.product hd) he hf
termination_by 8 * ts.length + 3

/-- The phrase read so far is `pre`, and it grows by an operator and an operand at a time. -/
theorem takes_of_readFrom {k : Chain} {stop d l e rest} {pre : List Token} : ∀ {ts},
    Forms maxDepth k.phrase d pre l → k.operand.Ends pre ts →
    k.readFrom stop d l ts = .ok (e, rest) → Takes k.phrase d (pre ++ ts) e rest
  | [], hl, _, h => by
    rw [readFrom_nil] at h
    cases h
    exact ⟨pre, rfl, hl, Phrase.ends_nil⟩
  | t :: ts, hl, he, h => by
    rw [readFrom_cons] at h
    cases hk : k.sign? t with
    | none =>
      rw [hk] at h
      cases h
      exact ⟨pre, rfl, hl, Chain.ends_phrase hk he⟩
    | some g =>
      rw [hk] at h
      obtain ⟨⟨r, us⟩, hr, hf⟩ := bind_eq_ok.1 h
      have hlen := read_length hr
      have ht : Takes k.operand d ts r us := by
        cases k with
        | sum => exact takes_of_read_product hr
        | product => exact takes_of_read_power hr
      obtain ⟨mid, rfl, hd, he'⟩ := ht
      rw [← List.cons_append, ← List.append_assoc]
      exact takes_of_readFrom (Chain.forms hk hl hd) ((Phrase.ends_append_cons hd.ne_nil).2 he') hf
termination_by ts => 8 * ts.length

theorem takes_of_read_power {stop d ts e rest}
    (h : Phrase.read stop d ts .power = .ok (e, rest)) : Takes .power d ts e rest := by
  rw [read_power, bind_eq_ok] at h
  obtain ⟨⟨b, us⟩, hb, h⟩ := h
  have hlen := read_length hb
  obtain ⟨pre, rfl, hd, he⟩ := takes_of_read_negation hb
  exact takes_of_readExponent hd he h
termination_by 8 * ts.length + 2

theorem takes_of_readExponent {stop d b e rest} {pre : List Token} : ∀ {ts},
    Forms maxDepth .negation d pre b → Phrase.Ends .negation pre ts →
    readExponent stop d b ts = .ok (e, rest) → Takes .power d (pre ++ ts) e rest
  | [], hb, _, h => by
    cases h
    exact ⟨pre, rfl, .power hb, Phrase.ends_nil⟩
  | t :: ts, hb, he, h => by
    rw [readExponent] at h
    cases hp : t.power? with
    | none =>
      rw [hp] at h
      cases h
      exact ⟨pre, rfl, .power hb, Phrase.ends_cons.2 ⟨not_not.2 hp, (Phrase.ends_cons.1 he).2⟩⟩
    | some g =>
      simp only [hp] at h
      split at h
      · cases h
      · rename_i hd
        obtain ⟨⟨r, us⟩, hr, ⟨⟩⟩ := map_eq_ok.1 h
        obtain ⟨mid, rfl, hr, he'⟩ := takes_of_read_power hr
        rw [← List.cons_append, ← List.append_assoc]
        exact ⟨_, rfl, .exponentiation hb hp (Nat.not_le.1 hd) hr,
          (Phrase.ends_append_cons hr.ne_nil).2 he'⟩
termination_by ts => 8 * ts.length

theorem takes_of_read_negation {stop d e rest} : ∀ {ts},
    Phrase.read stop d ts .negation = .ok (e, rest) → Takes .negation d ts e rest
  | [], h => by
    rw [read_negation_nil] at h
    cases h
  | t :: ts, h => by
    rw [read_negation_cons] at h
    cases hn : t.negation? with
    | none =>
      rw [hn] at h
      obtain ⟨us, hu, hd, he⟩ := takes_of_read_primary h
      exact ⟨us, hu, .negation hd, he⟩
    | some g =>
      simp only [hn] at h
      split at h
      · cases h
      · rename_i hd
        obtain ⟨⟨x, us⟩, hx, ⟨⟩⟩ := map_eq_ok.1 h
        obtain ⟨mid, rfl, hx, he⟩ := takes_of_read_negation hx
        exact ⟨t :: mid, rfl, .opposite hn (Nat.not_le.1 hd) hx,
          (Phrase.ends_cons_left hx.ne_nil).2 he⟩
termination_by ts => 8 * ts.length + 1

theorem takes_of_read_primary {stop d e rest} : ∀ {ts},
    Phrase.read stop d ts .primary = .ok (e, rest) → Takes .primary d ts e rest
  | [], h => by
    rw [read_primary_nil] at h
    cases h
  | t :: ts, h => by
    rw [read_primary_cons] at h
    split at h
    · rename_i n ht
      cases h
      exact ⟨[t], rfl, .number ht, ends_of_last [] (by simp [ht])⟩
    · rename_i x ht
      split at h
      · cases h
        exact ⟨[t], rfl, .name ht, Phrase.ends_nil⟩
      · rename_i o us
        split at h
        · rename_i ho
          obtain ⟨⟨es, us'⟩, hr, ⟨⟩⟩ := map_eq_ok.1 h
          rcases forms_of_readArguments hr with ⟨c, hc, rfl, rfl⟩ | ⟨hd, us, c, hc, rfl, ha⟩
          · exact ⟨[t, o, c], rfl, .bareCall ht ho hc, ends_of_last [t, o] (by simp [hc])⟩
          · exact ⟨t :: o :: (us ++ [c]), by simp, .call ht ho hd ha hc,
              ends_of_last (t :: o :: us) (by simp [hc])⟩
        · rename_i ho
          cases h
          exact ⟨[t], rfl, .name ht, Phrase.ends_cons.2 ⟨id, fun h => absurd h ho⟩⟩
    · rename_i ht
      split at h
      · cases h
      · rename_i hd
        obtain ⟨⟨x, us⟩, hx, h⟩ := bind_eq_ok.1 h
        obtain ⟨us', hu, ⟨⟩⟩ := map_eq_ok.1 h
        obtain ⟨c, hc, rfl⟩ := readClose_eq_ok.1 hu
        obtain ⟨mid, rfl, hx, -⟩ := takes_of_read_sum hx
        exact ⟨t :: (mid ++ [c]), by simp, .parens ht (Nat.not_le.1 hd) hx hc,
          ends_of_last (t :: mid) (by simp [hc])⟩
    all_goals cases h
termination_by ts => 8 * ts.length

theorem forms_of_readArguments {stop d o es rest} : ∀ {ts},
    readArguments stop d o ts = .ok (es, rest) →
    (∃ c, c.lexeme = .closing ∧ ts = c :: rest ∧ es = []) ∨
      d < maxDepth ∧ ∃ us c, c.lexeme = .closing ∧ ts = us ++ c :: rest ∧
        FormsAll maxDepth (d + 1) us es
  | [], h => by
    rw [readArguments_nil] at h
    cases h
  | t :: ts, h => by
    rw [readArguments_cons] at h
    split at h
    · rename_i ht
      cases h
      exact .inl ⟨t, ht, rfl, rfl⟩
    split at h
    · cases h
    · rename_i hd
      obtain ⟨⟨x, us⟩, hx, h⟩ := bind_eq_ok.1 h
      obtain ⟨⟨xs, rest'⟩, hf, ⟨⟩⟩ := map_eq_ok.1 h
      have hlen : us.length < ts.length + 1 := read_length hx
      obtain ⟨pre, hp, hx, -⟩ := takes_of_read_sum hx
      obtain ⟨vs, c, hc, hv, ha⟩ := forms_of_readArgumentsFrom hx hf
      exact .inr ⟨Nat.not_le.1 hd, vs, c, hc, hp.trans hv, ha⟩
termination_by ts => 8 * ts.length + 5

theorem forms_of_readArgumentsFrom {stop d o es rest} {pre : List Token} {e : Expr} : ∀ {ts},
    Forms maxDepth .sum d pre e → readArgumentsFrom stop d o ts = .ok (es, rest) →
    ∃ us c, c.lexeme = .closing ∧ pre ++ ts = us ++ c :: rest ∧ FormsAll maxDepth d us (e :: es)
  | [], _, h => by
    rw [readArgumentsFrom_nil] at h
    cases h
  | t :: ts, he, h => by
    rw [readArgumentsFrom_cons] at h
    split at h
    · rename_i ht
      cases h
      exact ⟨pre, t, ht, rfl, .one he⟩
    split at h
    · rename_i ht
      obtain ⟨⟨x, us⟩, hx, h⟩ := bind_eq_ok.1 h
      obtain ⟨⟨xs, rest'⟩, hf, ⟨⟩⟩ := map_eq_ok.1 h
      have hlen := read_length hx
      obtain ⟨mid, rfl, hx, -⟩ := takes_of_read_sum hx
      obtain ⟨vs, c, hc, hv, ha⟩ := forms_of_readArgumentsFrom hx hf
      refine ⟨pre ++ t :: vs, c, hc, ?_, .more he ht ha⟩
      rw [hv, List.append_assoc, List.cons_append]
    · cases h
termination_by ts => 8 * ts.length

end

/-- A phrase is taken by the reader of its kind, and nothing else is. -/
theorem read_eq_ok_iff_takes : p.read stop d ts = .ok (e, rest) ↔ Takes p d ts e rest := by
  constructor
  · intro h
    cases p with
    | sum => exact takes_of_read_sum h
    | product => exact takes_of_read_product h
    | power => exact takes_of_read_power h
    | negation => exact takes_of_read_negation h
    | primary => exact takes_of_read_primary h
  · rintro ⟨us, rfl, hd, he⟩
    exact hd.reads.read stop he

/-! ## Whole token lists -/

/-- **Tokens are read as a tree iff they form a sum that means it.** -/
theorem parse_eq_ok_iff_forms : parse ts = .ok e ↔ Forms maxDepth .sum 0 ts e := by
  rw [parse_eq, bind_eq_ok]
  constructor
  · rintro ⟨⟨x, _ | ⟨t, us⟩⟩, hx, ⟨⟩⟩
    obtain ⟨us, rfl, hf, -⟩ := takes_of_read_sum hx
    rwa [List.append_nil]
  · intro h
    refine ⟨(e, []), ?_, rfl⟩
    exact read_eq_ok_iff_takes.2 ⟨ts, (List.append_nil ts).symm, h, Phrase.ends_nil⟩

theorem inOrder_of_parse (h : parse ts = .ok e) : inOrder e = nodeTokens ts :=
  (parse_eq_ok_iff_forms.1 h).inOrder_eq

end

end Reckon.Expr
