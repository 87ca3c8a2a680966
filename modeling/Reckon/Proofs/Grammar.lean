/-
  The grammar of expressions, as a relation between tokens and trees.

  ```text
  sum      := product | sum ('+' | '-') product
  product  := power | product ('*' | '/' | '%') power
  power    := negation | negation '^' power
  negation := primary | '-' negation
  primary  := number | name | '(' sum ')' | name '(' ')' | name '(' arguments ')'
  arguments := sum | sum ',' arguments
  ```

  * `Derives p d ts e`: at nesting level `d` the tokens `ts` are a phrase of the
    kind `p` and mean the tree `e`.  The level rises inside parentheses, inside
    a list of arguments, in the operand of a minus and in an exponent, and never
    above `maxDepth`;
  * `inOrder`, `nodeTokens`: the nodes of a tree, in the order of the text, and the
    numbers, names and operators among tokens, each with its own spot;
  * `Derives.matched`: every parenthesis among the tokens is closed by one of its own.
-/
import Reckon.Expr.Parse

namespace Reckon

/-- A token that carries one of the six signs, if it is an operator. -/
def Token.IsSigned (t : Token) : Prop :=
  ∀ g, t.lexeme = .operator g → g ∈ Operator.all.map Operator.glyph

/-- Lexemes that stand for a node of a tree, unlike parentheses and commas. -/
def Lexeme.isNode : Lexeme → Bool
  | .number _ | .name _ | .operator _ => true
  | .opening | .closing | .comma | .other _ => false

namespace Expr

mutual

/-- What the nodes of a tree stand for and where, in the order of the text. -/
def inOrder : Expr → List (Lexeme × Int)
  | literal n p => [(.number n, p)]
  | .var x p => [(.name x, p)]
  | unary op e p => (.operator op, p) :: inOrder e
  | binary op l r p => inOrder l ++ (.operator op, p) :: inOrder r
  | call f args p => (.name f, p) :: inOrderAll args

/-- What the nodes of several trees stand for and where. -/
def inOrderAll : List Expr → List (Lexeme × Int)
  | [] => []
  | e :: es => inOrder e ++ inOrderAll es

end

/-! ## Phrases -/

/-- The kinds of phrases, loosest first. -/
inductive Phrase where
  | sum
  | product
  | power
  | negation
  | primary
  deriving DecidableEq

mutual

/-- At a nesting level, tokens that are a phrase of a kind, and the tree they mean. -/
inductive Derives : Phrase → Nat → List Token → Expr → Prop
  | sum {d ts e} : Derives .product d ts e → Derives .sum d ts e
  | addition {d ts us t g l r} : Derives .sum d ts l → t.lexeme = .operator g → g ∈ ["+", "-"] →
      Derives .product d us r → Derives .sum d (ts ++ t :: us) (.binary g l r t.spot)
  | product {d ts e} : Derives .power d ts e → Derives .product d ts e
  | multiplication {d ts us t g l r} : Derives .product d ts l → t.lexeme = .operator g →
      g ∈ ["*", "/", "%"] → Derives .power d us r →
      Derives .product d (ts ++ t :: us) (.binary g l r t.spot)
  | power {d ts e} : Derives .negation d ts e → Derives .power d ts e
  | exponentiation {d ts us t l r} : Derives .negation d ts l → t.lexeme = .operator "^" →
      d < maxDepth → Derives .power (d + 1) us r →
      Derives .power d (ts ++ t :: us) (.binary "^" l r t.spot)
  | negation {d ts e} : Derives .primary d ts e → Derives .negation d ts e
  | opposite {d ts t e} : t.lexeme = .operator "-" → d < maxDepth → Derives .negation (d + 1) ts e →
      Derives .negation d (t :: ts) (.unary "-" e t.spot)
  | number {d t n} : t.lexeme = .number n → Derives .primary d [t] (.literal n t.spot)
  | name {d t x} : t.lexeme = .name x → Derives .primary d [t] (.var x t.spot)
  | parens {d ts o c e} : o.lexeme = .opening → d < maxDepth → Derives .sum (d + 1) ts e →
      c.lexeme = .closing → Derives .primary d (o :: (ts ++ [c])) e
  /-- A call without arguments does not nest. -/
  | bareCall {d f o c x} : f.lexeme = .name x → o.lexeme = .opening → c.lexeme = .closing →
      Derives .primary d [f, o, c] (.call x [] f.spot)
  | call {d ts f o c x es} : f.lexeme = .name x → o.lexeme = .opening → d < maxDepth →
      Arguments (d + 1) ts es → c.lexeme = .closing →
      Derives .primary d (f :: o :: (ts ++ [c])) (.call x es f.spot)

/-- At a nesting level, tokens that are arguments with commas between, at least one. -/
inductive Arguments : Nat → List Token → List Expr → Prop
  | one {d ts e} : Derives .sum d ts e → Arguments d ts [e]
  | more {d ts us c e es} : Derives .sum d ts e → c.lexeme = .comma → Arguments d us es →
      Arguments d (ts ++ c :: us) (e :: es)

end

variable {p : Phrase} {d : Nat} {ts us : List Token} {e : Expr} {es : List Expr}

/-- A list of arguments can be continued at its end. -/
theorem Arguments.snoc {d us e c} (hc : c.lexeme = .comma) (he : Derives .sum d us e) :
    ∀ {ts es}, Arguments d ts es → Arguments d (ts ++ c :: us) (es ++ [e])
  | _, _, .one h => .more h hc (.one he)
  | _, _, .more h hc' hs => by
    rw [List.append_assoc]
    exact .more h hc' (Arguments.snoc hc he hs)

/-- A primary is a phrase of every kind. -/
theorem Derives.ofPrimary (h : Derives .primary d ts e) : Derives p d ts e := by
  have hn : Derives .negation d ts e := .negation h
  cases p with
  | sum => exact .sum (.product (.power hn))
  | product => exact .product (.power hn)
  | power => exact .power hn
  | negation => exact hn
  | primary => exact h

/-! ## The nodes of a tree -/

/-- The lexemes and spots of the tokens that stand for nodes. -/
def nodeTokens (ts : List Token) : List (Lexeme × Int) :=
  (ts.filter (·.lexeme.isNode)).map fun t => (t.lexeme, t.spot)

@[simp]
theorem nodeTokens_nil : nodeTokens [] = [] := rfl

@[simp]
theorem nodeTokens_append : nodeTokens (ts ++ us) = nodeTokens ts ++ nodeTokens us := by
  simp [nodeTokens]

@[simp]
theorem nodeTokens_cons (t : Token) :
    nodeTokens (t :: ts) =
      if t.lexeme.isNode then (t.lexeme, t.spot) :: nodeTokens ts else nodeTokens ts := by
  unfold nodeTokens
  rw [List.filter_cons]
  split <;> rfl

/-- A node token is a token with its lexeme and spot. -/
theorem mem_nodeTokens {l : Lexeme} {p : Int} :
    (l, p) ∈ nodeTokens ts ↔ l.isNode = true ∧ ∃ t ∈ ts, t.lexeme = l ∧ t.spot = p := by
  unfold nodeTokens
  constructor
  · intro h
    obtain ⟨t, ht, he⟩ := List.mem_map.1 h
    cases he
    obtain ⟨ht, hn⟩ := List.mem_filter.1 ht
    exact ⟨hn, t, ht, rfl, rfl⟩
  · rintro ⟨hn, t, ht, rfl, rfl⟩
    exact List.mem_map.2 ⟨t, List.mem_filter.2 ⟨ht, hn⟩, rfl⟩

/-! ## The tokens of a phrase -/

theorem isSigned_of_sign {t : Token} {g : String} {gs : List String} (ht : t.lexeme = .operator g)
    (hg : g ∈ gs) (hs : ∀ g ∈ gs, g ∈ Operator.all.map Operator.glyph) : t.IsSigned := by
  intro g' h
  rw [ht] at h
  cases h
  exact hs g hg

mutual

/-- The operators in a phrase carry signs. -/
theorem Derives.isSigned {p d ts e} : Derives p d ts e → ∀ t ∈ ts, t.IsSigned
  | .sum h | .product h | .power h | .negation h => h.isSigned
  | .addition h ht hg h' | .multiplication h ht hg h' => by
    have hs := isSigned_of_sign ht hg (by decide)
    exact List.forall_mem_append.2 ⟨h.isSigned, List.forall_mem_cons.2 ⟨hs, h'.isSigned⟩⟩
  | .exponentiation h ht _ h' => by
    have hs := isSigned_of_sign ht (List.mem_singleton_self _) (by decide)
    exact List.forall_mem_append.2 ⟨h.isSigned, List.forall_mem_cons.2 ⟨hs, h'.isSigned⟩⟩
  | .opposite ht _ h => by
    have hs := isSigned_of_sign ht (List.mem_singleton_self _) (by decide)
    exact List.forall_mem_cons.2 ⟨hs, h.isSigned⟩
  | .number ht => by simp [Token.IsSigned, ht]
  | .name ht => by simp [Token.IsSigned, ht]
  | .parens ho _ h hc => by
    intro t ht
    simp only [List.mem_cons, List.mem_append, List.not_mem_nil, or_false] at ht
    rcases ht with rfl | ht | rfl
    · simp [Token.IsSigned, ho]
    · exact h.isSigned t ht
    · simp [Token.IsSigned, hc]
  | .bareCall hf ho hc => by simp [Token.IsSigned, hf, ho, hc]
  | .call hf ho _ h hc => by
    intro t ht
    simp only [List.mem_cons, List.mem_append, List.not_mem_nil, or_false] at ht
    rcases ht with rfl | rfl | ht | rfl
    · simp [Token.IsSigned, hf]
    · simp [Token.IsSigned, ho]
    · exact h.isSigned t ht
    · simp [Token.IsSigned, hc]

theorem Arguments.isSigned {d ts es} : Arguments d ts es → ∀ t ∈ ts, t.IsSigned
  | .one h => h.isSigned
  | .more h hc hs => by
    have hc : Token.IsSigned _ := fun g hg => by rw [hc] at hg; cases hg
    exact List.forall_mem_append.2 ⟨h.isSigned, List.forall_mem_cons.2 ⟨hc, hs.isSigned⟩⟩

end

/-- Tokens at which an operand ends. -/
def EndsOperand (ts : List Token) : Prop :=
  ∃ t ∈ ts.getLast?, (∃ n, t.lexeme = .number n) ∨ (∃ x, t.lexeme = .name x) ∨ t.lexeme = .closing

theorem EndsOperand.append (ts : List Token) {us : List Token} (h : EndsOperand us) :
    EndsOperand (ts ++ us) := by
  obtain ⟨t, ht, hk⟩ := h
  rw [Option.mem_def] at ht
  exact ⟨t, by simp [ht], hk⟩

theorem endsOperand_closing (ts : List Token) {c : Token} (hc : c.lexeme = .closing) :
    EndsOperand (ts ++ [c]) := .append _ ⟨c, rfl, .inr (.inr hc)⟩

/-- A phrase ends where an operand does. -/
theorem Derives.endsOperand {p d ts e} : Derives p d ts e → EndsOperand ts
  | .sum h | .product h | .power h | .negation h => h.endsOperand
  | .addition _ _ _ h | .multiplication _ _ _ h | .exponentiation _ _ _ h =>
    (h.endsOperand.append [_]).append _
  | .opposite _ _ h => h.endsOperand.append [_]
  | .number ht => ⟨_, rfl, .inl ⟨_, ht⟩⟩
  | .name ht => ⟨_, rfl, .inr (.inl ⟨_, ht⟩)⟩
  | .parens _ _ _ hc => endsOperand_closing (_ :: _) hc
  | .bareCall _ _ hc => endsOperand_closing [_, _] hc
  | .call _ _ _ _ hc => endsOperand_closing (_ :: _ :: _) hc

theorem Arguments.endsOperand {d ts es} : Arguments d ts es → EndsOperand ts
  | .one h => h.endsOperand
  | .more _ _ h => (h.endsOperand.append [_]).append _

/-! ## Parentheses -/

/-- Tokens in which every parenthesis is closed by one of its own. -/
inductive Matched : List Token → Prop
  | nil : Matched []
  | plain {t ts} : t.lexeme ≠ .opening → t.lexeme ≠ .closing → Matched ts → Matched (t :: ts)
  | parens {o c ts us} : o.lexeme = .opening → c.lexeme = .closing → Matched ts → Matched us →
      Matched (o :: (ts ++ c :: us))

theorem Matched.append (h : Matched ts) (h' : Matched us) : Matched (ts ++ us) := by
  induction h with
  | nil => exact h'
  | plain ho hc _ ih => exact .plain ho hc ih
  | parens ho hc h _ _ ih =>
    rw [List.cons_append, List.append_assoc, List.cons_append]
    exact .parens ho hc h ih

mutual

theorem Derives.matched {p d ts e} : Derives p d ts e → Matched ts
  | .sum h | .product h | .power h | .negation h => h.matched
  | .addition h ht _ h' | .multiplication h ht _ h' | .exponentiation h ht _ h' =>
    h.matched.append (.plain (by simp [ht]) (by simp [ht]) h'.matched)
  | .opposite ht _ h => .plain (by simp [ht]) (by simp [ht]) h.matched
  | .number ht | .name ht => .plain (by simp [ht]) (by simp [ht]) .nil
  | .parens ho _ h hc => .parens ho hc h.matched .nil
  | .bareCall hf ho hc => .plain (by simp [hf]) (by simp [hf]) (.parens ho hc .nil .nil)
  | .call hf ho _ h hc => .plain (by simp [hf]) (by simp [hf]) (.parens ho hc h.matched .nil)

theorem Arguments.matched {d ts es} : Arguments d ts es → Matched ts
  | .one h => h.matched
  | .more h hc hs => h.matched.append (.plain (by simp [hc]) (by simp [hc]) hs.matched)

end

end Expr

end Reckon
