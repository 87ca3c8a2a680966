/-
  Reading tokens is deriving them.

  Each reader takes the longest phrase from the start of a token list: the phrase
  is derived (`Begins`), and the token after it does not go on with it
  (`Phrase.Ends`).  Where operators carry signs, deriving a phrase and forming it are
  the same.

  * `Derives.forms`, `Forms.derives`: both ways;
  * `Derives.reads`: a reader gets through every phrase of its kind;
  * `read_eq_ok_iff`: and through nothing else;
  * `parse_eq_ok_iff_derives`: a whole token list is read as a tree iff the
    grammar derives that tree, and it derives no other.
-/
import Reckon.Proofs.Forms

namespace Reckon.Expr

/-- Tokens that begin with a phrase, as long as can be, and go on with a rest. -/
def Begins (p : Phrase) (d : Nat) (ts : List Token) (e : Expr) (rest : List Token) : Prop :=
  ∃ us, ts = us ++ rest ∧ Derives p d us e ∧ p.Ends us rest

section
variable {p : Phrase} {stop : Int} {d n : Nat} {ts us rest : List Token} {t : Token} {g : String}
  {e l r : Expr} {k : Chain}

/-! ## Signs -/

theorem lexeme_ne_operator_empty (hs : t.IsSigned) : t.lexeme ≠ .operator "" := fun h =>
  absurd (hs "" h) (by decide)

theorem power?_eq_some_iff (hs : t.IsSigned) :
    t.power? = some g ↔ t.lexeme = .operator "^" ∧ g = "^" := by
  have hn := lexeme_ne_operator_empty hs
  rw [power?_eq_some]
  constructor
  · rintro ⟨ht, hg⟩
    simp only [List.mem_cons, List.not_mem_nil, or_false] at hg
    rcases hg with rfl | rfl
    · exact ⟨ht, rfl⟩
    · exact absurd ht hn
  · rintro ⟨ht, rfl⟩
    exact ⟨ht, by simp⟩

theorem negation?_eq_some_iff (hs : t.IsSigned) :
    t.negation? = some g ↔ t.lexeme = .operator "-" ∧ g = "-" := by
  have hn := lexeme_ne_operator_empty hs
  rw [negation?_eq_some]
  constructor
  · rintro ⟨ht, hg⟩
    simp only [List.mem_cons, List.not_mem_nil, or_false] at hg
    rcases hg with rfl | rfl
    · exact ⟨ht, rfl⟩
    · exact absurd ht hn
  · rintro ⟨ht, rfl⟩
    exact ⟨ht, by simp⟩

theorem power?_of_caret (ht : t.lexeme = .operator "^") : t.power? = some "^" := by
  simp [Token.power?, ht]

theorem negation?_of_minus (ht : t.lexeme = .operator "-") : t.negation? = some "-" := by
  simp [Token.negation?, ht]

/-- The sign between two operands is that of an operator that makes a chain of them. -/
theorem Chain.derives (hk : k.sign? t = some g) (hl : Derives k.phrase d ts l)
    (hr : Derives k.operand d us r) :
    Derives k.phrase d (ts ++ t :: us) (.binary g l r t.spot) := by
  cases k with
  | sum =>
    obtain ⟨ht, hg⟩ := additive?_eq_some_iff.1 hk
    exact .addition hl ht hg hr
  | product =>
    obtain ⟨ht, hg⟩ := multiplicative?_eq_some_iff.1 hk
    exact .multiplication hl ht hg hr

theorem Derives.ofOperand (h : Derives k.operand d ts e) : Derives k.phrase d ts e := by
  cases k with
  | sum => exact .sum h
  | product => exact .product h

/-! ## Deriving and forming -/

mutual

theorem Derives.forms {p d ts e} : Derives p d ts e → Forms maxDepth p d ts e
  | .sum h => .sum h.forms
  | .addition h ht hg h' => .addition h.forms (additive?_eq_some_iff.2 ⟨ht, hg⟩) h'.forms
  | .product h => .product h.forms
  | .multiplication h ht hg h' =>
    .multiplication h.forms (multiplicative?_eq_some_iff.2 ⟨ht, hg⟩) h'.forms
  | .power h => .power h.forms
  | .exponentiation h ht hd h' => .exponentiation h.forms (power?_of_caret ht) hd h'.forms
  | .negation h => .negation h.forms
  | .opposite ht hd h => .opposite (negation?_of_minus ht) hd h.forms
  | .number ht => .number ht
  | .name ht => .name ht
  | .parens ho hd h hc => .parens ho hd h.forms hc
  | .bareCall hf ho hc => .bareCall hf ho hc
  | .call hf ho hd h hc => .call hf ho hd h.forms hc

theorem Arguments.forms {d ts es} : Arguments d ts es → FormsAll maxDepth d ts es
  | .one h => .one h.forms
  | .more h hc hs => .more h.forms hc hs.forms

end

/-- The nodes of a tree are the node tokens of its phrase. -/
theorem Derives.inOrder_eq (h : Derives p d ts e) : inOrder e = nodeTokens ts := h.forms.inOrder_eq

mutual

/-- Where operators carry signs, a phrase is formed as the grammar derives it. -/
theorem Forms.derives {p d ts e} : Forms maxDepth p d ts e → (∀ t ∈ ts, t.IsSigned) →
    Derives p d ts e
  | .sum h, hs => .sum (h.derives hs)
  | .addition h ht h', hs => by
    obtain ⟨ht, hg⟩ := additive?_eq_some_iff.1 ht
    obtain ⟨hs, hs'⟩ := List.forall_mem_append.1 hs
    exact .addition (h.derives hs) ht hg (h'.derives (List.forall_mem_cons.1 hs').2)
  | .product h, hs => .product (h.derives hs)
  | .multiplication h ht h', hs => by
    obtain ⟨ht, hg⟩ := multiplicative?_eq_some_iff.1 ht
    obtain ⟨hs, hs'⟩ := List.forall_mem_append.1 hs
    exact .multiplication (h.derives hs) ht hg (h'.derives (List.forall_mem_cons.1 hs').2)
  | .power h, hs => .power (h.derives hs)
  | .exponentiation h ht hd h', hs => by
    obtain ⟨hs, hs'⟩ := List.forall_mem_append.1 hs
    obtain ⟨hs', hs''⟩ := List.forall_mem_cons.1 hs'
    obtain ⟨hl, rfl⟩ := (power?_eq_some_iff hs').1 ht
    exact .exponentiation (h.derives hs) hl hd (h'.derives hs'')
  | .negation h, hs => .negation (h.derives hs)
  | .opposite ht hd h, hs => by
    obtain ⟨hs, hs'⟩ := List.forall_mem_cons.1 hs
    obtain ⟨hl, rfl⟩ := (negation?_eq_some_iff hs).1 ht
    exact .opposite hl hd (h.derives hs')
  | .number ht, _ => .number ht
  | .name ht, _ => .name ht
  | .parens ho hd h hc, hs => .parens ho hd (h.derives fun t ht => hs t (by simp [ht])) hc
  | .bareCall hf ho hc, _ => .bareCall hf ho hc
  | .call hf ho hd h hc, hs => .call hf ho hd (h.derives fun t ht => hs t (by simp [ht])) hc

theorem FormsAll.derives {d ts es} : FormsAll maxDepth d ts es → (∀ t ∈ ts, t.IsSigned) →
    Arguments d ts es
  | .one h, hs => .one (h.derives hs)
  | .more h hc hs, ht => by
    obtain ⟨ht, ht'⟩ := List.forall_mem_append.1 ht
    exact .more (h.derives ht) hc (hs.derives (List.forall_mem_cons.1 ht').2)

end

/-- A phrase begins with a token, and not with a closing parenthesis. -/
theorem Derives.exists_cons (h : Derives p d ts e) : ∃ t us, ts = t :: us ∧ t.lexeme ≠ .closing :=
  h.forms.exists_cons

theorem Arguments.exists_cons {es : List Expr} (h : Arguments d ts es) :
    ∃ t us, ts = t :: us ∧ t.lexeme ≠ .closing := h.forms.exists_cons

theorem Derives.ne_nil (h : Derives p d ts e) : ts ≠ [] := h.forms.ne_nil

/-! ## Readers -/

theorem Derives.reads (h : Derives p d ts e) : p.Reads d ts e := h.forms.reads

theorem Arguments.reads {es : List Expr} (h : Arguments d ts es) : ArgumentsRead d ts es :=
  h.forms.reads

theorem Derives.reads_chain (h : Derives k.phrase d ts e) : k.Reads d ts e := by
  cases k with
  | sum => exact h.reads
  | product => exact h.reads

/-- **What a reader gets through**: a phrase of its kind that the rest does not go on with. -/
theorem read_eq_ok_iff (hs : ∀ t ∈ ts, t.IsSigned) :
    p.read stop d ts = .ok (e, rest) ↔ Begins p d ts e rest := by
  rw [read_eq_ok_iff_takes]
  constructor
  · rintro ⟨us, rfl, hf, he⟩
    exact ⟨us, rfl, hf.derives (List.forall_mem_append.1 hs).1, he⟩
  · rintro ⟨us, rfl, hd, he⟩
    exact ⟨us, rfl, hd.forms, he⟩

/-! ## Whole token lists -/

/-- Tokens that mean a tree are read as that tree. -/
theorem Derives.parse_eq (h : Derives .sum 0 ts e) : parse ts = .ok e :=
  parse_eq_ok_iff_forms.2 h.forms

/-- Tokens that are read as a tree mean it. -/
theorem derives_of_parse (hs : ∀ t ∈ ts, t.IsSigned) (h : parse ts = .ok e) :
    Derives .sum 0 ts e := (parse_eq_ok_iff_forms.1 h).derives hs

/-- **Reading is deriving.**  A token list whose operators carry signs is read as a tree iff the
    grammar derives the tree from it.  It derives at most one, and the nodes of that one, in the
    order of the text, are the numbers, names and operators of the list, each at its own spot. -/
theorem parse_eq_ok_iff_derives (hs : ∀ t ∈ ts, t.IsSigned) :
    (∀ e, parse ts = .ok e ↔ Derives .sum 0 ts e) ∧
      (∀ e e', Derives .sum 0 ts e → Derives .sum 0 ts e' → e = e') ∧
      ∀ e, Derives .sum 0 ts e → inOrder e = nodeTokens ts := by
  refine ⟨fun e => ⟨derives_of_parse hs, Derives.parse_eq⟩, fun e e' h h' => ?_, fun e h => ?_⟩
  · have := h.parse_eq.symm.trans h'.parse_eq
    cases this
    rfl
  · exact h.inOrder_eq

/-- A minus in an exponent, whose tokens are signed. -/
theorem parse_two_to_minus_x :
    let two : Token := ⟨"2", 0, .number (.int 2)⟩
    let caret : Token := ⟨"^", 1, .operator "^"⟩
    let minus : Token := ⟨"-", 2, .operator "-"⟩
    let x : Token := ⟨"x", 3, .name "x"⟩
    (∀ t ∈ [two, caret, minus, x], t.IsSigned) ∧
      parse [two, caret, minus, x] =
        .ok (.binary "^" (.literal (.int 2) 0) (.unary "-" (.var "x" 3) 2) 1) := by
  intro two caret minus x
  have hp : Derives .power 0 ([two] ++ caret :: [minus, x])
      (.binary "^" (.literal (.int 2) 0) (.unary "-" (.var "x" 3) 2) 1) :=
    .exponentiation (.negation (.number rfl)) rfl (by decide)
      (.power (.opposite rfl (by decide) (.negation (.name rfl))))
  have hs : ∀ t ∈ [two, caret, minus, x], t.IsSigned := hp.isSigned
  exact ⟨hs, ((parse_eq_ok_iff_derives hs).1 _).2 (.sum (.product hp))⟩

end

end Reckon.Expr
