/-
  How the evaluation of a text can end.

  A text is scanned, parsed and evaluated, and each of the three has errors of its
  own.  With numbers for variables and the standard functions nothing else happens:
  the evaluation of every text ends with a number or with an error.

  * `Forms.known_or_unsigned`: the parser builds operations that the evaluator knows, but for
    operators that carry no sign;
  * `known_of_parseText`: in a text there are none of those;
  * `parseText_family`: a text that is no expression has an error of the first family;
  * `answer_family`: an expression without a value has one of the second;
  * `outcome_number_or_error`: both together.
-/
import Reckon.Proofs.Positions

namespace Reckon

/-! ## Known operations -/

namespace Expr

/-- An operation that the evaluator knows, if it is one. -/
def Known : Expr → Prop
  | unary op _ _ => op = "-"
  | binary op _ _ _ => op ∈ Operator.all.map Operator.glyph
  | literal .. | .var .. | call .. => True

/-- An operation whose operator carries no sign at all. -/
def Unsigned : Expr → Prop
  | unary op _ _ => op = ""
  | binary op _ _ _ => op = ""
  | literal .. | .var .. | call .. => False

/-- The sign between the operands of a chain is known. -/
theorem known_of_sign? {k : Chain} {t : Token} {g : String} {l r : Expr} {p : Int}
    (h : k.sign? t = some g) : (binary g l r p).Known := by
  cases k with
  | sum =>
    obtain ⟨-, hg⟩ := additive?_eq_some_iff.1 h
    exact (by decide : ∀ g ∈ ["+", "-"], g ∈ Operator.all.map Operator.glyph) g hg
  | product =>
    obtain ⟨-, hg⟩ := multiplicative?_eq_some_iff.1 h
    exact (by decide : ∀ g ∈ ["*", "/", "%"], g ∈ Operator.all.map Operator.glyph) g hg

/-- What is read as the sign of a power is that sign, or none. -/
theorem known_or_unsigned_of_power? {t : Token} {g : String} {l r : Expr} {p : Int}
    (h : t.power? = some g) : (binary g l r p).Known ∨ (binary g l r p).Unsigned := by
  obtain ⟨-, hg⟩ := power?_eq_some.1 h
  simp only [List.mem_cons, List.not_mem_nil, or_false] at hg
  rcases hg with rfl | rfl
  · exact .inl (by simp [Known, Operator.all, Operator.glyph])
  · exact .inr rfl

/-- What is read as a minus is a minus, or no sign. -/
theorem known_or_unsigned_of_negation? {t : Token} {g : String} {e : Expr} {p : Int}
    (h : t.negation? = some g) : (unary g e p).Known ∨ (unary g e p).Unsigned := by
  obtain ⟨-, hg⟩ := negation?_eq_some.1 h
  simp only [List.mem_cons, List.not_mem_nil, or_false] at hg
  rcases hg with rfl | rfl
  · exact .inl rfl
  · exact .inr rfl

mutual

/-- **The operations of a phrase are known**, or carry no sign at all. -/
theorem Forms.known_or_unsigned {m p d ts e} : Forms m p d ts e →
    ∀ u ∈ e.subtrees, u.Known ∨ u.Unsigned
  | .sum h | .product h | .power h | .negation h => h.known_or_unsigned
  | .addition h ht h' => by
    rw [subtrees, List.forall_mem_cons, List.forall_mem_append]
    exact ⟨.inl (known_of_sign? (k := .sum) ht), h.known_or_unsigned, h'.known_or_unsigned⟩
  | .multiplication h ht h' => by
    rw [subtrees, List.forall_mem_cons, List.forall_mem_append]
    exact ⟨.inl (known_of_sign? (k := .product) ht), h.known_or_unsigned, h'.known_or_unsigned⟩
  | .exponentiation h ht _ h' => by
    rw [subtrees, List.forall_mem_cons, List.forall_mem_append]
    exact ⟨known_or_unsigned_of_power? ht, h.known_or_unsigned, h'.known_or_unsigned⟩
  | .opposite ht _ h => by
    rw [subtrees, List.forall_mem_cons]
    exact ⟨known_or_unsigned_of_negation? ht, h.known_or_unsigned⟩
  | .number _ | .name _ => by simp [subtrees, Known]
  | .parens _ _ h _ => h.known_or_unsigned
  | .bareCall _ _ _ => by simp [subtrees, subtreesAll, Known]
  | .call _ _ _ h _ => by
    rw [subtrees, List.forall_mem_cons]
    exact ⟨.inl trivial, h.known_or_unsigned⟩

theorem FormsAll.known_or_unsigned {m d ts es} : FormsAll m d ts es →
    ∀ u ∈ subtreesAll es, u.Known ∨ u.Unsigned
  | .one h => by simpa [subtreesAll] using h.known_or_unsigned
  | .more h _ hs => by
    rw [subtreesAll, List.forall_mem_append]
    exact ⟨h.known_or_unsigned, hs.known_or_unsigned⟩

end

/-- An operation without a sign is among the nodes. -/
theorem Unsigned.mem_inOrder {u : Expr} (h : u.Unsigned) : ∃ p, (.operator "", p) ∈ inOrder u := by
  cases u with
  | literal | var | call => cases h
  | unary op e p =>
    cases h
    exact ⟨p, List.mem_cons_self ..⟩
  | binary op l r p =>
    cases h
    exact ⟨p, List.mem_append_right _ (List.mem_cons_self ..)⟩

/-- **What is read from operators with signs** has known operations only. -/
theorem known_of_parse {ts : List Token} {e : Expr} (h : parse ts = .ok e)
    (hs : ∀ t ∈ ts, t.lexeme ≠ .operator "") : ∀ u ∈ e.subtrees, u.Known := by
  intro u hu
  refine ((parse_eq_ok_iff_forms.1 h).known_or_unsigned u hu).resolve_right fun hn => ?_
  obtain ⟨p, hp⟩ := hn.mem_inOrder
  have hp : (.operator "", p) ∈ nodeTokens ts := inOrder_of_parse h ▸ inOrder_subset u hu hp
  obtain ⟨-, t, ht, hl, -⟩ := mem_nodeTokens.1 hp
  exact hs t ht hl

end Expr

/-- The fault of a known operator is an error of the evaluation. -/
theorem family_of_applyOperator {op : String} {p : Int} {a b : Number} {f : Failure}
    (hop : op ∈ Operator.all.map Operator.glyph) (h : applyOperator op p a b = .error f) :
    ∃ e, f = .error e ∧ e.family = .evaluation := by
  rcases applyOperator_eq_error h with rfl | ⟨reason, rfl⟩ | ⟨-, rfl⟩
  · -- a known sign has an operator, so that this failure is another one
    rcases applyOperator_eq_error_iff.1 h with ⟨hn, -⟩ | ⟨o, k, -, -, ⟨⟩⟩
    exact absurd hn (ofGlyph?_ne_none hop)
  · exact ⟨_, rfl, rfl⟩
  · exact ⟨_, rfl, rfl⟩

/-! ## Texts -/

/-- **A text that is no expression** has an error of that family. -/
theorem parseText_family {text : String} {e : Error} (h : Expr.parseText text = .error e) :
    e.family = .parse := by
  unfold Expr.parseText at h
  rcases Expr.bind_eq_error.1 h with h | ⟨ts, hs, h⟩
  · rcases scanFrom_cases 0 text.toList with ⟨ts, q, hk, -⟩ | ⟨ts, q, c, rest, e', hk, -, -, hr⟩
    · rw [Token.scan, hk] at h
      cases h
    · rw [Token.scan, hk] at h
      cases h
      rcases read_eq_error hr with rfl | rfl <;> rfl
  · have hd := Expr.diagnosis_of_parse (fun t ht => ((fits_of_scan hs).1 t ht).isSigned) h
    cases hd <;> rfl

/-- The operations of a text are known. -/
theorem known_of_parseText {text : String} {x : Expr} (h : Expr.parseText text = .ok x) :
    ∀ t ∈ x.subtrees, t.Known := by
  unfold Expr.parseText at h
  obtain ⟨ts, hs, h⟩ := Expr.bind_eq_ok.1 h
  exact Expr.known_of_parse h fun t ht =>
    Expr.lexeme_ne_operator_empty ((fits_of_scan hs).1 t ht).isSigned

theorem parseText_eq_error {text : String} {e : Error} : Expr.parseText text = .error e ↔
    Token.scan text = .error e ∨ ∃ ts, Token.scan text = .ok ts ∧ Expr.parse ts = .error e :=
  Expr.bind_eq_error

theorem outcome_eq (s : Scope) (text : String) : outcome s text =
    (Failure.ofError (Expr.parseText text)).bind fun x => x.answer s := by
  unfold outcome evaluateText
  cases Expr.parseText text <;> rfl

theorem outcome_of_parseText {s : Scope} {text : String} {t : Expr}
    (h : Expr.parseText text = .ok t) : outcome s text = t.answer s := by
  rw [outcome_eq, h]
  rfl

theorem outcome_eq_ok {s : Scope} {text : String} {n : Number} :
    outcome s text = .ok n ↔ ∃ t, Expr.parseText text = .ok t ∧ t.answer s = .ok n := by
  rw [outcome_eq, Expr.bind_eq_ok]
  simp only [Failure.ofError, Expr.mapError_eq_ok]

/-! ## Registries of numbers and standard functions -/

/-- The errors of a standard function are those of an evaluation. -/
theorem standard_family {f : StandardFunction} {args : List Number} {e : Error}
    (h : f.run args = .error e) : e.family = .evaluation := by
  unfold StandardFunction.run at h
  split at h
  · cases h
    rfl
  · cases h
    rfl
  · split at h
    · cases h
    · cases h
      rfl

/-- A failure that is an error of the evaluation. -/
def Failure.IsEvaluation (f : Failure) : Prop := ∃ e, f = .error e ∧ e.family = .evaluation

section
variable {definitions : Option Definitions} {functions : Option Functions} {x : String}

/-- A variable without a value is undefined, since what is registered is a number. -/
theorem value_failsOnly {f : Failure}
    (h : (Scope.of (definitions.map Definitions.plain) functions).value x = .error f) :
    f.IsEvaluation := by
  rcases value_eq_error.1 h with ⟨-, rfl⟩ | ⟨v, hv, hn, -⟩
  · exact ⟨_, rfl, rfl⟩
  · cases definitions with
    | none => cases hv
    | some d =>
      have hm : (d.find? x).map PlainValue.number = some v := by
        rw [← Registry.find?_map]
        exact hv
      obtain ⟨n, -, rfl⟩ := Option.map_eq_some_iff.1 hm
      exact absurd rfl (hn n)

/-- **The failures of a scope** of numbers and standard functions are errors of an evaluation. -/
theorem scope_isEvaluation
    (hf : functions = none ∨ functions = some .empty ∨ functions = some .standard) :
    (Scope.of (definitions.map Definitions.plain) functions).FailsOnly Failure.IsEvaluation := by
  constructor
  case value =>
    intro x f h
    exact value_failsOnly h
  case callable =>
    intro x f h
    obtain ⟨-, rfl⟩ := callable_eq_error.1 h
    exact ⟨_, rfl, rfl⟩
  case run =>
    intro x g args f hg h
    obtain ⟨k, rfl⟩ := exists_standard hf hg
    rcases run_eq_error.1 h with ⟨k', e, ⟨⟩, hr, rfl⟩ | ⟨k', ⟨⟩, -⟩
    exact ⟨e, rfl, standard_family hr⟩

/-- **An expression of known operations without a value** has an error of that family. -/
theorem answer_family {s : Scope} (hs : s.FailsOnly Failure.IsEvaluation) {t : Expr} {f : Failure}
    (hk : ∀ u ∈ t.subtrees, u.Known) (h : t.answer s = .error f) : f.IsEvaluation := by
  obtain ⟨u, hu, ho⟩ := Expr.exists_origin h
  have hu := hk u hu
  rcases ho.cases_of_scope hs with h | ⟨op, v, p, rfl, hop, -⟩ | ⟨op, l, r, p, a, b, rfl, h⟩
  · exact h
  · exact absurd hu hop
  · exact family_of_applyOperator hu h

/-! ## Outcomes -/

/-- With numbers for variables and standard functions, what a text comes to is a number or an error,
    and no error about the kind of a result. -/
theorem outcome_of_numbers (definitions : Option Definitions)
    (hf : functions = none ∨ functions = some .empty ∨ functions = some .standard) (text : String) :
    let r := outcome (Scope.of (definitions.map Definitions.plain) functions) text
    (∃ n, r = .ok n) ∨ ∃ e, r = .error (.error e) ∧ e.family ≠ .result := by
  intro r
  cases hr : r with
  | ok n => exact .inl ⟨n, rfl⟩
  | error f =>
    refine .inr ?_
    have ho : outcome (Scope.of (definitions.map Definitions.plain) functions) text = .error f := hr
    rw [outcome_eq] at ho
    rcases hp : Expr.parseText text with e | t
    · rw [hp] at ho
      cases ho
      exact ⟨e, rfl, by simp [parseText_family hp]⟩
    · rw [hp] at ho
      obtain ⟨e, rfl, he⟩ := answer_family (scope_isEvaluation hf) (known_of_parseText hp) ho
      exact ⟨e, rfl, by simp [he]⟩

/-- **The evaluation of every text ends with a number or with an error of its own.**  With numbers
    for variables, and without functions or with the standard ones, there is no other failure, and
    no error about the kind of a result.  It is an error of the first family iff the text cannot be
    scanned or parsed, and then it is the error found there, whatever the registries hold. -/
theorem outcome_number_or_error (definitions : Option Definitions) {functions : Option Functions}
    (hf : functions = none ∨ functions = some .empty ∨ functions = some .standard)
    (text : String) :
    let s := Scope.of (definitions.map Definitions.plain) functions
    ((∃ n, outcome s text = .ok n) ∨ ∃ e, outcome s text = .error (.error e) ∧ e.family ≠ .result) ∧
      ∀ e, outcome s text = .error (.error e) ∧ e.family = .parse ↔
        Token.scan text = .error e ∨ ∃ ts, Token.scan text = .ok ts ∧ Expr.parse ts = .error e := by
  intro s
  rw [outcome_eq]
  rcases hp : Expr.parseText text with e | x
  · have he := parseText_family hp
    have ho : (Failure.ofError (.error e : Except Error Expr)).bind (fun x => x.answer s) =
        .error (.error e) := rfl
    rw [ho]
    refine ⟨.inr ⟨e, rfl, by simp [he]⟩, fun e' => ?_⟩
    rw [← parseText_eq_error, hp]
    constructor
    · rintro ⟨⟨⟩, -⟩
      rfl
    · rintro ⟨⟩
      exact ⟨rfl, he⟩
  · have ho : (Failure.ofError (.ok x : Except Error Expr)).bind (fun x => x.answer s) =
        x.answer s := rfl
    have hx : ∀ f, x.answer s = .error f → f.IsEvaluation := fun f hf' =>
      answer_family (scope_isEvaluation hf) (known_of_parseText hp) hf'
    rw [ho]
    constructor
    · rcases ha : x.answer s with f | n
      · obtain ⟨e, rfl, he⟩ := hx f ha
        exact .inr ⟨e, rfl, by simp [he]⟩
      · exact .inl ⟨n, rfl⟩
    · intro e
      rw [← parseText_eq_error, hp]
      constructor
      · rintro ⟨ha, he⟩
        obtain ⟨e', ⟨⟩, he'⟩ := hx _ ha
        rw [he] at he'
        cases he'
      · rintro ⟨⟩

/-- The root of a variable that is minus infinity. -/
theorem outcome_number_or_error_root :
    let d : Definitions := ⟨[("x", .float (-1 / 0))]⟩
    let fs := Functions.standard
    let s := Scope.of (some d.plain) (some fs)
    let text := "1 + sqrt(x)"
    (some fs = none ∨ some fs = some .empty ∨ some fs = some Functions.standard) ∧
    ((∃ n, outcome s text = .ok n) ∨ ∃ e, outcome s text = .error (.error e) ∧ e.family ≠ .result) ∧
      ∀ e, outcome s text = .error (.error e) ∧ e.family = .parse ↔
        Token.scan text = .error e ∨ ∃ ts, Token.scan text = .ok ts ∧ Expr.parse ts = .error e := by
  intro d fs s text
  have hf : some fs = none ∨ some fs = some .empty ∨ some fs = some Functions.standard :=
    .inr (.inr rfl)
  exact ⟨hf, outcome_number_or_error (some d) hf text⟩

end

end Reckon
