/-
  Beginnings of expressions.

  * `Due ts p d`: after the tokens `ts`, which begin an expression, a phrase of the
    kind `p` is due at nesting level `d`;
  * `Due.complete`: with such a phrase the beginning can be completed;
  * `Due.read_error`: if the phrase cannot be read, the expression cannot;
  * `openings`: the parentheses that are still open.
-/
import Reckon.Proofs.Parsing

namespace Reckon.Expr

/-- After some tokens, a phrase of a kind is due at a nesting level.  Operands of every sort are
    due where a negation is. -/
inductive Due : List Token → Phrase → Nat → Prop
  | start : Due [] .sum 0
  | first {ts d} {k : Chain} : Due ts k.phrase d → Due ts k.operand d
  | further {ts us d t g e} {k : Chain} : Due ts k.phrase d → Derives k.phrase d us e →
      k.sign? t = some g → Due (ts ++ (us ++ [t])) k.operand d
  | negation {ts d} : Due ts .power d → Due ts .negation d
  | exponent {ts us d t e} : Due ts .power d → Derives .negation d us e →
      t.lexeme = .operator "^" → d < maxDepth → Due (ts ++ (us ++ [t])) .power (d + 1)
  | operand {ts d t} : Due ts .negation d → t.lexeme = .operator "-" → d < maxDepth →
      Due (ts ++ [t]) .negation (d + 1)
  | inside {ts d o} : Due ts .negation d → o.lexeme = .opening → d < maxDepth →
      Due (ts ++ [o]) .sum (d + 1)
  | firstArgument {ts d f o x} : Due ts .negation d → f.lexeme = .name x → o.lexeme = .opening →
      d < maxDepth → Due (ts ++ [f, o]) .sum (d + 1)
  | nextArgument {ts us d f o c x es} : Due ts .negation d → f.lexeme = .name x →
      o.lexeme = .opening → d < maxDepth → Arguments (d + 1) us es → c.lexeme = .comma →
      Due (ts ++ f :: o :: (us ++ [c])) .sum (d + 1)

variable {p : Phrase} {stop : Int} {d : Nat} {ts us vs : List Token} {t f o : Token} {x : String}
  {e : Expr} {es : List Expr} {err : Error}

/-! ## Completion -/

/-- Some parenthesis that closes. -/
def someClosing : Token := ⟨")", 0, .closing⟩

/-- Some operand. -/
def someOperand : Token := ⟨"0", 0, .number (.int 0)⟩

/-- **Where a phrase is due, it can be completed** to an expression. -/
theorem Due.complete (h : Due ts p d) (hp : Derives p d us e) :
    ∃ vs e, Derives .sum 0 (ts ++ (us ++ vs)) e := by
  induction h generalizing us e with
  | start => exact ⟨[], e, by simpa using hp⟩
  | first _ ih => exact ih hp.ofOperand
  | further _ hl hk ih => simpa using ih (Chain.derives hk hl hp)
  | negation _ ih => exact ih (.power hp)
  | exponent _ hl ht hd ih => simpa using ih (.exponentiation hl ht hd hp)
  | operand _ ht hd ih => simpa using ih (.opposite ht hd hp)
  | inside _ ho hd ih =>
    obtain ⟨vs, e, h⟩ := ih (.negation (.parens (c := someClosing) ho hd hp rfl))
    exact ⟨someClosing :: vs, e, by simpa using h⟩
  | firstArgument _ hf ho hd ih =>
    obtain ⟨vs, e, h⟩ := ih (.negation (.call (c := someClosing) hf ho hd (.one hp) rfl))
    exact ⟨someClosing :: vs, e, by simpa using h⟩
  | nextArgument _ hf ho hd ha hc ih =>
    obtain ⟨vs, e, h⟩ :=
      ih (.negation (.call (c := someClosing) hf ho hd (ha.snoc hc hp) rfl))
    exact ⟨someClosing :: vs, e, by simpa using h⟩

/-- Tokens that are an expression. -/
def Accepted (ts : List Token) : Prop := ∃ e, parse ts = .ok e

/-- Tokens that begin an expression. -/
def Viable (ts : List Token) : Prop := ∃ us, Accepted (ts ++ us)

theorem Viable.of_append (h : Viable (ts ++ us)) : Viable ts := by
  obtain ⟨vs, h⟩ := h
  exact ⟨us ++ vs, by rwa [← List.append_assoc]⟩

theorem Accepted.viable (h : Accepted ts) : Viable ts := ⟨[], by rwa [List.append_nil]⟩

theorem Due.viable_append (h : Due ts p d) (hp : Derives p d us e) : Viable (ts ++ us) := by
  obtain ⟨vs, e, h⟩ := h.complete hp
  exact ⟨vs, e, by simpa using h.parse_eq⟩

theorem Due.viable (h : Due ts p d) : Viable ts := by
  have hn : Derives p d [someOperand] _ := .ofPrimary (.number rfl)
  exact (h.viable_append hn).of_append

/-! ## Failure -/

/-- Tokens that end with the opening parenthesis of a call, after which a closing one may follow. -/
def EndsInCall (ts : List Token) : Prop :=
  ∃ us f o x, ts = us ++ [f, o] ∧ f.lexeme = .name x ∧ o.lexeme = .opening

/-- The next token is not a parenthesis that closes a call without arguments. -/
def Admits (ts us : List Token) : Prop := ∀ t ∈ us.head?, t.lexeme = .closing → ¬ EndsInCall ts

theorem admits_of_ne (ht : t.lexeme ≠ .closing) : Admits ts (t :: us) := by
  rintro _ ⟨⟩ h
  exact absurd h ht

theorem Derives.admits (h : Derives p d us e) : Admits ts (us ++ vs) := by
  obtain ⟨t, us, rfl, ht⟩ := h.exists_cons
  exact admits_of_ne ht

theorem admits_append_singleton (ht : t.lexeme ≠ .opening) : Admits (ts ++ [t]) us := by
  rintro _ - - ⟨us, f, o, x, h, -, ho⟩
  rw [← List.singleton_append (l := [o]), ← List.append_assoc] at h
  obtain ⟨-, h⟩ := List.append_inj' h rfl
  cases h
  exact ht ho

/-- The reader of negations at an opening parenthesis. -/
theorem read_negation_opening (ho : o.lexeme = .opening) :
    Phrase.read stop d (o :: us) .negation =
      if maxDepth ≤ d then .error o.refused
      else (Phrase.read stop (d + 1) us .sum).bind fun r =>
        (readClose o r.2).map fun vs => (r.1, vs) := by
  have hn : o.negation? = none := by simp [Token.negation?, ho]
  rw [read_negation_cons, hn]
  simp only [read_primary_cons, ho]

/-- The reader of negations at a call. -/
theorem read_negation_call (hf : f.lexeme = .name x) (ho : o.lexeme = .opening) :
    Phrase.read stop d (f :: o :: us) .negation =
      (readArguments stop d o us).map fun r => (.call x r.1 f.spot, r.2) := by
  have hn : f.negation? = none := by simp [Token.negation?, hf]
  rw [read_negation_cons, hn]
  simp only [read_primary_cons, hf, ho, if_true]

/-- The reader of arguments gets through some and goes on with whatever follows. -/
theorem Arguments.readArguments_eq (h : Arguments (d + 1) us es) (hd : d < maxDepth)
    (he : Phrase.Ends .sum us vs) : readArguments stop d o (us ++ vs) =
      (readArgumentsFrom stop (d + 1) o vs).map fun r => (es ++ r.1, r.2) := by
  have ha := h.reads
  obtain ⟨t, us, rfl, ht⟩ := h.exists_cons
  exact ha.readArguments ht hd he

/-- **Where a phrase is due and cannot be read, the expression cannot be read.** -/
theorem Due.read_error (h : Due ts p d) (hu : Admits ts us)
    (he : p.read stop d us = .error err) : Phrase.read stop 0 (ts ++ us) .sum = .error err := by
  induction h generalizing us with
  | start => exact he
  | first _ ih => exact ih hu (read_chain_error _ he)
  | further _ hl hk ih =>
    rw [List.append_assoc, List.append_assoc, List.singleton_append]
    refine ih hl.admits ?_
    rw [hl.reads_chain.read_sign hk, he]
    rfl
  | negation _ ih => exact ih hu (by rw [read_power, he]; rfl)
  | exponent _ hl ht hd ih =>
    rw [List.append_assoc, List.append_assoc, List.singleton_append]
    refine ih hl.admits ?_
    rw [read_power, hl.reads.read stop (Phrase.ends_operator ht id)]
    simp only [Except.bind, readExponent, power?_of_caret ht, if_neg (Nat.not_le.2 hd), he,
      Except.map]
  | operand _ ht hd ih =>
    rw [List.append_assoc, List.singleton_append]
    refine ih (admits_of_ne (by simp [ht])) ?_
    rw [read_negation_cons, negation?_of_minus ht]
    simp only [if_neg (Nat.not_le.2 hd), he, Except.map]
  | inside _ ho hd ih =>
    rw [List.append_assoc, List.singleton_append]
    refine ih (admits_of_ne (by simp [ho])) ?_
    rw [read_negation_opening ho, if_neg (Nat.not_le.2 hd), he]
    rfl
  | firstArgument _ hf ho hd ih =>
    rw [List.append_assoc, List.cons_append, List.singleton_append]
    refine ih (admits_of_ne (by simp [hf])) ?_
    rw [read_negation_call hf ho]
    cases us with
    | nil =>
      rw [read_sum_nil] at he
      cases he
      rw [readArguments_nil, if_neg (Nat.not_le.2 hd)]
      rfl
    | cons t us =>
      have ht : t.lexeme ≠ .closing := fun ht => hu t rfl ht ⟨_, _, _, _, rfl, hf, ho⟩
      rw [readArguments_cons, if_neg ht, if_neg (Nat.not_le.2 hd), he]
      rfl
  | nextArgument _ hf ho hd ha hc ih =>
    rw [List.append_assoc, List.cons_append, List.cons_append, List.append_assoc,
      List.singleton_append]
    refine ih (admits_of_ne (by simp [hf])) ?_
    rw [read_negation_call hf ho, ha.readArguments_eq hd (ends_comma hc), readArgumentsFrom_cons,
      if_neg (by simp [hc]), if_pos hc, he]
    rfl

/-! ## Levels and ends -/

/-- Nothing nests below `maxDepth`. -/
theorem Due.level_le (h : Due ts p d) : d ≤ maxDepth := by
  induction h with
  | start => exact Nat.zero_le _
  | first _ ih | further _ _ _ ih | negation _ ih => exact ih
  | exponent _ _ _ hd | operand _ _ hd | inside _ _ hd | firstArgument _ _ _ hd
  | nextArgument _ _ _ hd => exact hd

/-- Tokens after which an operand has to follow: none, or such that end in an operator, a comma or
    an opening parenthesis. -/
def NeedsOperand (ts : List Token) : Prop :=
  ∀ t ∈ ts.getLast?, (∃ g, t.lexeme = .operator g) ∨ t.lexeme = .comma ∨ t.lexeme = .opening

theorem needsOperand_append_singleton : NeedsOperand (ts ++ [t]) ↔
    (∃ g, t.lexeme = .operator g) ∨ t.lexeme = .comma ∨ t.lexeme = .opening := by
  simp [NeedsOperand]

/-- Where a phrase is due, an operand has to follow. -/
theorem Due.needsOperand (h : Due ts p d) : NeedsOperand ts := by
  induction h with
  | start => rintro _ ⟨⟩
  | first _ ih | negation _ ih => exact ih
  | further _ _ hk =>
    rw [← List.append_assoc]
    exact needsOperand_append_singleton.2 (.inl ⟨_, Chain.lexeme_of_sign? hk⟩)
  | exponent _ _ ht =>
    rw [← List.append_assoc]
    exact needsOperand_append_singleton.2 (.inl ⟨_, ht⟩)
  | operand _ ht => exact needsOperand_append_singleton.2 (.inl ⟨_, ht⟩)
  | inside _ ho => exact needsOperand_append_singleton.2 (.inr (.inr ho))
  | firstArgument _ _ ho =>
    rw [List.append_cons]
    exact needsOperand_append_singleton.2 (.inr (.inr ho))
  | nextArgument _ _ _ _ _ hc =>
    rw [← List.cons_append, ← List.cons_append, ← List.append_assoc]
    exact needsOperand_append_singleton.2 (.inr (.inl hc))

theorem EndsOperand.not_needsOperand (h : EndsOperand ts) : ¬ NeedsOperand ts := by
  intro hn
  obtain ⟨t, ht, hk⟩ := h
  rcases hk with ⟨n, hk⟩ | ⟨x, hk⟩ | hk <;> simpa [hk] using hn t ht

/-! ## Open parentheses -/

/-- The open parentheses after a further token, innermost first. -/
def opens (stack : List Token) (t : Token) : List Token :=
  match t.lexeme with
  | .opening => t :: stack
  | .closing => stack.tail
  | .number _ | .name _ | .operator _ | .comma | .other _ => stack

/-- The parentheses that tokens leave open, innermost first. -/
def openings (ts : List Token) : List Token := ts.foldl opens []

/-- Only opening parentheses among the tokens are left open. -/
theorem mem_of_mem_foldl_opens {stack : List Token} (h : o ∈ ts.foldl opens stack) :
    o ∈ stack ∨ o ∈ ts ∧ o.lexeme = .opening := by
  induction ts generalizing stack with
  | nil => exact .inl h
  | cons t ts ih =>
    rcases ih h with h | ⟨h, ho⟩
    · unfold opens at h
      split at h
      · rename_i ht
        rcases List.mem_cons.1 h with rfl | h
        · exact .inr ⟨List.mem_cons_self, ht⟩
        · exact .inl h
      · exact .inl (List.mem_of_mem_tail h)
      all_goals exact .inl h
    · exact .inr ⟨List.mem_cons_of_mem t h, ho⟩

/-- Matched parentheses close whatever they open. -/
theorem Matched.foldl_opens (h : Matched ts) : ∀ stack, ts.foldl opens stack = stack := by
  induction h with
  | nil => exact fun _ => rfl
  | plain ho hc _ ih =>
    intro stack
    rw [List.foldl_cons, ih]
    unfold opens
    split
    · exact absurd ‹_› ho
    · exact absurd ‹_› hc
    all_goals rfl
  | parens ho hc _ _ ih ih' =>
    intro stack
    rw [List.foldl_cons, List.foldl_append, ih, List.foldl_cons, ih']
    simp [opens, ho, hc]

/-- A phrase closes whatever it opens. -/
theorem Derives.foldl_opens {p d ts e} (h : Derives p d ts e) :
    ∀ stack, ts.foldl opens stack = stack := h.matched.foldl_opens

theorem Arguments.foldl_opens {d ts es} (h : Arguments d ts es) :
    ∀ stack, ts.foldl opens stack = stack := h.matched.foldl_opens

/-- A parenthesis after which whatever opens is closed is the innermost open one. -/
theorem openings_append_cons (ho : o.lexeme = .opening)
    (hu : ∀ stack, us.foldl opens stack = stack) :
    openings (ts ++ o :: us) = o :: openings ts := by
  rw [openings, List.foldl_append, List.foldl_cons, hu]
  simp [opens, openings, ho]

end Reckon.Expr
