/-
  What the error of a reader says about the tokens.

  * `Due.level_unique`: what is due where is a matter of the tokens before;
  * `Diagnosis`: a token is refused with which no expression goes on, or the tokens
    end where one does;
  * `diagnosis_of_read_sum` and the like: the error of a reader is of this sort, if
    what it reads is due after the tokens before;
  * `parse_error_earliest`: what that means for whole token lists.
-/
import Reckon.Proofs.Prefix

namespace Reckon.Expr

/-- Tokens that end with the opening parenthesis of a call at the deepest level, after which only
    a closing one may follow. -/
def EndsInCappedCall (ts : List Token) : Prop :=
  ∃ us f o x, ts = us ++ [f, o] ∧ Due us .negation maxDepth ∧ f.lexeme = .name x ∧
    o.lexeme = .opening

/-- What an error says about the tokens it is raised for, if `stop` is where they end. -/
inductive Diagnosis (stop : Int) : List Token → Error → Prop
  /-- An expression begins so, and none goes on with the token. -/
  | refused {ts t us} : Viable ts → ¬ Viable (ts ++ [t]) → Diagnosis stop (ts ++ t :: us) t.refused
  /-- A call at the deepest level is refused before its arguments are looked at. -/
  | capped {ts f o us x} : Due ts .negation maxDepth → f.lexeme = .name x → o.lexeme = .opening →
      (∀ t ∈ us.head?, t.lexeme ≠ .closing) → Diagnosis stop (ts ++ f :: o :: us) o.refused
  | ended {ts p d} : Due ts p d → Diagnosis stop ts (.unexpectedEnd stop)
  | unclosed {ts o} : Viable ts → EndsOperand ts → (openings ts).head? = some o →
      Diagnosis stop ts (.unmatchedParen o.spot)

variable {p : Phrase} {stop : Int} {d : Nat} {ts us vs pre : List Token} {t f o : Token}
  {x : String} {l e : Expr} {es : List Expr} {err : Error}

/-! ## Refused tokens -/

theorem Admits.cons (h : Admits ts (t :: us)) : Admits ts (t :: vs) := h

theorem Phrase.Ends.cons (h : p.Ends ts (t :: us)) : p.Ends ts (t :: vs) := h

/-- Where a phrase is due that cannot be read, whatever follows, no expression goes on. -/
theorem Due.not_viable (h : Due ts p d) (hu : ∀ vs, Admits ts (us ++ vs))
    (he : ∀ stop vs, ∃ err, p.read stop d (us ++ vs) = .error err) : ¬ Viable (ts ++ us) := by
  rintro ⟨vs, e, hp⟩
  obtain ⟨err, he⟩ := he (Token.endOf (ts ++ (us ++ vs))) vs
  rw [List.append_assoc, parse_eq, h.read_error (hu vs) he] at hp
  cases hp

/-- Where a phrase is due and its reader refuses a token, whatever follows, no expression goes on
    with that token. -/
theorem Due.refused (h : Due ts p d) (hv : Viable (ts ++ us))
    (hu : ∀ vs, Admits ts (us ++ t :: vs))
    (he : ∀ stop vs, p.read stop d (us ++ t :: vs) = .error t.refused) :
    Diagnosis stop (ts ++ (us ++ t :: vs)) t.refused := by
  rw [← List.append_assoc]
  refine .refused hv ?_
  rw [List.append_assoc]
  refine h.not_viable (fun vs => ?_) fun stop vs => ?_
  · rw [List.append_assoc]
    exact hu vs
  · rw [List.append_assoc]
    exact ⟨_, he stop vs⟩

/-- The first token of a phrase is refused. -/
theorem Due.refused_head (h : Due ts p d) (hu : Admits ts (t :: us))
    (he : ∀ stop vs, p.read stop d (t :: vs) = .error t.refused) :
    Diagnosis stop (ts ++ t :: us) t.refused := by
  show Diagnosis stop (ts ++ ([] ++ t :: us)) t.refused
  refine h.refused ?_ (fun _ => hu.cons) he
  rw [List.append_nil]
  exact h.viable

/-- After the parenthesis of a call at the deepest level only a closing one may follow. -/
theorem not_viable_of_endsInCappedCall (h : EndsInCappedCall ts) (ht : t.lexeme ≠ .closing) :
    ¬ Viable (ts ++ [t]) := by
  obtain ⟨us, f, o, x, rfl, hd, hf, ho⟩ := h
  rw [List.append_assoc]
  refine hd.not_viable (fun vs => ?_) fun stop vs => ⟨o.refused, ?_⟩
  · exact admits_of_ne (by simp [hf])
  · simp only [List.cons_append, List.nil_append]
    rw [read_negation_call hf ho, readArguments_cons, if_neg ht, if_pos (Nat.le_refl _)]
    rfl

/-! ## Levels -/

/-- Parentheses may be opened down to the deepest level. -/
theorem Due.replicate (ho : o.lexeme = .opening) (h : Due ts .negation d) : ∀ n, d + n ≤ maxDepth →
    Due (ts ++ List.replicate n o) .negation (d + n)
  | 0, _ => by simpa using h
  | n + 1, hn => by
    have hi := (h.replicate ho n (by omega)).inside ho (by omega)
    rw [List.append_assoc, ← List.replicate_succ'] at hi
    exact .negation (.first (k := .product) (.first (k := .sum) hi))

/-- At the deepest level no parenthesis may be opened. -/
theorem Due.not_viable_opening (h : Due ts .negation maxDepth) (ho : o.lexeme = .opening) :
    ¬ Viable (ts ++ [o]) := by
  refine h.not_viable (fun vs => admits_of_ne (by simp [ho])) fun stop vs => ⟨o.refused, ?_⟩
  rw [List.singleton_append, read_negation_opening ho]
  exact if_pos (Nat.le_refl _)

theorem Due.level_le_level {d' : Nat} (h : Due ts .negation d) (h' : Due ts .negation d') :
    d' ≤ d := by
  refine Nat.not_lt.1 fun hlt => ?_
  obtain ⟨n, hn⟩ := Nat.le.dest h'.level_le
  have ho : Token.lexeme ⟨"(", 0, .opening⟩ = .opening := rfl
  have hd' := h'.replicate ho n (by omega)
  rw [hn] at hd'
  refine hd'.not_viable_opening ho ?_
  rw [List.append_assoc, ← List.replicate_succ']
  exact (h.replicate ho (n + 1) (by omega)).viable

/-- **The tokens before an operand determine its level.** -/
theorem Due.level_unique {d' : Nat} (h : Due ts .negation d) (h' : Due ts .negation d') : d = d' :=
  Nat.le_antisymm (h'.level_le_level h) (h.level_le_level h')

/-! ## Errors of the readers -/

theorem readClose_eq_error : readClose o ts = .error err ↔
    (ts = [] ∧ err = .unmatchedParen o.spot) ∨
      ∃ t us, ts = t :: us ∧ t.lexeme ≠ .closing ∧ err = t.refused := by
  cases ts with
  | nil => simp [readClose, eq_comm]
  | cons t ts =>
    rw [readClose]
    split
    · rename_i ht
      simp [ht]
    · rename_i ht
      constructor
      · rintro ⟨⟩
        exact .inr ⟨t, ts, rfl, ht, rfl⟩
      · rintro (⟨⟨⟩, -⟩ | ⟨_, _, ⟨⟩, -, rfl⟩)
        rfl

/-- Inside a parenthesis after which whatever opens is closed, the tokens end too early. -/
theorem diagnosis_unclosed (hv : Viable (ts ++ o :: us)) (ho : o.lexeme = .opening)
    (he : EndsOperand us) (hf : ∀ stack, us.foldl opens stack = stack) :
    Diagnosis stop (ts ++ o :: us) (.unmatchedParen o.spot) := by
  refine .unclosed hv ?_ ?_
  · rw [List.append_cons]
    exact he.append _
  · rw [openings_append_cons ho hf]
    rfl

theorem admits_append_append (ht : t.lexeme ≠ .opening) : Admits (ts ++ (us ++ [t])) vs := by
  rw [← List.append_assoc]
  exact admits_append_singleton ht

/-- Where an operand is due, a parenthesis is not that of a call. -/
theorem Due.admits_opening (h : Due ts p d) : Admits (ts ++ [o]) us := by
  rintro _ - - ⟨vs, f, o', x, ho, hf, -⟩
  rw [← List.singleton_append (l := [o']), ← List.append_assoc] at ho
  obtain ⟨rfl, -⟩ := List.append_inj' ho rfl
  rcases needsOperand_append_singleton.1 h.needsOperand with ⟨g, hg⟩ | hg | hg <;> simp [hf] at hg

/-- The expression inside a parenthesis is read, and it is not closed. -/
theorem Due.diagnosis_of_readClose (hd : Due ts .negation d) (ho : o.lexeme = .opening)
    (hm : d < maxDepth) (he : Derives .sum (d + 1) us e) (hu : Phrase.Ends .sum us vs)
    (h : readClose o vs = .error err) : Diagnosis stop (ts ++ o :: (us ++ vs)) err := by
  have hv : Viable (ts ++ o :: us) := by
    have := (hd.inside ho hm).viable_append he
    simpa using this
  rcases readClose_eq_error.1 h with ⟨rfl, rfl⟩ | ⟨t, vs, rfl, ht, rfl⟩
  · rw [List.append_nil]
    exact diagnosis_unclosed hv ho he.endsOperand he.foldl_opens
  · refine hd.refused hv (fun _ => admits_of_ne (by simp [ho])) fun stop vs => ?_
    rw [List.cons_append, read_negation_opening ho, if_neg (Nat.not_le.2 hm),
      he.reads.read stop hu.cons]
    simp [Except.bind, Except.map, readClose, ht]

theorem Due.viable_call (hd : Due ts .negation d) (hf : f.lexeme = .name x)
    (ho : o.lexeme = .opening) (hm : d < maxDepth) (ha : Arguments (d + 1) us es) :
    Viable (ts ++ f :: o :: us) := by
  have hc := hd.viable_append (.negation (.call (c := someClosing) hf ho hm ha rfl))
  rw [← List.cons_append, ← List.cons_append, ← List.append_assoc] at hc
  exact hc.of_append

/-- The arguments of a call are read so far, and a token neither goes on with them nor closes. -/
theorem Due.refused_argument (hd : Due ts .negation d) (hf : f.lexeme = .name x)
    (ho : o.lexeme = .opening) (hm : d < maxDepth) (ha : Arguments (d + 1) us es)
    (hu : Phrase.Ends .sum us (t :: vs)) (ht : t.lexeme ≠ .closing) (hc : t.lexeme ≠ .comma) :
    Diagnosis stop (ts ++ f :: o :: (us ++ t :: vs)) t.refused := by
  refine hd.refused (hd.viable_call hf ho hm ha) (fun _ => admits_of_ne (by simp [hf])) ?_
  intro stop vs
  rw [List.cons_append, List.cons_append, read_negation_call hf ho,
    ha.readArguments_eq hm hu.cons, readArgumentsFrom_cons, if_neg ht, if_neg hc]
  rfl

mutual

theorem diagnosis_of_read_sum {stop d err} {ts us : List Token} (hd : Due ts .sum d)
    (hu : Admits ts us) (hs : ∀ t ∈ us, t.IsSigned) (h : Phrase.read stop d us .sum = .error err) :
    Diagnosis stop (ts ++ us) err := by
  rcases bind_eq_error.1 ((read_chain .sum).symm.trans h) with he | ⟨⟨l, rest⟩, hl, he⟩
  · exact diagnosis_of_read_product (.first (k := .sum) hd) hu hs he
  · have hlen := read_length hl
    obtain ⟨pre, rfl, hl, -⟩ := (read_eq_ok_iff hs).1 hl
    exact diagnosis_of_readFrom (k := .sum) hd (.sum hl)
      (fun t ht => hs t (List.mem_append_right _ ht)) he
termination_by 8 * us.length + 4

theorem diagnosis_of_read_product {stop d err} {ts us : List Token} (hd : Due ts .product d)
    (hu : Admits ts us) (hs : ∀ t ∈ us, t.IsSigned)
    (h : Phrase.read stop d us .product = .error err) : Diagnosis stop (ts ++ us) err := by
  rcases bind_eq_error.1 ((read_chain .product).symm.trans h) with he | ⟨⟨l, rest⟩, hl, he⟩
  · exact diagnosis_of_read_power (.first (k := .product) hd) hu hs he
  · have hlen := read_length hl
    obtain ⟨pre, rfl, hl, -⟩ := (read_eq_ok_iff hs).1 hl
    exact diagnosis_of_readFrom (k := .product) hd (.product hl)
      (fun t ht => hs t (List.mem_append_right _ ht)) he
termination_by 8 * us.length + 3

/-- The phrase read so far is `pre`, and after a sign a further operand is due. -/
theorem diagnosis_of_readFrom {k : Chain} {stop d l err} {ts pre : List Token} : ∀ {us},
    Due ts k.phrase d → Derives k.phrase d pre l → (∀ t ∈ us, t.IsSigned) →
    k.readFrom stop d l us = .error err → Diagnosis stop (ts ++ (pre ++ us)) err
  | [], _, _, _, h => by
    rw [readFrom_nil] at h
    cases h
  | t :: us, hd, hl, hs, h => by
    have hs' := (List.forall_mem_cons.1 hs).2
    rw [readFrom_cons] at h
    cases hk : k.sign? t with
    | none =>
      rw [hk] at h
      cases h
    | some g =>
      rw [hk] at h
      rcases bind_eq_error.1 h with he | ⟨⟨r, rest⟩, hr, he⟩
      · have hd' := hd.further hl hk
        have hu : Admits (ts ++ (pre ++ [t])) us :=
          admits_append_append (by simp [Chain.lexeme_of_sign? hk])
        have : Diagnosis stop (ts ++ (pre ++ [t]) ++ us) err := by
          cases k with
          | sum => exact diagnosis_of_read_product hd' hu hs' he
          | product => exact diagnosis_of_read_power hd' hu hs' he
        simpa using this
      · have hlen := read_length hr
        obtain ⟨mid, rfl, hr, -⟩ := (read_eq_ok_iff hs').1 hr
        have := diagnosis_of_readFrom hd (Chain.derives hk hl hr)
          (fun t ht => hs' t (List.mem_append_right _ ht)) he
        simpa using this
termination_by us => 8 * us.length

theorem diagnosis_of_read_power {stop d err} {ts us : List Token} (hd : Due ts .power d)
    (hu : Admits ts us) (hs : ∀ t ∈ us, t.IsSigned)
    (h : Phrase.read stop d us .power = .error err) : Diagnosis stop (ts ++ us) err := by
  rw [read_power, bind_eq_error] at h
  rcases h with h | ⟨⟨b, rest⟩, hb, h⟩
  · exact diagnosis_of_read_negation (.negation hd) hu hs h
  · have hlen := read_length hb
    obtain ⟨pre, rfl, hb, -⟩ := (read_eq_ok_iff hs).1 hb
    exact diagnosis_of_readExponent hd hb (fun t ht => hs t (List.mem_append_right _ ht)) h
termination_by 8 * us.length + 2

theorem diagnosis_of_readExponent {stop d b err} {ts pre : List Token} : ∀ {us},
    Due ts .power d → Derives .negation d pre b → (∀ t ∈ us, t.IsSigned) →
    readExponent stop d b us = .error err → Diagnosis stop (ts ++ (pre ++ us)) err
  | [], _, _, _, h => by cases h
  | t :: us, hd, hb, hs, h => by
    obtain ⟨hs, hs'⟩ := List.forall_mem_cons.1 hs
    rw [readExponent] at h
    cases hp : t.power? with
    | none =>
      rw [hp] at h
      cases h
    | some g =>
      obtain ⟨ht, rfl⟩ := (power?_eq_some_iff hs).1 hp
      simp only [hp] at h
      split at h
      · rename_i hm
        cases h
        refine hd.refused (hd.viable_append (.power hb)) (fun _ => hb.admits) fun stop vs => ?_
        rw [read_power, hb.reads.read stop (Phrase.ends_operator ht id)]
        simp only [Except.bind, readExponent, hp, if_pos hm]
      · rename_i hm
        have := diagnosis_of_read_power (.exponent hd hb ht (Nat.not_le.1 hm))
          (admits_append_append (by simp [ht])) hs' (map_eq_error.1 h)
        simpa using this
termination_by us => 8 * us.length

theorem diagnosis_of_read_negation {stop d err} {ts : List Token} : ∀ {us}, Due ts .negation d →
    Admits ts us → (∀ t ∈ us, t.IsSigned) → Phrase.read stop d us .negation = .error err →
    Diagnosis stop (ts ++ us) err
  | [], hd, _, _, h => by
    rw [read_negation_nil] at h
    cases h
    rw [List.append_nil]
    exact .ended hd
  | t :: us, hd, hu, hs, h => by
    cases hn : t.negation? with
    | none =>
      rw [read_negation_cons, hn] at h
      exact diagnosis_of_read_primary hd hu hs (by rintro _ ⟨⟩; exact hn) h
    | some g =>
      obtain ⟨hs, hs'⟩ := List.forall_mem_cons.1 hs
      obtain ⟨ht, rfl⟩ := (negation?_eq_some_iff hs).1 hn
      rw [read_negation_cons, hn] at h
      simp only at h
      split at h
      · rename_i hm
        cases h
        refine hd.refused_head hu fun stop vs => ?_
        rw [read_negation_cons, hn]
        exact if_pos hm
      · rename_i hm
        have := diagnosis_of_read_negation (.operand hd ht (Nat.not_le.1 hm))
          (admits_append_singleton (by simp [ht])) hs' (map_eq_error.1 h)
        simpa using this
termination_by us => 8 * us.length + 1

theorem diagnosis_of_read_primary {stop d err} {ts : List Token} : ∀ {us}, Due ts .negation d →
    Admits ts us → (∀ t ∈ us, t.IsSigned) → (∀ t ∈ us.head?, t.negation? = none) →
    Phrase.read stop d us .primary = .error err → Diagnosis stop (ts ++ us) err
  | [], hd, _, _, _, h => by
    rw [read_primary_nil] at h
    cases h
    rw [List.append_nil]
    exact .ended hd
  | t :: us, hd, hu, hs, hn, h => by
    have hn := hn t rfl
    have hs' := (List.forall_mem_cons.1 hs).2
    have hr : ∀ stop vs, Phrase.read stop d (t :: vs) .negation =
        Phrase.read stop d (t :: vs) .primary := fun stop vs => by rw [read_negation_cons, hn]
    simp only [read_primary_cons] at h hr
    split at h
    · cases h
    · rename_i x hf
      split at h
      · cases h
      · rename_i o us
        split at h
        · rename_i ho
          exact diagnosis_of_readArguments hd hf ho (List.forall_mem_cons.1 hs').2
            (map_eq_error.1 h)
        · cases h
    · rename_i ho
      split at h
      · rename_i hm
        cases h
        refine hd.refused_head hu fun stop vs => ?_
        rw [hr, ho]
        exact if_pos hm
      · rename_i hm
        have hi := hd.inside ho (Nat.not_le.1 hm)
        rcases bind_eq_error.1 h with he | ⟨⟨e, rest⟩, he, hc⟩
        · have := diagnosis_of_read_sum hi hd.admits_opening hs' he
          simpa using this
        · obtain ⟨mid, rfl, he, hm'⟩ := (read_eq_ok_iff hs').1 he
          exact hd.diagnosis_of_readClose ho (Nat.not_le.1 hm) he hm' (map_eq_error.1 hc)
    all_goals
      rename_i ht
      cases h
      refine hd.refused_head hu fun stop vs => ?_
      rw [hr, ht]
termination_by us => 8 * us.length

theorem diagnosis_of_readArguments {stop d err f o x} {ts : List Token} : ∀ {us},
    Due ts .negation d → f.lexeme = .name x → o.lexeme = .opening → (∀ t ∈ us, t.IsSigned) →
    readArguments stop d o us = .error err → Diagnosis stop (ts ++ f :: o :: us) err
  | [], hd, hf, ho, _, h => by
    rw [readArguments_nil] at h
    split at h
    · rename_i hm
      cases h
      cases Nat.le_antisymm hd.level_le hm
      exact .capped hd hf ho (by rintro _ ⟨⟩)
    · rename_i hm
      cases h
      exact .ended (hd.firstArgument hf ho (Nat.not_le.1 hm))
  | t :: us, hd, hf, ho, hs, h => by
    rw [readArguments_cons] at h
    split at h
    · cases h
    rename_i ht
    split at h
    · rename_i hm
      cases h
      cases Nat.le_antisymm hd.level_le hm
      exact .capped hd hf ho (by rintro _ ⟨⟩; exact ht)
    · rename_i hm
      have hm := Nat.not_le.1 hm
      rcases bind_eq_error.1 h with he | ⟨⟨e, rest⟩, he, hr⟩
      · have := diagnosis_of_read_sum (hd.firstArgument hf ho hm) (admits_of_ne ht) hs he
        simpa using this
      · have hlen : rest.length < us.length + 1 := read_length he
        obtain ⟨pre, hp, he, hu⟩ := (read_eq_ok_iff hs).1 he
        rw [hp] at hs ⊢
        exact diagnosis_of_readArgumentsFrom hd hf ho hm (.one he) hu
          (fun t ht => hs t (List.mem_append_right _ ht)) (map_eq_error.1 hr)
termination_by us => 8 * us.length + 5

theorem diagnosis_of_readArgumentsFrom {stop d err f o x} {ts pre : List Token} {es : List Expr} :
    ∀ {us}, Due ts .negation d → f.lexeme = .name x → o.lexeme = .opening → d < maxDepth →
    Arguments (d + 1) pre es → Phrase.Ends .sum pre us → (∀ t ∈ us, t.IsSigned) →
    readArgumentsFrom stop (d + 1) o us = .error err →
    Diagnosis stop (ts ++ f :: o :: (pre ++ us)) err
  | [], hd, hf, ho, hm, ha, _, _, h => by
    rw [readArgumentsFrom_nil] at h
    cases h
    rw [List.append_nil]
    have hv := hd.viable_call hf ho hm ha
    rw [List.append_cons] at hv ⊢
    exact diagnosis_unclosed hv ho ha.endsOperand ha.foldl_opens
  | t :: us, hd, hf, ho, hm, ha, hu, hs, h => by
    have hs' := (List.forall_mem_cons.1 hs).2
    rw [readArgumentsFrom_cons] at h
    split at h
    · cases h
    rename_i ht
    split at h
    · rename_i hc
      rcases bind_eq_error.1 h with he | ⟨⟨e, rest⟩, he, hr⟩
      · have hu : Admits (ts ++ (f :: o :: pre ++ [t])) us := admits_append_append (by simp [hc])
        have := diagnosis_of_read_sum (hd.nextArgument hf ho hm ha hc) hu hs' he
        simpa using this
      · have hlen := read_length he
        obtain ⟨mid, rfl, he, hu'⟩ := (read_eq_ok_iff hs').1 he
        have := diagnosis_of_readArgumentsFrom hd hf ho hm (ha.snoc hc he)
          ((Phrase.ends_append_cons he.ne_nil).2 hu')
          (fun t ht => hs' t (List.mem_append_right _ ht)) (map_eq_error.1 hr)
        simpa using this
    · rename_i hc
      cases h
      exact hd.refused_argument hf ho hm ha hu ht hc
termination_by us => 8 * us.length

end

/-! ## Errors of whole token lists -/

/-- After an expression comes a token that does not go on with it. -/
theorem Derives.not_viable (h : Derives .sum 0 us e) (hu : Phrase.Ends .sum us (t :: vs)) :
    ¬ Viable (us ++ [t]) := by
  rintro ⟨vs, e, hp⟩
  rw [List.append_assoc, List.singleton_append, Expr.parse_eq, h.reads.read _ hu.cons] at hp
  cases hp

/-- What the error of a token list says. -/
theorem diagnosis_of_parse (hs : ∀ t ∈ ts, t.IsSigned) (h : parse ts = .error err) :
    Diagnosis (Token.endOf ts) ts err := by
  rw [parse_eq] at h
  rcases bind_eq_error.1 h with he | ⟨⟨e, _ | ⟨t, rest⟩⟩, he, hr⟩
  · exact diagnosis_of_read_sum .start (by rintro _ - - ⟨us, f, o, x, hn, -⟩; simp at hn) hs he
  · cases hr
  · cases hr
    obtain ⟨us, hu, hd, hn⟩ := (read_eq_ok_iff hs).1 he
    rw [hu]
    exact .refused (Accepted.viable ⟨e, hd.parse_eq⟩) (hd.not_viable hn)

/-- Why a token is refused between others: no expression goes on with it, or it is the parenthesis
    of a call at the deepest level, with which only a closing one goes on. -/
def Refused (us : List Token) (t : Token) (vs : List Token) : Prop :=
  ¬ Viable (us ++ [t]) ∨ EndsInCappedCall (us ++ [t]) ∧ (∀ v ∈ vs.head?, v.lexeme ≠ .closing) ∧
    ∀ v, v.lexeme ≠ .closing → ¬ Viable (us ++ [t, v])

/-- Tokens that begin an expression are refused nowhere, unless they end with the parenthesis of a
    call at the deepest level. -/
theorem Refused.not_viable (h : Refused us t vs) (hc : ¬ EndsInCappedCall (us ++ t :: vs)) :
    ¬ Viable (us ++ t :: vs) := by
  intro hv
  rcases h with h | ⟨he, hn, h⟩
  · rw [List.append_cons] at hv
    exact h hv.of_append
  · cases vs with
    | nil => exact hc he
    | cons v vs =>
      have hv : Viable (us ++ [t, v] ++ vs) := by simpa using hv
      exact h v (hn v rfl) hv.of_append

theorem Diagnosis.unexpectedToken {w : String} {q : Int}
    (h : Diagnosis stop ts (.unexpectedToken w q)) : ∃ us t vs, ts = us ++ t :: vs ∧
      w = t.text ∧ q = t.spot ∧ Viable us ∧ Refused us t vs := by
  generalize he : Error.unexpectedToken w q = err at h
  cases h with
  | @refused us t vs hv hn =>
    cases he
    exact ⟨us, t, vs, rfl, rfl, rfl, hv, .inl hn⟩
  | @capped us f o vs x hd hf ho hc =>
    cases he
    have hec : EndsInCappedCall (us ++ [f] ++ [o]) := ⟨us, f, o, x, by simp, hd, hf, ho⟩
    refine ⟨us ++ [f], o, vs, by simp, rfl, rfl, ?_, .inr ⟨hec, hc, fun v hv => ?_⟩⟩
    · exact hd.viable_append (.negation (.name hf))
    · have := not_viable_of_endsInCappedCall hec hv
      simpa using this
  | ended | unclosed => cases he

theorem Diagnosis.unexpectedEnd {q : Int} (h : Diagnosis stop ts (.unexpectedEnd q)) :
    Viable ts ∧ NeedsOperand ts ∧ q = stop := by
  generalize he : Error.unexpectedEnd q = err at h
  cases h with
  | ended hd =>
    cases he
    exact ⟨hd.viable, hd.needsOperand, rfl⟩
  | refused | capped | unclosed => cases he

theorem Diagnosis.unmatchedParen {q : Int} (h : Diagnosis stop ts (.unmatchedParen q)) :
    Viable ts ∧ ¬ NeedsOperand ts ∧ ∃ o, (openings ts).head? = some o ∧ q = o.spot := by
  generalize hq : Error.unmatchedParen q = err at h
  cases h with
  | unclosed hv he ho =>
    cases hq
    exact ⟨hv, he.not_needsOperand, _, ho, rfl⟩
  | refused | capped | ended => cases hq

/-- Tokens that begin an expression end too early, whatever error they have. -/
theorem Diagnosis.of_viable (h : Diagnosis stop ts err) (hc : ¬ EndsInCappedCall ts)
    (hv : Viable ts) : (∃ q, err = .unexpectedEnd q) ∨ ∃ q, err = .unmatchedParen q := by
  have hr : ∀ w q, err ≠ .unexpectedToken w q := by
    rintro w q rfl
    obtain ⟨us, t, vs, rfl, -, -, -, hr⟩ := h.unexpectedToken
    exact hr.not_viable hc hv
  cases h with
  | refused | capped => exact absurd rfl (hr _ _)
  | ended => exact .inl ⟨_, rfl⟩
  | unclosed => exact .inr ⟨_, rfl⟩

theorem not_accepted_of_error (h : parse ts = .error err) : ¬ Accepted ts := by
  rintro ⟨e, he⟩
  rw [h] at he
  cases he

/-- Tokens that begin an expression without being one begin a longer one. -/
theorem Viable.exists_ne_nil (h : Viable ts) (ha : ¬ Accepted ts) :
    ∃ us, us ≠ [] ∧ Accepted (ts ++ us) := by
  obtain ⟨us, h⟩ := h
  refine ⟨us, ?_, h⟩
  rintro rfl
  rw [List.append_nil] at h
  exact ha h

/-- **Errors come as early as can be.**  A token is refused where the tokens before it begin an
    expression and no expression goes on with it, but for the parenthesis of a call at the deepest
    level, with which only a closing one goes on.  Tokens that do not end with such a parenthesis
    are found to end too early iff they begin a longer expression and are none: at their end if an
    operand has to follow, and else at the innermost parenthesis still open. -/
theorem parse_error_earliest (hs : ∀ t ∈ ts, t.IsSigned) :
    (∀ w q, parse ts = .error (.unexpectedToken w q) → ∃ us t vs, ts = us ++ t :: vs ∧
      w = t.text ∧ q = t.spot ∧ Viable us ∧ Refused us t vs) ∧
    (¬ EndsInCappedCall ts →
      (((∃ q, parse ts = .error (.unexpectedEnd q)) ∨ ∃ q, parse ts = .error (.unmatchedParen q)) ↔
        ¬ Accepted ts ∧ ∃ us, us ≠ [] ∧ Accepted (ts ++ us))) ∧
    (∀ q, parse ts = .error (.unexpectedEnd q) → NeedsOperand ts ∧ q = Token.endOf ts) ∧
    ∀ q, parse ts = .error (.unmatchedParen q) →
      ¬ NeedsOperand ts ∧ ∃ o, (openings ts).head? = some o ∧ q = o.spot := by
  refine ⟨fun w q h => (diagnosis_of_parse hs h).unexpectedToken, fun hc => ⟨?_, ?_⟩,
    fun q h => (diagnosis_of_parse hs h).unexpectedEnd.2,
    fun q h => (diagnosis_of_parse hs h).unmatchedParen.2⟩
  · rintro (⟨q, h⟩ | ⟨q, h⟩)
    · have ha := not_accepted_of_error h
      exact ⟨ha, (diagnosis_of_parse hs h).unexpectedEnd.1.exists_ne_nil ha⟩
    · have ha := not_accepted_of_error h
      exact ⟨ha, (diagnosis_of_parse hs h).unmatchedParen.1.exists_ne_nil ha⟩
  · rintro ⟨ha, us, -, hv⟩
    rcases h : parse ts with err | e
    · rcases (diagnosis_of_parse hs h).of_viable hc ⟨us, hv⟩ with ⟨q, rfl⟩ | ⟨q, rfl⟩
      · exact .inl ⟨q, rfl⟩
      · exact .inr ⟨q, rfl⟩
    · exact absurd ⟨e, h⟩ ha

/-- A parenthesis around a number that is never closed. -/
theorem parse_unclosed_two :
    let o : Token := ⟨"(", 0, .opening⟩
    let two : Token := ⟨"2", 1, .number (.int 2)⟩
    (∀ t ∈ [o, two], t.IsSigned) ∧ ¬ EndsInCappedCall [o, two] ∧
      parse [o, two] = .error (.unmatchedParen 0) := by
  intro o two
  have hs : ∀ t ∈ [o, two], t.IsSigned := by simp [o, two, Token.IsSigned]
  have hd : Due [o] .sum 1 :=
    .inside (.negation (.first (k := .product) (.first (k := .sum) .start))) rfl (by decide)
  have hv : Viable [o, two] := hd.viable_append (.ofPrimary (.number rfl))
  have ha : ¬ Accepted [o, two] := by
    rintro ⟨e, he⟩
    have := (derives_of_parse hs he).foldl_opens []
    cases this
  have hc : ¬ EndsInCappedCall [o, two] := by
    rintro ⟨us, f, o', x, h, -, -, ho⟩
    have hl : some two = some o' := by simpa using congrArg List.getLast? h
    cases hl
    cases ho
  refine ⟨hs, hc, ?_⟩
  rcases ((parse_error_earliest hs).2.1 hc).2 ⟨ha, hv.exists_ne_nil ha⟩ with ⟨q, h⟩ | ⟨q, h⟩
  · have := ((parse_error_earliest hs).2.2.1 q h).1 two rfl
    simp [two] at this
  · obtain ⟨-, o', ⟨⟩, rfl⟩ := (parse_error_earliest hs).2.2.2 q h
    exact h

end Reckon.Expr
