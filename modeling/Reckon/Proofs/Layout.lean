/-
  Layout does not matter.

  Blanks, leading zeros, the script of digits and the sign of a division are how a text is
  written.  What it comes to, and which functions are run for it, is a matter of what its tokens
  stand for.

  * `Failure.wordless`, `Failure.bare`: failures apart from the words of tokens, and apart from
    positions as well;
  * `SameResult`: two texts that come to the same, apart from what is forgotten of failures;
  * `sameResult_layout`: texts whose tokens stand for the same come to the same;
  * `slashed`: a text with the one sign of division for the other; `sameResult_slashed`: it
    comes to the same;
  * `layout_irrelevant`: both together.
-/
import Reckon.Proofs.Relabelling
import Reckon.Proofs.Telling

namespace Reckon

open Text

/-! ## Forgetting -/

/-- A failure apart from the text of the token that it is about. -/
def Failure.wordless : Failure → Failure
  | .error (.unexpectedToken _ p) => .error (.unexpectedToken "" p)
  | f => f

/-- A failure apart from its position and the text of the token that it is about. -/
def Failure.bare (f : Failure) : Failure := f.unplaced.wordless

/-- **Two texts come to the same**, apart from what is forgotten of failures: to the same number or
    the same failure, after the same runs of functions, with a report on any host or without. -/
structure SameResult (forget : Failure → Failure) (s : Scope) (text text' : String) : Prop where
  outcome : (outcome s text').mapError forget = (outcome s text).mapError forget
  runs : (evaluateText s text').outcome.2 = (evaluateText s text).outcome.2
  told : ∀ (r : Report) (host : Host), (r.evaluate s text' host).outcome.mapError forget =
    (r.evaluate s text host).outcome.mapError forget
  toldRuns : ∀ (r : Report) (host : Host),
    (r.evaluate s text' host).runs = (r.evaluate s text host).runs

/-- Two texts have the same tree, spots aside, or both have none. -/
def SameTree (text text' : String) : Prop :=
  (Expr.parseText text').toOption.map Expr.unspotted =
    (Expr.parseText text).toOption.map Expr.unspotted

section
variable {s : Scope} {text text' : String} {g : Failure → Failure}

theorem toOption_forget (g : Failure → Failure) (r : Except Error Expr) :
    (((Failure.ofError r).mapError g).map Expr.unspotted).toOption =
      r.toOption.map Expr.unspotted := by
  cases r <;> rfl

theorem sameTree_of_forget
    (h : ((Failure.ofError (Expr.parseText text')).mapError g).map Expr.unspotted =
      ((Failure.ofError (Expr.parseText text)).mapError g).map Expr.unspotted) :
    SameTree text text' := by
  rw [SameTree, ← toOption_forget g, h, toOption_forget]

/-- Trees that are the same, spots aside, need the same room. -/
theorem SameTree.lacksRoom (h : SameTree text text') (r : Report) (host : Host) :
    r.lacksRoom host text' = r.lacksRoom host text := by
  have hroom : ∀ w, r.lacksRoom host w = (r.verbose &&
      (((Expr.parseText w).toOption.map Expr.unspotted).map fun t => !host.hasRoom t).getD
        false) := by
    intro w
    rcases hw : Expr.parseText w with e | t
    · rw [Report.lacksRoom_of_error hw]
      exact (Bool.and_false _).symm
    · rw [Report.lacksRoom_of_ok hw, ← host.hasRoom_unspotted]
      rfl
  rw [hroom, hroom, h]

theorem evaluateText_eq (s : Scope) (text : String) : evaluateText s text =
    Evaluation.lift (Failure.ofError (Expr.parseText text)) >>= fun e => e.evaluate s := rfl

/-- Texts come to the same if their evaluations are the same calculation, on the same tree. -/
theorem sameResult_of_forget (h : (evaluateText s text').forget g = (evaluateText s text).forget g)
    (ht : SameTree text text') : SameResult g s text text' := by
  have ho := congrArg Evaluation.outcome h
  rw [Evaluation.outcome_forget, Evaluation.outcome_forget, Prod.mk.injEq] at ho
  obtain ⟨ho, hr⟩ := ho
  have hheard : ∀ (r : Report) (host : Host),
      (r.heard s host text').1.mapError g = (r.heard s host text).1.mapError g ∧
        (r.heard s host text').2 = (r.heard s host text).2 := by
    intro r host
    rw [Report.heard, Report.heard, ht.lacksRoom]
    split
    · exact ⟨rfl, rfl⟩
    · exact ⟨ho, hr⟩
  refine ⟨ho, hr, fun r host => ?_, fun r host => ?_⟩
  · rw [(Report.hears_evaluate r s text' host).outcome,
      (Report.hears_evaluate r s text host).outcome, mapError_bind, mapError_bind,
      (hheard r host).1]
  · rw [(Report.hears_evaluate r s text' host).runs, (Report.hears_evaluate r s text host).runs,
      (hheard r host).2]

end

/-! ## The same tokens -/

/-- A tree without spots comes to the same as with them. -/
theorem evaluate_unspotted_bare {s : Scope} (e : Expr) :
    (e.unspotted.evaluate s).forget Failure.bare = (e.evaluate s).forget Failure.bare := by
  have hb : ∀ c : Evaluation Number,
      c.forget Failure.bare = (c.forget Failure.unplaced).forget Failure.wordless := by
    intro c
    rw [Evaluation.forget_forget]
    rfl
  rw [hb, hb, Expr.evaluate_unspotted]

section
variable {text text' : String} {ts us : List Token}

theorem bare_error (e : Error) :
    (Failure.error (blinding.error e)).bare = (Failure.error e).bare := by
  cases e <;> rfl

/-- What the parser makes of tokens with the same lexemes is the same, apart from what `bare` and
    `unspotted` forget. -/
theorem parse_bare (h : Expr.SameLexemes us ts) :
    ((Failure.ofError (Expr.parse us)).mapError Failure.bare).map Expr.unspotted =
      ((Failure.ofError (Expr.parse ts)).mapError Failure.bare).map Expr.unspotted := by
  have hb : ∀ vs, ((Failure.ofError (Expr.parse vs)).mapError Failure.bare).map Expr.unspotted =
      (Failure.ofError (((Expr.parse vs).mapError blinding.error).map Expr.unspotted)).mapError
        Failure.bare := by
    intro vs
    rcases Expr.parse vs with e | t
    · exact congrArg Except.error (bare_error e).symm
    · rfl
  rw [hb, hb, Expr.parse_sameLexemes h]

/-- **Texts whose tokens stand for the same** come to the same. -/
theorem sameResult_layout (s : Scope) (hs : Token.scan text = .ok ts)
    (hs' : Token.scan text' = .ok us) (h : Expr.SameLexemes us ts) :
    SameResult Failure.bare s text text' := by
  have hparse : ∀ {w vs}, Token.scan w = .ok vs → Expr.parseText w = Expr.parse vs := by
    intro w vs hw
    unfold Expr.parseText
    rw [hw]
    rfl
  -- the trees can be stripped of their spots first, for what they come to is the same
  have hstrip : ∀ w, (evaluateText s w).forget Failure.bare = Evaluation.lift
      (((Failure.ofError (Expr.parseText w)).mapError Failure.bare).map Expr.unspotted) >>=
        fun e => (e.evaluate s).forget Failure.bare := by
    intro w
    rw [evaluateText_eq, Evaluation.forget_bind, Evaluation.forget_lift, Evaluation.lift_map_bind]
    simp only [evaluate_unspotted_bare]
  have ht : SameTree text text' := by
    apply sameTree_of_forget (g := Failure.bare)
    rw [hparse hs, hparse hs', parse_bare h]
  refine sameResult_of_forget ?_ ht
  rw [hstrip, hstrip, hparse hs, hparse hs', parse_bare h]

end

/-! ## The signs of division -/

/-- The one sign of division for the other. -/
def slash (c : Char) : Char := if c = '÷' then '/' else c

/-- A text with the one sign of division for the other. -/
def slashed (text : String) : String := String.ofList (text.toList.map slash)

/-- The change of texts to the one sign of division, with the spots as they are. -/
def slashing : Relabelling := ⟨slashed, id⟩

section
variable {c d : Char} {cs : List Char} {p : Nat}

theorem slash_of_ne (h : c ≠ '÷') : slash c = c := if_neg h

theorem slash_sign : slash '÷' = '/' := rfl

theorem slashed_ofList (cs : List Char) :
    slashed (String.ofList cs) = String.ofList (cs.map slash) := by
  rw [slashed, String.toList_ofList]

theorem length_slashed (w : String) : (slashed w).length = w.length := by
  rw [slashed, String.length_ofList, List.length_map, String.length_toList]

theorem continuesToken_slash_right (c d : Char) :
    continuesToken c (slash d) = continuesToken c d := by
  by_cases hd : d = '÷'
  · subst hd
    have hn : continuesNumeral '/' = continuesNumeral '÷' := by decide +kernel
    have hw : continuesWord '/' = continuesWord '÷' := by decide +kernel
    rw [slash_sign]
    unfold continuesToken
    rw [hn, hw]
  · rw [slash_of_ne hd]

theorem continuesToken_slash_left (c d : Char) :
    continuesToken (slash c) d = continuesToken c d := by
  by_cases hc : c = '÷'
  · subst hc
    have hd : isDigit '/' = isDigit '÷' := by decide +kernel
    have hw : beginsWord '/' = beginsWord '÷' := by decide +kernel
    rw [slash_sign]
    unfold continuesToken
    rw [hd, hw]
  · rw [slash_of_ne hc]

/-- No token goes on with a sign of division. -/
theorem slash_of_continuesToken (h : continuesToken c d = true) : slash d = d := by
  refine slash_of_ne ?_
  rintro rfl
  have hn : continuesNumeral '÷' = false := by decide +kernel
  have hw : continuesWord '÷' = false := by decide +kernel
  unfold continuesToken at h
  rw [hn, hw] at h
  simp at h

theorem map_slash_takeWhile (c : Char) (cs : List Char) :
    (cs.takeWhile (continuesToken c)).map slash = cs.takeWhile (continuesToken c) := by
  have h : ∀ d ∈ cs.takeWhile (continuesToken c), slash d = id d := fun d hd =>
    slash_of_continuesToken (List.all_eq_true.1 List.all_takeWhile d hd)
  rw [List.map_congr_left h, List.map_id]

theorem isBlank_slash (c : Char) : isBlank (slash c) = isBlank c := by
  by_cases hc : c = '÷'
  · subst hc
    decide +kernel
  · rw [slash_of_ne hc]

/-- A token after the change of the text is the token before with its text changed. -/
theorem read_slash (p : Nat) (c : Char) (cs : List Char) :
    Token.read p (slash c) (cs.takeWhile (continuesToken c)) =
      (Token.read p c (cs.takeWhile (continuesToken c))).map slashing.token := by
  by_cases hc : c = '÷'
  · subst hc
    have hd : isDigit '÷' = false := by decide +kernel
    have hw : beginsWord '÷' = false := by decide +kernel
    have hd' : isDigit '/' = false := by decide +kernel
    have hw' : beginsWord '/' = false := by decide +kernel
    have hs : Lexeme.sign? '÷' = some (.operator "/") := by decide +kernel
    have hs' : Lexeme.sign? '/' = some (.operator "/") := by decide +kernel
    rw [slash_sign, takeWhile_of_sign hd hw]
    simp only [Token.read, hd, hw, hd', hw', hs, hs', Bool.false_eq_true, if_false, Except.map,
      slashing, Relabelling.token, slashed_ofList]
    rfl
  · rw [slash_of_ne hc]
    rcases hr : Token.read p c (cs.takeWhile (continuesToken c)) with e | t
    · rfl
    · have hs : slashed t.text = t.text := by
        rw [(read_eq_ok hr).1, slashed_ofList, List.map_cons, slash_of_ne hc, map_slash_takeWhile]
      have htok : slashing.token t = t := by
        show (⟨slashed t.text, t.spot, t.lexeme⟩ : Token) = t
        rw [hs]
      exact congrArg Except.ok htok.symm

/-- **The scanner** after the change of a text finds the tokens before with their texts changed. -/
theorem scanFrom_slash (p : Nat) : ∀ cs : List Char,
    Token.scanFrom p (cs.map slash) = (Token.scanFrom p cs).map (List.map slashing.token)
  | [] => by
    rw [List.map_nil, Token.scanFrom]
    rfl
  | c :: cs => by
    cases hb : isBlank c with
    | true =>
      rw [List.map_cons, scanFrom_blank hb, scanFrom_blank ((isBlank_slash c).trans hb),
        scanFrom_slash (p + 1) cs]
    | false =>
      have hp : continuesToken (slash c) ∘ slash = continuesToken c := by
        funext d
        rw [Function.comp, continuesToken_slash_right, continuesToken_slash_left]
      have hlen := (List.dropWhile_suffix (continuesToken c) (l := cs)).length_le
      have ih := scanFrom_slash (p + 1 + (cs.takeWhile (continuesToken c)).length)
        (cs.dropWhile (continuesToken c))
      rw [List.map_cons, scanFrom_token hb, scanFrom_token ((isBlank_slash c).trans hb),
        List.takeWhile_map, List.dropWhile_map, hp, map_slash_takeWhile, read_slash, ih]
      rcases Token.read p c (cs.takeWhile (continuesToken c)) with e | t
      · rfl
      · rcases Token.scanFrom (p + 1 + (cs.takeWhile (continuesToken c)).length)
          (cs.dropWhile (continuesToken c)) with e | ts <;> rfl
termination_by cs => cs.length
decreasing_by all_goals simp only [List.length_cons]; omega

end

section
variable {s : Scope}

mutual

theorem tree_slashing : ∀ e : Expr, slashing.tree e = e
  | .literal n p => by rw [Relabelling.tree]; rfl
  | .var x p => by rw [Relabelling.tree]; rfl
  | .unary op e p => by rw [Relabelling.tree, tree_slashing e]; rfl
  | .binary op l r p => by rw [Relabelling.tree, tree_slashing l, tree_slashing r]; rfl
  | .call f args p => by rw [Relabelling.tree, trees_slashing args]; rfl

theorem trees_slashing : ∀ es : List Expr, slashing.trees es = es
  | [] => rfl
  | e :: es => by rw [Relabelling.trees, tree_slashing e, trees_slashing es]

end

theorem wordless_error (e : Error) :
    (Failure.error (slashing.error e)).wordless = (Failure.error e).wordless := by
  cases e <;> rfl

/-- What the parser makes of a text is the same, apart from the words of tokens. -/
theorem parseText_slashed (text : String) :
    (Failure.ofError (Expr.parseText (slashed text))).mapError Failure.wordless =
      (Failure.ofError (Expr.parseText text)).mapError Failure.wordless := by
  have hscan : Token.scan (slashed text) = (Token.scan text).map (List.map slashing.token) := by
    unfold Token.scan
    rw [slashed, String.toList_ofList, scanFrom_slash]
  unfold Expr.parseText
  rw [hscan]
  rcases Token.scan text with e | ts
  · rfl
  · have hend : Token.endOf (ts.map slashing.token) = slashing.spot (Token.endOf ts) := by
      rw [endOf_map, Token.endOf]
      cases ts.getLast? with
      | none => rfl
      | some t => exact congrArg (fun n : Nat => t.spot + n) (length_slashed t.text)
    show (Failure.ofError (Expr.parse (ts.map slashing.token))).mapError Failure.wordless =
      (Failure.ofError (Expr.parse ts)).mapError Failure.wordless
    rw [Expr.parse_relabel hend]
    rcases Expr.parse ts with e | t
    · exact congrArg Except.error (wordless_error e)
    · exact congrArg Except.ok (tree_slashing t)

/-- **A text with the one sign of division for the other** comes to the same. -/
theorem sameResult_slashed (s : Scope) (text : String) :
    SameResult Failure.wordless s text (slashed text) := by
  have hparse := parseText_slashed text
  refine sameResult_of_forget ?_ (sameTree_of_forget (congrArg (Except.map Expr.unspotted) hparse))
  rw [evaluateText_eq, evaluateText_eq, Evaluation.forget_bind, Evaluation.forget_bind,
    Evaluation.forget_lift, Evaluation.forget_lift, hparse]

/-! ## Layout -/

/-- **Layout does not matter.**  In every scope, texts whose tokens stand for the same, position by
    position, come to the same number, or to failures that differ in positions and in the text of
    the token complained of at most, after the same runs of functions.  With the one sign of
    division for the other, a text comes to the same, positions and all, but for such a token. -/
theorem layout_irrelevant (s : Scope) :
    (∀ text text' ts us, Token.scan text = .ok ts → Token.scan text' = .ok us →
      Expr.SameLexemes us ts → SameResult Failure.bare s text text') ∧
    ∀ text, SameResult Failure.wordless s text (slashed text) :=
  ⟨fun _ _ _ _ hs hs' h => sameResult_layout s hs hs' h, sameResult_slashed s⟩

/-- A quotient of a call, written in two ways; the divisor is zero. -/
theorem layout_irrelevant_quotient :
    let f : Callable := .given fun _ => .ok (.number (.int 5))
    let s := Scope.of none (some ⟨[("f", f)]⟩)
    let ts : List Token := [⟨"f", 0, .name "f"⟩, ⟨"(", 1, .opening⟩, ⟨"1", 2, .number (.int 1)⟩,
      ⟨")", 3, .closing⟩, ⟨"÷", 5, .operator "/"⟩, ⟨"0", 7, .number (.int 0)⟩]
    let us : List Token := [⟨"f", 1, .name "f"⟩, ⟨"(", 3, .opening⟩, ⟨"01", 4, .number (.int 1)⟩,
      ⟨")", 6, .closing⟩, ⟨"/", 7, .operator "/"⟩, ⟨"٠", 8, .number (.int 0)⟩]
    (Token.scan "f(1) ÷ 0" = .ok ts ∧ Token.scan " f (01)/٠" = .ok us ∧ Expr.SameLexemes us ts ∧
      SameResult Failure.bare s "f(1) ÷ 0" " f (01)/٠") ∧
    outcome s "f(1) ÷ 0" = .error (.error (.divisionByZero "/" (some 5))) ∧
    (evaluateText s " f (01)/٠").outcome =
      (.error (.error (.divisionByZero "/" (some 7))), #[⟨"f", [.int 1]⟩]) := by
  intro f s ts us
  have hs : Token.scan "f(1) ÷ 0" = .ok ts := by decide +kernel
  have hs' : Token.scan " f (01)/٠" = .ok us := by decide +kernel
  have h : Expr.SameLexemes us ts := by
    unfold Expr.SameLexemes
    decide +kernel
  refine ⟨⟨hs, hs', h, (layout_irrelevant s).1 _ _ _ _ hs hs' h⟩, ?_, ?_⟩
  · decide +kernel
  · decide +kernel

end

end Reckon
