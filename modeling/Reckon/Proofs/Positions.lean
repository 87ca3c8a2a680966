/-
  Positions of errors.

  * `lines_of_stands`: a word without breaks stands on one line of a text;
  * `Error.PointsInto`: the position of an error is that of the culprit, which is within the text
    (`Error.PointsInto.isWithin`);
  * `error_pointsInto`: so it is for every error of a text.
-/
import Reckon.Proofs.Diagnosis
import Reckon.Proofs.Failures
import Reckon.Proofs.Scanning
import Reckon.Solve

namespace Reckon

open Text

section
variable {text before after w cs : List Char} {c : Char} {p : Int}

/-! ## Lines -/

/-- A line break, or one of the two characters of one. -/
def isBreak (c : Char) : Prop := c = '\r' ∨ c = '\n'

theorem not_isBreak (hc : isBlank c = false) : ¬ isBreak c := by
  rintro (rfl | rfl)
  · exact absurd hc (by decide +kernel)
  · exact absurd hc (by decide +kernel)

theorem lines_ne_nil (cs : List Char) : lines cs ≠ [] := by
  fun_induction lines cs <;> simp

theorem lines_cons (cs : List Char) (hc : ¬ isBreak c) :
    ∃ line more, lines cs = line :: more ∧ lines (c :: cs) = (c :: line) :: more := by
  obtain ⟨line, more, hl⟩ := List.exists_cons_of_ne_nil (lines_ne_nil cs)
  refine ⟨line, more, hl, ?_⟩
  obtain ⟨hr, hn⟩ := not_or.1 hc
  simp [lines, hr, hn, hl]

theorem lines_break (hc : isBreak c) (hn : c = '\r' → cs.head? ≠ some '\n') :
    lines (c :: cs) = [c] :: lines cs := by
  rcases hc with rfl | rfl
  · cases cs with
    | nil => simp [lines]
    | cons d cs =>
      have hd : d ≠ '\n' := by simpa using hn rfl
      simp [lines, hd]
  · simp [lines]

/-- A word without breaks begins the first line. -/
theorem lines_append (after : List Char) (hw : ∀ c ∈ w, ¬ isBreak c) :
    ∃ post more, lines (w ++ after) = (w ++ post) :: more := by
  induction w with
  | nil => exact List.exists_cons_of_ne_nil (lines_ne_nil after)
  | cons c w ih =>
    obtain ⟨hc, hw⟩ := List.forall_mem_cons.1 hw
    obtain ⟨post, more, h⟩ := ih hw
    obtain ⟨line, more', hl, hc⟩ := lines_cons (w ++ after) hc
    rw [h] at hl
    cases hl
    exact ⟨post, more, hc⟩

/-- Lines of which one holds a word, after the characters before it. -/
def HoldsAfter (ls : List (List Char)) (before w : List Char) : Prop :=
  ∃ above pre post below, ls = above ++ (pre ++ (w ++ post)) :: below ∧
    before = above.flatten ++ pre

theorem HoldsAfter.cons {line : List Char} {ls : List (List Char)}
    (h : HoldsAfter ls before w) : HoldsAfter (line :: ls) (line ++ before) w := by
  obtain ⟨above, pre, post, below, rfl, rfl⟩ := h
  exact ⟨line :: above, pre, post, below, rfl, by simp⟩

theorem HoldsAfter.cons_head {line : List Char} {ls : List (List Char)}
    (h : HoldsAfter (line :: ls) before w) : HoldsAfter ((c :: line) :: ls) (c :: before) w := by
  obtain ⟨above, pre, post, below, hl, rfl⟩ := h
  cases above with
  | nil =>
    cases hl
    exact ⟨[], c :: pre, post, ls, rfl, rfl⟩
  | cons a above =>
    obtain ⟨rfl, rfl⟩ := List.cons.inj hl
    exact ⟨(c :: line) :: above, pre, post, below, rfl, rfl⟩

/-- **A word without breaks stands on one line.** -/
theorem lines_hold (before after : List Char) (hne : w ≠ []) (hw : ∀ c ∈ w, ¬ isBreak c) :
    HoldsAfter (lines (before ++ (w ++ after))) before w := by
  fun_induction lines before with
  | case1 =>
    obtain ⟨post, more, h⟩ := lines_append after hw
    exact ⟨[], [], post, more, h, rfl⟩
  | case2 before ih =>
    simp only [List.cons_append, lines]
    exact ih.cons
  | case3 c before hnn hc ih =>
    rw [List.cons_append, lines_break hc ?_]
    · exact ih.cons
    · intro hr hn
      cases before with
      | nil =>
        obtain ⟨d, w, rfl⟩ := List.exists_cons_of_ne_nil hne
        exact (List.forall_mem_cons.1 hw).1 (.inr (by simpa using hn))
      | cons d before => exact hnn before hr (by simpa using hn)
  | case4 c before hnn hc hl ih => exact absurd hl (lines_ne_nil before)
  | case5 c before hnn hc line more hl ih =>
    obtain ⟨line, more, hl, hc⟩ := lines_cons (before ++ (w ++ after)) hc
    rw [hl] at ih
    rw [List.cons_append, hc]
    exact ih.cons_head

end

/-! ## Culprits -/

/-- A word without blanks stands in a text with so many characters before it, within one line. -/
structure WordAt (text : List Char) (w : String) (p : Int) : Prop where
  stands : Stands text w p
  solid : ∀ c ∈ w.toList, isBlank c = false
  line : ∃ above pre post below, lines text = above ++ (pre ++ (w.toList ++ post)) :: below ∧
    p = (above.flatten ++ pre).length

/-- The position of an error, if it has one, is that of the culprit in the text. -/
def Error.PointsInto (text : List Char) : Error → Prop
  | unexpectedCharacter w p => (∃ c, w = String.singleton c) ∧ WordAt text w p
  | malformedNumber w p | unexpectedToken w p => WordAt text w p
  | unmatchedParen p => Stands text "(" p
  | unexpectedEnd p => EndsAt text p ∧ (p = 0 ↔ ∀ c ∈ text, isBlank c = true)
  | divisionByZero op q => ∃ p, q = some p ∧
      (op = "/" ∧ (Stands text "/" p ∨ Stands text "÷" p) ∨ op = "%" ∧ Stands text "%" p)
  | undefinedVariable _ | undefinedFunction _ | argCount .. | domainError .. | typeMismatch .. =>
    True

/-- If a failure is an error, then it points at the culprit. -/
def Failure.PointsInto (text : List Char) (f : Failure) : Prop :=
  ∀ e, f = .error e → e.PointsInto text

section
variable {text : List Char} {w : String} {p : Int} {t : Token} {ts : List Token} {e : Error}

theorem Stands.wordAt (h : Stands text w p) (hne : w.toList ≠ [])
    (hw : ∀ c ∈ w.toList, isBlank c = false) : WordAt text w p := by
  refine ⟨h, hw, ?_⟩
  obtain ⟨before, after, rfl, rfl⟩ := h
  obtain ⟨above, pre, post, below, hl, hb⟩ :=
    lines_hold before after hne fun c hc => not_isBreak (hw c hc)
  exact ⟨above, pre, post, below, hl, by rw [← hb]⟩

theorem Token.Fits.wordAt (h : t.Fits text) : WordAt text t.text t.spot :=
  h.stands.wordAt h.ne_nil h.solid

theorem Token.Fits.isSigned (h : t.Fits text) : t.IsSigned := fun g hg => (h.operator g hg).1

theorem Stands.bounds (h : Stands text w p) : 0 ≤ p ∧ p ≤ text.length := by
  obtain ⟨before, after, rfl, rfl⟩ := h
  simp only [List.length_append]
  omega

theorem EndsAt.bounds (h : EndsAt text p) : 0 ≤ p ∧ p ≤ text.length := by
  obtain ⟨before, blanks, rfl, rfl, -, -⟩ := h
  simp only [List.length_append]
  omega

/-- Culprits are within the text. -/
theorem Error.PointsInto.isWithin {s : String} (h : e.PointsInto s.toList) : e.IsWithin s := by
  have hlen : s.length = s.toList.length := String.length_toList.symm
  rintro p hp
  rw [Text.Pointer.IsWithin, hlen]
  cases e with
  | unexpectedCharacter char q =>
    cases hp
    exact h.2.stands.bounds
  | malformedNumber lexeme q | unexpectedToken token q =>
    cases hp
    exact h.stands.bounds
  | unmatchedParen q =>
    cases hp
    exact Stands.bounds h
  | unexpectedEnd q =>
    cases hp
    exact h.1.bounds
  | divisionByZero op q =>
    obtain ⟨q, rfl, ⟨-, hq | hq⟩ | ⟨-, hq⟩⟩ := h
    all_goals
      cases hp
      exact hq.bounds
  | undefinedVariable name | undefinedFunction name | argCount name expected actual
  | domainError name reason | typeMismatch expected actual => cases hp

/-! ## Texts that are no expression -/

/-- What the scanner finds fault with stands where it says. -/
theorem scan_pointsInto {s : String} (h : Token.scan s = .error e) : e.PointsInto s.toList := by
  rcases scanFrom_cases 0 s.toList with ⟨ts, q, hk, -⟩ | ⟨ts, q, c, rest, e', hk, hs, hc, hr⟩
  · rw [Token.scan, hk] at h
    cases h
  · rw [Token.scan, hk] at h
    cases h
    obtain ⟨mid, hm, rfl⟩ := hs.exists_append
    rw [hm]
    rcases read_eq_error hr with rfl | rfl
    · refine (stands_read (by omega)).wordAt (by simp) ?_
      rw [String.toList_ofList]
      exact isBlank_of_mem_token hc
    · have hw : (String.singleton c).toList = [c] := by simp
      refine ⟨⟨c, rfl⟩, Stands.wordAt ⟨mid, rest, by rw [hw]; rfl, by simp⟩ (by simp [hw]) ?_⟩
      rw [hw]
      rintro d (_ | ⟨_, ⟨⟩⟩)
      exact hc

/-- The tokens of a text stand where they say, and after the last there are only blanks. -/
theorem fits_of_scan {s : String} (h : Token.scan s = .ok ts) :
    (∀ t ∈ ts, t.Fits s.toList) ∧ EndsAt s.toList (Token.endOf ts) := by
  obtain ⟨q, hs⟩ := scanFrom_eq_ok.1 h
  exact ⟨hs.fits [] rfl, hs.endsAt⟩

namespace Expr

/-- What the parser finds fault with stands where it says. -/
theorem parse_pointsInto (hf : ∀ t ∈ ts, t.Fits text) (he : EndsAt text (Token.endOf ts))
    (h : parse ts = .error e) : e.PointsInto text := by
  have hd := diagnosis_of_parse (fun t ht => (hf t ht).isSigned) h
  cases hd with
  | refused => exact (hf _ (by simp)).wordAt
  | capped => exact (hf _ (by simp)).wordAt
  | ended => exact ⟨he, he.eq_zero_iff⟩
  | @unclosed _ o _ _ ho =>
    rcases mem_of_mem_foldl_opens (List.mem_of_head? ho) with ho | ⟨hm, hl⟩
    · cases ho
    · have hf := hf o hm
      show Stands text "(" o.spot
      rw [← hf.opening hl]
      exact hf.stands

theorem parseText_pointsInto {s : String} (h : parseText s = .error e) :
    e.PointsInto s.toList := by
  unfold parseText at h
  rcases bind_eq_error.1 h with h | ⟨ts, hs, h⟩
  · exact scan_pointsInto h
  · obtain ⟨hf, he⟩ := fits_of_scan hs
    exact parse_pointsInto hf he h

/-! ## Expressions without a value -/

/-- The operators of a text's tree stand where they say, so that a zero divisor points at one. -/
theorem operators_pointInto {s : String} {x : Expr} (h : parseText s = .ok x) :
    OperatorsFailOnly (Failure.PointsInto s.toList) (inOrder x) := by
  unfold parseText at h
  obtain ⟨ts, hs, h⟩ := bind_eq_ok.1 h
  obtain ⟨hf, -⟩ := fits_of_scan hs
  intro op p hm a b f ha
  rw [inOrder_of_parse h] at hm
  obtain ⟨-, t, ht, hl, rfl⟩ := mem_nodeTokens.1 hm
  have hf := hf t ht
  have hst := hf.stands
  rcases applyOperator_eq_error ha with rfl | ⟨reason, rfl⟩ | ⟨hz, rfl⟩
  · rintro e ⟨⟩
  · rintro e ⟨⟩
    trivial
  · rintro e ⟨⟩
    refine ⟨t.spot, rfl, ?_⟩
    rcases hz with rfl | rfl
    · refine .inl ⟨rfl, ?_⟩
      rcases (hf.operator _ hl).2 with hw | ⟨-, hw⟩
      · exact .inl (hw ▸ hst)
      · exact .inr (hw ▸ hst)
    · refine .inr ⟨rfl, ?_⟩
      rcases (hf.operator _ hl).2 with hw | ⟨hn, -⟩
      · exact hw ▸ hst
      · exact absurd hn (by decide)

end Expr

theorem exists_of_find?_standard {x : String} {g : Callable}
    (h : Functions.standard.find? x = some g) : ∃ f, g = .standard f := by
  obtain ⟨above, below, h, -⟩ := List.lookup_eq_some_iff.1 h
  have hm : (x, g) ∈ Functions.standard.entries := by simp [h]
  obtain ⟨f, -, hf⟩ := List.mem_map.1 hm
  exact ⟨f, (Prod.mk.inj hf).2.symm⟩

/-- Without functions, and with no others than the standard ones, only these are called. -/
theorem exists_standard {definitions : Option (Registry PlainValue)} {functions : Option Functions}
    (hf : functions = none ∨ functions = some .empty ∨ functions = some .standard) {x : String}
    {g : Callable} (h : (Scope.of definitions functions).callable x = .ok g) :
    ∃ f, g = .standard f := by
  have hg := callable_eq_ok.1 h
  rcases hf with rfl | rfl | rfl
  · cases hg
  · cases hg
  · exact exists_of_find?_standard hg

/-- The errors of a standard function have no position. -/
theorem standard_pointsInto {f : StandardFunction} {args : List Number}
    (h : f.run args = .error e) : e.PointsInto text := by
  unfold StandardFunction.run at h
  split at h
  · cases h
    trivial
  · cases h
    trivial
  · split at h
    · cases h
    · cases h
      trivial

/-- In a scope without functions or with the standard ones, only operators fail at a position. -/
theorem scope_pointsInto (definitions : Option (Registry PlainValue)) {functions : Option Functions}
    (hf : functions = none ∨ functions = some Functions.standard) :
    (Scope.of definitions functions).FailsOnly (Failure.PointsInto text) := by
  constructor
  · intro x f h
    rcases value_eq_error.1 h with ⟨-, rfl⟩ | ⟨v, -, -, rfl⟩
    · rintro e ⟨⟩
      trivial
    · rintro e ⟨⟩
  · intro x f h
    obtain ⟨-, rfl⟩ := callable_eq_error.1 h
    rintro e ⟨⟩
    trivial
  · intro x g args f hg h
    obtain ⟨k, rfl⟩ := exists_standard (hf.imp_right Or.inr) hg
    rcases run_eq_error.1 h with ⟨k', e', ⟨⟩, hr, rfl⟩ | ⟨k', ⟨⟩, -⟩
    rintro e ⟨⟩
    exact standard_pointsInto hr

theorem failure_pointsInto (definitions : Option (Registry PlainValue))
    {functions : Option Functions}
    (hf : functions = none ∨ functions = some Functions.standard) {s : String} {f : Failure}
    (h : outcome (Scope.of definitions functions) s = .error f) : f.PointsInto s.toList := by
  unfold outcome evaluateText at h
  rcases hp : Expr.parseText s with e' | x
  · rw [hp] at h
    cases h
    rintro e ⟨⟩
    exact Expr.parseText_pointsInto hp
  · rw [hp] at h
    have hx := Expr.evaluate_failsOnly (scope_pointsInto definitions hf) (fun g e => by rintro ⟨⟩)
      (Expr.operators_pointInto hp)
    exact hx _ _ h

/-- **Every error of a text points at the culprit**, whatever variables are defined, without
    functions and with the standard ones. -/
theorem error_pointsInto (definitions : Option (Registry PlainValue)) {functions : Option Functions}
    (hf : functions = none ∨ functions = some Functions.standard) {s : String}
    (h : outcome (Scope.of definitions functions) s = .error (.error e)) :
    e.PointsInto s.toList := failure_pointsInto definitions hf h e rfl

/-- A division by zero with the other sign. -/
theorem error_pointsInto_quotient :
    let e : Error := .divisionByZero "/" (some 2)
    outcome (Scope.of none none) "1 ÷ 0" = .error (.error e) ∧ e.PointsInto "1 ÷ 0".toList := by
  intro e
  have h : outcome (Scope.of none none) "1 ÷ 0" = .error (.error e) := by
    have hk : (match outcome (Scope.of none none) "1 ÷ 0" with
      | .error f => some f
      | .ok _ => none) = some (.error e) := by decide +kernel
    split at hk
    · rename_i ho
      cases hk
      exact ho
    · cases hk
  exact ⟨h, error_pointsInto none (.inl rfl) h⟩

end

end Reckon
