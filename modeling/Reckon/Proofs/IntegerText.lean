/-
  Integers are read as they are written.

  A run of digits is one token, whatever scripts the digits are of and however many zeros it
  begins with.  If they are not too many, it is the number that the digits are worth by their
  places.  The text of an integer is such a run, or a minus and such a run, and comes to the
  integer.

  * `placeValue`: what digits are worth by their places; `digitsValue_eq_placeValue`: this is what
    the scanner makes of them;
  * `scan_digits`: the token of a run of digits;
  * `lexes_intDigits`, `outcome_intText`: the tokens and the answer of the text of an integer;
  * `integers_read_as_written`: both together.
-/
import Mathlib.Data.List.TakeWhile
import Reckon.Proofs.Printing

namespace Reckon

open Text Decimal

variable {c : Char} {cs : List Char} {n : Int} {k : Nat} {s : Scope}

/-! ## Places -/

/-- The value of a digit by itself. -/
def digitOf (c : Char) : Nat := (digitValue? c).getD 0

/-- What digits are worth by their places: each counts ten times as much as if there were one digit
    less after it. -/
def placeValue : List Char → Nat
  | [] => 0
  | c :: cs => digitOf c * 10 ^ cs.length + placeValue cs

theorem digitValue?_of_isDigit (h : isDigit c = true) : digitValue? c = some (digitOf c) := by
  obtain ⟨v, hv⟩ := isDigit_iff.1 h
  unfold digitOf
  unfold CharClass.of at hv
  rcases hd : digitValue? c with _ | w
  · rw [hd] at hv
    split at hv
    · cases hv
    · dsimp only at hv
      split at hv
      · cases hv
      · split at hv <;> cases hv
  · rfl

theorem filterMap_digitValue? (h : ∀ c ∈ cs, isDigit c = true) :
    cs.filterMap digitValue? = cs.map digitOf := by
  induction cs with
  | nil => rfl
  | cons c cs ih =>
    obtain ⟨hc, hcs⟩ := List.forall_mem_cons.1 h
    rw [List.filterMap_cons, digitValue?_of_isDigit hc, ih hcs, List.map_cons]

/-- The first of several digits counts for as many powers of ten as there are others. -/
theorem ofDigits_cons (d : Nat) (ds : List Nat) :
    ofDigits (d :: ds) = d * 10 ^ ds.length + ofDigits ds := by
  induction ds using List.reverseRecOn with
  | nil => simp [ofDigits]
  | append_singleton ds e ih =>
    rw [← List.cons_append, ofDigits_append_singleton, ofDigits_append_singleton, ih,
      List.length_append, List.length_singleton, Nat.pow_succ']
    rw [Nat.mul_add, Nat.mul_left_comm, Nat.add_assoc]

/-- **Digits are worth what their places say.** -/
theorem digitsValue_eq_placeValue (h : ∀ c ∈ cs, isDigit c = true) :
    digitsValue cs = placeValue cs := by
  rw [digitsValue, filterMap_digitValue? h]
  clear h
  induction cs with
  | nil => rfl
  | cons c cs ih => rw [List.map_cons, ofDigits_cons, List.length_map, ih, placeValue]

/-! ## Runs of digits -/

/-- The token of a run of digits. -/
theorem read_digits (p : Nat) (h : ∀ d ∈ c :: cs, isDigit d = true) : Token.read p c cs =
    if (c :: cs).length ≤ digitLimit
    then .ok ⟨String.ofList (c :: cs), p, .number (.int (placeValue (c :: cs)))⟩
    else .error (.malformedNumber (String.ofList (c :: cs)) p) := by
  have hc : isDigit c = true := h c (List.mem_cons_self ..)
  unfold Token.read
  rw [if_pos hc, read?_whole (not_mem_dot h), digitsValue_eq_placeValue h]
  by_cases hlen : (c :: cs).length ≤ digitLimit
  · rw [if_pos hlen, if_pos hlen]
  · rw [if_neg hlen, if_neg hlen]

/-- **A run of digits is one number**, or too long to be one. -/
theorem scan_digits (hne : cs ≠ []) (h : ∀ c ∈ cs, isDigit c = true) :
    Token.scan (String.ofList cs) =
      if cs.length ≤ digitLimit
      then .ok [⟨String.ofList cs, 0, .number (.int (placeValue cs))⟩]
      else .error (.malformedNumber (String.ofList cs) 0) := by
  obtain ⟨c, cs, rfl⟩ := List.exists_cons_of_ne_nil hne
  obtain ⟨hc, hcs⟩ := List.forall_mem_cons.1 h
  have hgo : ∀ d ∈ cs, continuesToken c d = true := fun d hd =>
    continuesToken_of_isDigit hc (hcs d hd)
  have htw : cs.takeWhile (continuesToken c) = cs := List.takeWhile_eq_self_iff.2 hgo
  have hdw : cs.dropWhile (continuesToken c) = [] := List.dropWhile_eq_nil_iff.2 hgo
  rw [Token.scan, String.toList_ofList, scanFrom_token (isBlank_eq_false_of_isDigit hc), htw, hdw,
    read_digits 0 h, Token.scanFrom]
  split <;> rfl

/-! ## The text of an integer -/

theorem lexes_intDigits (h : (Number.int n).isWritable = true) : Lexes (intDigits n)
    (if n < 0 then [.operator "-", .number (.int n.natAbs)] else [.number (.int n.natAbs)]) := by
  have hk : Lexes (natDigits n.natAbs) [.number (.int n.natAbs)] := lexes_natDigits h
  unfold intDigits
  split
  · exact .sign (by simp [signs]) hk
  · exact hk

/-- Tokens that stand for an integer come to it. -/
theorem answer_of_lexemes {ts : List Token} (h : ts.map Token.lexeme =
      if n < 0 then [.operator "-", .number (.int n.natAbs)] else [.number (.int n.natAbs)]) :
    ∃ e, Expr.parse ts = .ok e ∧ ∀ s, e.answer s = .ok (.int n) := by
  split at h
  · rename_i hn
    obtain ⟨t, us, rfl, ht, h⟩ := List.map_eq_cons_iff.1 h
    obtain ⟨u, rfl, hu⟩ := List.map_eq_singleton_iff.1 h
    refine ⟨_, Expr.parse_eq_ok_iff_forms.2 (.sum (.product (.power (.opposite
      (Expr.negation?_of_minus ht) (by decide) (.negation (.number hu)))))), fun s => ?_⟩
    have hneg : -(n.natAbs : Int) = n := by omega
    rw [Expr.answer_unary, if_pos rfl, Expr.answer_literal, Except.map, Number.negate, hneg]
  · rename_i hn
    obtain ⟨t, rfl, ht⟩ := List.map_eq_singleton_iff.1 h
    have hpos : (n.natAbs : Int) = n := by omega
    refine ⟨_, Expr.parse_eq_ok_iff_forms.2 (.ofPrimary (.number ht)), fun s => ?_⟩
    rw [Expr.answer_literal, hpos]

/-- **The text of an integer** comes to it. -/
theorem outcome_intText (s : Scope) (h : (Number.int n).isWritable = true) :
    outcome s (intText n) = .ok (.int n) := by
  obtain ⟨ts, q, hs, hl⟩ := lexes_intDigits h
  obtain ⟨e, he, ha⟩ := answer_of_lexemes hl
  have hscan : Token.scan (intText n) = .ok ts := by
    rw [Token.scan, intText, String.toList_ofList]
    exact scanFrom_eq_ok.2 ⟨q, hs⟩
  rw [outcome_of_parseText (Expr.parseText_eq_ok.2 ⟨ts, hscan, he⟩)]
  exact ha s

/-- **Integers are read as they are written.**  An integer of at most `digitLimit` digits has a
    text, and the text comes to it.  A run of digits is one number token, worth what the digits are
    by their places, if there are no more than that; and else a malformed number. -/
theorem integers_read_as_written :
    (∀ n : Int, n.natAbs < 10 ^ digitLimit → ∃ text, (Number.int n).writeText = .ok text ∧
      evaluatePlain text = .ok (.int n) ∧ ∀ s, outcome s text = .ok (.int n)) ∧
    ∀ cs : List Char, cs ≠ [] → (∀ c ∈ cs, isDigit c = true) →
      Token.scan (String.ofList cs) =
        if cs.length ≤ digitLimit
        then .ok [⟨String.ofList cs, 0, .number (.int (placeValue cs))⟩]
        else .error (.malformedNumber (String.ofList cs) 0) := by
  refine ⟨fun n hn => ?_, fun cs hne h => scan_digits hne h⟩
  have hw : (Number.int n).isWritable = true := isWritable_int.2 hn
  refine ⟨intText n, ?_, outcome_intText .empty hw, fun s => outcome_intText s hw⟩
  rw [Number.writeText, if_pos hw]
  rfl

/-- A negative integer, a run of digits of three scripts that begins with a zero, and one with a
    digit too many. -/
theorem integers_read_as_written_mixed :
    let run := ['0', '٤', '२']
    let long := List.replicate 4301 '٧'
    ((-7 : Int).natAbs < 10 ^ digitLimit ∧ ∃ text, (Number.int (-7)).writeText = .ok text ∧
      evaluatePlain text = .ok (.int (-7))) ∧
    (run ≠ [] ∧ (∀ c ∈ run, isDigit c = true) ∧
      Token.scan (String.ofList run) = .ok [⟨String.ofList run, 0, .number (.int 42)⟩]) ∧
    long ≠ [] ∧ (∀ c ∈ long, isDigit c = true) ∧
      Token.scan (String.ofList long) = .error (.malformedNumber (String.ofList long) 0) := by
  intro run long
  have hn : (-7 : Int).natAbs < 10 ^ digitLimit := isWritable_int.1 (by decide +kernel)
  have hr : ∀ c ∈ run, isDigit c = true := List.all_eq_true.1 (by decide +kernel)
  have hv : placeValue run = 42 := by decide +kernel
  have hl : ∀ c ∈ long, isDigit c = true := by
    intro c hc
    rw [List.eq_of_mem_replicate hc]
    decide +kernel
  have hne : long ≠ [] := List.ne_nil_of_length_pos (by rw [List.length_replicate]; decide)
  have hlong : ¬ long.length ≤ digitLimit := by
    rw [List.length_replicate]
    decide
  obtain ⟨text, hw, he, -⟩ := integers_read_as_written.1 (-7) hn
  refine ⟨⟨hn, text, hw, he⟩, ⟨by simp [run], hr, ?_⟩, hne, hl, ?_⟩
  · have := integers_read_as_written.2 run (by simp [run]) hr
    rwa [if_pos (by decide), hv] at this
  · have := integers_read_as_written.2 long hne hl
    rwa [if_neg hlong] at this

end Reckon
