/-
  How runs of the calculator end.

  A text is answered, and then its answer is printed; or it is wrong, and then the error is shown.
  The definitions of the command line are numbers and the functions standard, so that a text comes
  to nothing else, and an error has its spot within the text, so that it can be shown.  Not every
  answer can be printed: an integer may have too many digits, or no float near to it where a float
  is asked for.  And a verbose run tells of the tree before, for which there may be no room.
  Nothing catches that, and the run ends there.

  * `Precision.IsShort`: no rounding, or to a number of places of at most three digits;
  * `Options.Balks`: the answers that are not printed, and the fault that each comes to;
  * `Calculator.BalksAt`: the texts at which a run fails, and the failure;
  * `Calculator.Ends`: the run for one text, by what the text comes to;
  * `ends_answerOne`: every run for one text ends like that;
  * `ending_answerLines`: the end of a session is that of its lines in turn;
  * `carryOut_ends`: the end of every run.
-/
import Reckon.Proofs.Positions
import Reckon.Proofs.Sessions
import Reckon.Proofs.Widening

namespace Reckon.CommandLine

open Binary64 (overflowFrom)

/-- No rounding, or rounding to a number of places that has at most three digits. -/
def Precision.IsShort : Precision → Prop
  | .full => True
  | .places n => n.natAbs < 1000
  | .unstated => False

/-- The answers that are not printed, and why: an integer of too many digits, whether it shall be
    printed as it is or as a float, and one that no float is near to, if it shall be a float. -/
inductive Options.Balks (o : Options) : Number → Fault → Prop
  | digits {n : Int} : (Number.int n).isWritable = false → Balks o (.int n) .tooManyDigits
  | size {n : Int} : (Number.int n).isWritable = true → o.float = true → overflowFrom ≤ n.natAbs →
      Balks o (.int n) .integerTooLarge

namespace Calculator

variable {c : Calculator} {o : Options} {text : String} {n : Number} {e : Error} {f : Failure}

/-- The report of a run, as every text finds it. -/
def report (c : Calculator) : Report := Report.new c.options.verbose

/-- A verbose run has no room to write the tree of a text. -/
def LacksRoom (c : Calculator) (text : String) : Prop := c.report.lacksRoom c.host text = true

/-- **A run fails at a text**: there is no room to tell of its tree or, the tree told, it has an
    answer that is not printed. -/
inductive BalksAt (c : Calculator) (text : String) : Failure → Prop
  | tree : c.LacksRoom text → BalksAt c text .outOfRoom
  | answer {n : Number} {f : Fault} : ¬ c.LacksRoom text → outcome c.scope text = .ok n →
      c.options.Balks n f → BalksAt c text (.fault f)

/-- The run for one text, of which `told` is written before: the answer is printed, the error of the
    expression is shown, or the run fails at the text. -/
inductive Ends (c : Calculator) (text told : String) : Transcript → Prop
  | printed {n : Number} {line : String} : (∀ f, ¬ c.BalksAt text f) →
      outcome c.scope text = .ok n → render c.options n = .ok line →
      Ends c text told ⟨⟨line ++ "\n", told⟩, .status 0⟩
  | shown {e : Error} {shown : String} : (∀ f, ¬ c.BalksAt text f) →
      outcome c.scope text = .error (.error e) → c.host.illustrate e text = .ok shown →
      Ends c text told ⟨⟨"", told ++ ((if c.options.verbose then c.grumble.text ++ "\n" else "") ++
        (shown ++ "\n"))⟩, .status 1⟩
  | failed {f : Failure} : c.BalksAt text f → Ends c text told ⟨⟨"", told⟩, .failure f⟩

/-! ## Printing -/

theorem round_eq_ok {p : Precision} (hp : p.IsShort) (x : Float) : ∃ y, round p x = .ok y := by
  cases p with
  | full => exact ⟨x, rfl⟩
  | unstated => exact hp.elim
  | places k =>
    have hk : k.natAbs < overflowFrom :=
      Nat.lt_trans (show k.natAbs < 1000 from hp) (by decide +kernel)
    obtain ⟨y, hy⟩ := Number.roundTo_eq_ok hk x
    refine ⟨y, ?_⟩
    rw [round, hy]
    rfl

/-- **What can be written is printed**, but for an integer that shall be a float and has none. -/
theorem render_cases (hp : o.precision.IsShort) (hw : n.isWritable = true) :
    ((∀ f, ¬ o.Balks n f) ∧ ∃ line, render o n = .ok line) ∨
      o.Balks n .integerTooLarge ∧ render o n = .error (.fault .integerTooLarge) := by
  have hprint : ∀ x : Float, ∃ line, (do return Binary64.text (← round o.precision x) :
      Except Failure String) = .ok line := by
    intro x
    obtain ⟨y, hy⟩ := round_eq_ok hp x
    rw [hy]
    exact ⟨_, rfl⟩
  cases n with
  | float x =>
    refine .inl ⟨by rintro f ⟨⟩, ?_⟩
    unfold render
    simp only [Number.isInteger, Bool.not_false, Bool.or_true, if_true]
    exact hprint x
  | int i =>
    by_cases hf : o.float = true
    · by_cases hi : i.natAbs < overflowFrom
      · refine .inl ⟨?_, ?_⟩
        · rintro f (hd | ⟨-, -, hs⟩)
          · rw [hw] at hd
            cases hd
          · omega
        · unfold render
          rw [hf, Number.toFloat_int, if_pos hi]
          exact hprint _
      · refine .inr ⟨.size hw hf (by omega), ?_⟩
        unfold render
        rw [hf, Number.toFloat_int, if_neg hi]
        rfl
    · refine .inl ⟨?_, (Number.int i).text, ?_⟩
      · rintro f (hd | ⟨-, hf', -⟩)
        · rw [hw] at hd
          cases hd
        · exact hf hf'
      · unfold render
        simp [hf, Number.isInteger, Number.writeText, hw, Failure.ofFault, Except.mapError]

/-! ## Attempts -/

/-- The definitions are numbers and the functions standard. -/
theorem number_or_error (c : Calculator) (text : String) :
    (∃ n, outcome c.scope text = .ok n) ∨ ∃ e, outcome c.scope text = .error (.error e) := by
  have hf : some Functions.standard = none ∨ some Functions.standard = some .empty ∨
      some Functions.standard = some .standard := .inr (.inr rfl)
  obtain h | ⟨e, h, -⟩ := outcome_of_numbers (some c.definitions) hf text
  · exact .inl h
  · exact .inr ⟨e, h⟩

/-- The error of a text can be shown. -/
theorem exists_illustrate (ho : outcome c.scope text = .error (.error e)) :
    ∃ shown, c.host.illustrate e text = .ok shown := by
  have hp : e.PointsInto text.toList :=
    failure_pointsInto (some c.definitions.plain) (.inr rfl) ho e rfl
  exact c.host.exists_illustrate hp.isWithin

/-- What a text is told to come to, if there is room for its tree. -/
theorem outcome_of_room (hr : ¬ c.LacksRoom text) :
    (c.report.evaluate c.scope text c.host).outcome = outcome c.scope text >>= Number.told := by
  have hr : c.report.lacksRoom c.host text = false := by simpa [LacksRoom] using hr
  rw [(Report.hears_evaluate _ _ _ _).outcome, Report.heard_of_room hr]
  rfl

/-- An attempt at a text that is told to fail outside of the expression fails. -/
theorem attempt_of_failure (ht : (c.report.evaluate c.scope text c.host).outcome = .error f)
    (hf : ∀ e, f ≠ .error e) : c.attempt c.report text =
      ⟨⟨"", (c.report.evaluate c.scope text c.host).written⟩, .error f⟩ := by
  unfold attempt
  cases f with
  | error e => exact absurd rfl (hf e)
  | fault | rejected | omitted | unknownOperator | foreign => simp only [ht]

/-- An attempt at a text with an answer that can be written prints it, or fails at it. -/
theorem attempt_of_answer (hr : ¬ c.LacksRoom text) (ho : outcome c.scope text = .ok n)
    (hw : n.isWritable = true) : c.attempt c.report text = match render c.options n with
      | .ok line =>
        ⟨⟨line ++ "\n", (c.report.evaluate c.scope text c.host).written⟩, .ok (true, c.report)⟩
      | .error f => ⟨⟨"", (c.report.evaluate c.scope text c.host).written⟩, .error f⟩ := by
  have ht : (c.report.evaluate c.scope text c.host).outcome = .ok n := by
    rw [outcome_of_room hr, ho]
    exact if_pos hw
  unfold attempt
  cases hl : render c.options n with
  | error f => simp only [ht, hl]
  | ok line => simp only [ht, hl, Report.report_of_ok ht]

/-- An attempt at a text that is wrong shows the error, and the report is as it was. -/
theorem attempt_of_error {shown : String} (hr : ¬ c.LacksRoom text)
    (ho : outcome c.scope text = .error (.error e)) (hs : c.host.illustrate e text = .ok shown) :
    c.attempt c.report text = ⟨⟨"", (c.report.evaluate c.scope text c.host).written ++
      ((if c.options.verbose then c.grumble.text ++ "\n" else "") ++ (shown ++ "\n"))⟩,
      .ok (false, c.report)⟩ := by
  have ht : (c.report.evaluate c.scope text c.host).outcome = .error (.error e) := by
    rw [outcome_of_room hr, ho]
    rfl
  have hshown : (c.report.issue e text).complainOn c.host c.grumble =
      ⟨(if c.options.verbose then c.grumble.text ++ "\n" else "") ++ (shown ++ "\n"), none⟩ := by
    simp [Report.complainOn, Report.issue, report, Report.new, Report.sick, Report.complaints, hs]
  unfold attempt
  simp only [ht, Report.report_of_error ht, hshown]
  rfl

/-! ## Runs -/

/-- **The run for one text** ends by what the text comes to. -/
theorem ends_answerOne (hp : c.options.precision.IsShort) (text : String) :
    c.Ends text (c.report.evaluate c.scope text c.host).written (c.answerOne c.report text) := by
  unfold answerOne
  by_cases hr : c.LacksRoom text
  · have ht : (c.report.evaluate c.scope text c.host).outcome = .error .outOfRoom := by
      rw [(Report.hears_evaluate _ _ _ _).outcome, Report.heard_of_lacksRoom hr]
      rfl
    rw [attempt_of_failure ht nofun]
    exact .failed (.tree hr)
  obtain ⟨n, ho⟩ | ⟨e, ho⟩ := number_or_error c text
  · by_cases hw : n.isWritable = true
    · rw [attempt_of_answer hr ho hw]
      obtain ⟨hb, line, hl⟩ | ⟨hb, hl⟩ := render_cases hp hw
      · rw [hl]
        refine .printed ?_ ho hl
        rintro f (hr' | ⟨-, ho', hb'⟩)
        · exact hr hr'
        · rw [ho] at ho'
          cases ho'
          exact hb _ hb'
      · rw [hl]
        exact .failed (.answer hr ho hb)
    · have hb : c.options.Balks n .tooManyDigits := by
        cases n with
        | int i => exact .digits (by simpa using hw)
        | float x => exact absurd rfl hw
      have ht : (c.report.evaluate c.scope text c.host).outcome =
          .error (.fault .tooManyDigits) := by
        rw [outcome_of_room hr, ho]
        exact if_neg hw
      rw [attempt_of_failure ht nofun]
      exact .failed (.answer hr ho hb)
  · obtain ⟨shown, hs⟩ := exists_illustrate ho
    rw [attempt_of_error hr ho hs]
    refine .shown ?_ ho hs
    rintro f (hr' | ⟨-, ho', -⟩)
    · exact hr hr'
    · rw [ho] at ho'
      cases ho'

/-- The run for a text at which it does not fail has a status. -/
theorem Ends.status {told : String} {t : Transcript} (h : c.Ends text told t)
    (hb : ∀ f, ¬ c.BalksAt text f) : ∃ k, t.ending = .status k := by
  cases h with
  | printed => exact ⟨0, rfl⟩
  | shown => exact ⟨1, rfl⟩
  | failed hf => exact absurd hf (hb _)

/-- A run fails at a text in one way. -/
theorem BalksAt.unique {f' : Failure} (h : c.BalksAt text f) (h' : c.BalksAt text f') : f = f' := by
  cases h with
  | tree hr =>
    cases h' with
    | tree => rfl
    | answer hr' => exact absurd hr hr'
  | answer hr ho hb =>
    cases h' with
    | tree hr' => exact absurd hr' hr
    | answer _ ho' hb' =>
      rw [ho] at ho'
      cases ho'
      -- the two faults are those of different integers
      cases hb with
      | digits hd =>
        cases hb' with
        | digits => rfl
        | size hw => simp [hw] at hd
      | size hw =>
        cases hb' with
        | digits hd => simp [hw] at hd
        | size => rfl

/-- The run for a text at which it fails ends in that failure. -/
theorem Ends.failure {told : String} {t : Transcript} (h : c.Ends text told t)
    (hb : c.BalksAt text f) : t.ending = .failure f := by
  cases h with
  | printed hn => exact absurd hb (hn f)
  | shown hn => exact absurd hb (hn f)
  | failed hf => exact congrArg Ending.failure (hf.unique hb)

end Calculator

/-- Runs of which one fails, after others that do not, end with that failure. -/
theorem Transcript.inTurn_of_failure {before after : List Transcript} {t : Transcript} {f : Failure}
    (hb : ∀ u ∈ before, ∃ k, u.ending = .status k) (ht : t.ending = .failure f) :
    (inTurn (before ++ t :: after)).ending = .failure f := by
  induction before with
  | nil =>
    rw [List.nil_append, inTurn, ht]
  | cons u before ih =>
    obtain ⟨⟨k, hk⟩, hb⟩ := List.forall_mem_cons.1 hb
    rw [List.cons_append, inTurn, hk]
    exact ih hb

namespace Calculator

variable {c : Calculator} {r : Report}

/-- **A session ends as its lines in turn**, whoever types them. -/
theorem ending_answerLines (hr : r.issues = []) (interactive : Bool) (lines : List String) :
    (c.answerLines interactive r lines).ending =
      (Transcript.inTurn ((textsOf lines).map (c.answerOne r))).ending := by
  induction lines with
  | nil => rfl
  | cons line rest ih =>
    rw [answerLines, answerLine, textsOf_cons]
    cases Request.ofLine line with
    | stop => rfl
    | skip => exact ih
    | answer text =>
      simp only [List.map_cons, Transcript.inTurn, answerOne]
      cases ha : (c.attempt r text).result with
      | error f => rfl
      | ok a =>
        obtain ⟨answered, r'⟩ := a
        obtain rfl := attempt_result hr ha
        exact ih

/-- A session that fails at no text has status 0. -/
theorem status_answerLines (hp : c.options.precision.IsShort) (interactive : Bool)
    (lines : List String) (h : ∀ text ∈ textsOf lines, ∀ f, ¬ c.BalksAt text f) :
    (c.answerLines interactive c.report lines).ending = .status 0 := by
  rw [ending_answerLines rfl, Transcript.inTurn_of_status]
  intro t ht
  obtain ⟨text, hm, rfl⟩ := List.mem_map.1 ht
  exact (ends_answerOne hp text).status (h text hm)

/-- A session ends at the first text at which it fails. -/
theorem failure_answerLines (hp : c.options.precision.IsShort) (interactive : Bool)
    {lines before after : List String} {text : String} {f : Failure}
    (hl : textsOf lines = before ++ text :: after) (hb : ∀ u ∈ before, ∀ f, ¬ c.BalksAt u f)
    (h : c.BalksAt text f) :
    (c.answerLines interactive c.report lines).ending = .failure f := by
  rw [ending_answerLines rfl, hl, List.map_append, List.map_cons]
  refine Transcript.inTurn_of_failure ?_ ((ends_answerOne hp text).failure h)
  intro t ht
  obtain ⟨u, hm, rfl⟩ := List.mem_map.1 ht
  exact (ends_answerOne hp u).status (hb u hm)

end Calculator

section
variable {o : Options} {g : Grumble} {host : Host} {c : Calculator}

/-- **Every run ends with a status, but for what cannot be written**, on any host.  Let the
    definitions of the command line be accepted, and answers be rounded to a number of places of at
    most three digits or not at all.  The run for an expression prints its answer and has status 0,
    or shows the error in it and has status 1, or fails: at an answer that is not printed or, if it
    is verbose, at a tree that there is no room for.  A session goes on to its end and has status 0,
    unless it comes to a line at which it fails. -/
theorem carryOut_ends (hc : Calculator.prepare o g host = .ok c) (hp : o.precision.IsShort)
    (input : String) (interactive : Bool) :
    (∀ text, o.expression = some text →
      c.Ends text ((Report.new o.verbose).evaluate c.scope text host).written
        (o.carryOut input interactive g host)) ∧
    (o.expression = none → (∀ text ∈ sessionTexts input, ∀ f, ¬ c.BalksAt text f) →
      (o.carryOut input interactive g host).ending = .status 0) ∧
    ∀ before text after f, o.expression = none → sessionTexts input = before ++ text :: after →
      (∀ u ∈ before, ∀ f, ¬ c.BalksAt u f) → c.BalksAt text f →
      (o.carryOut input interactive g host).ending = .failure f := by
  obtain ⟨d, hd, rfl⟩ := prepare_eq_ok.1 hc
  unfold Options.carryOut
  rw [hc]
  refine ⟨fun text hx => ?_, fun hx h => ?_, fun before text after f hx hl hb hf => ?_⟩
  · rw [hx]
    exact Calculator.ends_answerOne hp text
  · rw [hx]
    exact Calculator.status_answerLines hp interactive _ h
  · rw [hx]
    exact Calculator.failure_answerLines hp interactive hl hb hf

/-- A quotient with a definition, rounded to tens and told of; a session that goes on after an
    error; and one that comes to an answer that is not printed. -/
theorem carryOut_ends_quotient :
    let o : Options := ⟨some "x / 3", [some "x=100"], false, .places (-1), true⟩
    let o' : Options := ⟨none, [], true, .full, false⟩
    let c' : Calculator := ⟨o', .empty, .first, .usual⟩
    (o.precision.IsShort ∧ ∃ c, Calculator.prepare o .first .usual = .ok c ∧
      c.Ends "x / 3" ((Report.new o.verbose).evaluate c.scope "x / 3" .usual).written
        (o.carryOut "" false .first .usual)) ∧
    (o'.precision.IsShort ∧ Calculator.prepare o' .first .usual = .ok c') ∧
    (sessionTexts "1 / 0\n2\n" = ["1 / 0", "2"] ∧ (∀ t ∈ ["1 / 0", "2"], ∀ f, ¬ c'.BalksAt t f) ∧
      (o'.carryOut "1 / 0\n2\n" true .first .usual).ending = .status 0) ∧
    sessionTexts "2\n10 ^ 400\n" = ["2"] ++ "10 ^ 400" :: [] ∧
      c'.BalksAt "10 ^ 400" (.fault .integerTooLarge) ∧
      (o'.carryOut "2\n10 ^ 400\n" true .first .usual).ending =
        .failure (.fault .integerTooLarge) := by
  intro o o' c'
  have hp : o.precision.IsShort := show Int.natAbs (-1) < 1000 by decide
  have hc' : Calculator.prepare o' .first .usual = .ok c' := rfl
  have hl : sessionTexts "1 / 0\n2\n" = ["1 / 0", "2"] := by decide +kernel
  have hl' : sessionTexts "2\n10 ^ 400\n" = ["2"] ++ "10 ^ 400" :: [] := by decide +kernel
  -- a quiet run tells of no tree
  have hquiet : ∀ text, ¬ c'.LacksRoom text := by
    intro text
    exact Bool.false_ne_true
  have hzero : ∀ f, ¬ c'.BalksAt "1 / 0" f := by
    rintro f (hr | ⟨-, ho, -⟩)
    · exact hquiet _ hr
    · have he : outcome c'.scope "1 / 0" = .error (.error (.divisionByZero "/" (some 2))) := by
        decide +kernel
      rw [he] at ho
      cases ho
  have htwo : ∀ f, ¬ c'.BalksAt "2" f := by
    rintro f (hr | ⟨-, ho, hb⟩)
    · exact hquiet _ hr
    · have he : outcome c'.scope "2" = .ok (.int 2) := by decide +kernel
      rw [he] at ho
      cases ho
      rcases hb with hd | ⟨-, -, hs⟩
      · exact absurd hd (by decide +kernel)
      · exact absurd hs (by decide +kernel)
  have hpower : c'.BalksAt "10 ^ 400" (.fault .integerTooLarge) := by
    have ho : outcome c'.scope "10 ^ 400" = .ok (.int (10 ^ 400)) := by decide +kernel
    refine .answer (hquiet _) ho (.size ?_ rfl ?_)
    · decide +kernel
    · decide +kernel
  refine ⟨⟨hp, ?_⟩, ⟨trivial, hc'⟩, ⟨hl, by simp [hzero, htwo], ?_⟩, hl', hpower, ?_⟩
  · have hok : (Calculator.prepare o .first .usual).toOption.isSome = true := by decide +kernel
    cases hc : Calculator.prepare o .first .usual with
    | error e =>
      rw [hc] at hok
      cases hok
    | ok c => exact ⟨c, rfl, (carryOut_ends hc hp "" false).1 "x / 3" rfl⟩
  · refine (carryOut_ends hc' trivial _ true).2.1 rfl ?_
    rw [hl]
    simp [hzero, htwo]
  · exact (carryOut_ends hc' trivial _ true).2.2 _ _ _ _ rfl hl' (by simp [htwo]) hpower

/-- Answers that are not printed: a power of too many digits, and one that no float is near to where
    a float is asked for, which also ends a session.  And a sum that is too long for a verbose
    run. -/
theorem run_long_power :
    (run ["10 ^ 4300"] "" false .first = ⟨.empty, .failure (.fault .tooManyDigits)⟩ ∧
      run ["-f", "10 ^ 400"] "" false .first = ⟨.empty, .failure (.fault .integerTooLarge)⟩ ∧
      run ["-f"] "10 ^ 400\n2\n" false .first =
        ⟨.empty, .failure (.fault .integerTooLarge)⟩) ∧
    let o : Options := ⟨some (ones 499), [], false, .full, true⟩
    (o.carryOut "" false .first .usual).ending = .failure .outOfRoom := by
  refine ⟨⟨?_, ?_, ?_⟩, ?_⟩
  · decide +kernel
  · decide +kernel
  · decide +kernel
  · let o : Options := ⟨some (ones 499), [], false, .full, true⟩
    let c : Calculator := ⟨o, .empty, .first, .usual⟩
    have hr : c.LacksRoom (ones 499) := (Report.lacksRoom_ones 499 496).2 (by decide)
    exact (Calculator.ends_answerOne (c := c) trivial (ones 499)).failure (.tree hr)

end

end Reckon.CommandLine
