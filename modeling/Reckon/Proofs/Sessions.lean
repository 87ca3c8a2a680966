/-
  Sessions.

  A session answers the lines of its input with one calculator and one report.  The report is
  cleared after every line, so that a line finds it as the first one did, and an answer is
  that of the line alone.

  * `sessionTexts`: the texts that a session answers;
  * `Options.alone`: the run that answers one text, with the same options;
  * `Transcript.inTurn`: runs one after another, up to the first that fails;
  * `attempt_result`: what an answer leaves of a report;
  * `carryOut_eq_inTurn`: a session is the runs of its lines in turn;
  * `session_of_lines`: if none of them fails, it writes what they write and ends with status 0.
-/
import Reckon.CommandLine.Run
import Reckon.Proofs.Telling

namespace Reckon.CommandLine

open Text (strip)

/-! ## Outputs -/

namespace Output

@[simp]
theorem stdout_append (a b : Output) : (a ++ b).stdout = a.stdout ++ b.stdout := rfl

@[simp]
theorem stderr_append (a b : Output) : (a ++ b).stderr = a.stderr ++ b.stderr := rfl

@[ext]
theorem ext {a b : Output} (ho : a.stdout = b.stdout) (he : a.stderr = b.stderr) : a = b := by
  cases a
  cases b
  cases ho
  cases he
  rfl

@[simp]
theorem empty_append (a : Output) : Output.empty ++ a = a := by
  ext <;> simp [empty]

end Output

/-- Runs one after another.  The first that ends in a failure is the last. -/
def Transcript.inTurn : List Transcript → Transcript
  | [] => ⟨Output.empty, .status 0⟩
  | t :: ts =>
    match t.ending with
    | .failure f => ⟨t.output, .failure f⟩
    | .status _ => ⟨t.output ++ (inTurn ts).output, (inTurn ts).ending⟩

/-- Runs of which none fails write one after the other what each writes. -/
theorem Transcript.inTurn_of_status {ts : List Transcript}
    (h : ∀ t ∈ ts, ∃ k, t.ending = .status k) :
    inTurn ts = ⟨⟨String.join (ts.map (·.output.stdout)), String.join (ts.map (·.output.stderr))⟩,
      .status 0⟩ := by
  induction ts with
  | nil => rfl
  | cons t ts ih =>
    obtain ⟨⟨k, hk⟩, h⟩ := List.forall_mem_cons.1 h
    rw [inTurn, hk, ih h]
    simp only [List.map_cons, String.join_cons]
    rfl

/-! ## Lines -/

/-- A line without the blanks at its ends. -/
def stripped (line : String) : String := String.ofList (strip line.toList)

/-- Whether a text ends a session. -/
def endsSession (text : String) : Bool := text = "quit" ∨ text = "exit"

/-- The texts that a session answers: the lines without the blanks at their ends, up to one that
    ends the session, and without the empty ones. -/
def textsOf (lines : List String) : List String :=
  ((lines.map stripped).takeWhile fun t => !endsSession t).filter (· ≠ "")

/-- The texts that a session on an input answers. -/
def sessionTexts (input : String) : List String := textsOf (inputLines input)

theorem ofLine_eq (line : String) : Calculator.Request.ofLine line =
    if endsSession (stripped line) then .stop
    else if stripped line = "" then .skip
    else .answer (stripped line) := by
  have hq : endsSession (stripped line) = true ↔
      stripped line = "quit" ∨ stripped line = "exit" := decide_eq_true_iff
  unfold Calculator.Request.ofLine
  dsimp only
  split
  · rename_i h
    rw [if_pos (hq.2 h)]
  · rename_i h
    rw [if_neg (mt hq.1 h)]
    rfl

theorem textsOf_cons (line : String) (rest : List String) : textsOf (line :: rest) =
    match Calculator.Request.ofLine line with
    | .stop => []
    | .skip => textsOf rest
    | .answer text => text :: textsOf rest := by
  unfold textsOf
  rw [ofLine_eq, List.map_cons, List.takeWhile_cons]
  cases endsSession (stripped line) with
  | true => rfl
  | false =>
    by_cases hb : stripped line = ""
    · simp [hb]
    · simp [hb]

/-! ## Answers -/

namespace Calculator

variable {c : Calculator} {r r' : Report} {text : String} {b : Bool}

/-- **An answer leaves no trace** in a report without errors. -/
theorem attempt_result (hr : r.issues = []) (h : (c.attempt r text).result = .ok (b, r')) :
    r' = r := by
  unfold attempt at h
  dsimp only at h
  cases ho : (r.evaluate c.scope text c.host).outcome with
  | ok n =>
    rw [ho] at h
    dsimp only at h
    cases hl : render c.options n with
    | error f =>
      rw [hl] at h
      cases h
    | ok line =>
      rw [hl] at h
      cases h
      exact Report.report_of_ok ho
  | error f =>
    rw [ho] at h
    cases f with
    | error e =>
      cases hs : ((r.evaluate c.scope text c.host).report.complainOn c.host c.grumble).failure with
      | some f =>
        rw [hs] at h
        cases h
      | none =>
        rw [hs] at h
        cases h
        rw [Report.report_of_error ho]
        unfold Report.issue Report.reset
        rw [← hr]
    | fault | rejected | omitted | unknownOperator | foreign => cases h

/-- **A session is its lines in turn**, each answered alone. -/
theorem answerLines_eq_inTurn (hr : r.issues = []) (lines : List String) :
    c.answerLines false r lines = Transcript.inTurn ((textsOf lines).map (c.answerOne r)) := by
  have hp : prompt false = Output.empty := rfl
  induction lines with
  | nil => rfl
  | cons line rest ih =>
    rw [answerLines, answerLine, textsOf_cons]
    cases Request.ofLine line with
    | stop => rfl
    | skip => simp only [hp, Output.empty_append, ih]
    | answer text =>
      simp only [List.map_cons, Transcript.inTurn, answerOne, hp, Output.empty_append]
      cases ha : (c.attempt r text).result with
      | error f => rfl
      | ok a =>
        obtain ⟨answered, r'⟩ := a
        obtain rfl := attempt_result hr ha
        simp only [ih]

end Calculator

/-! ## Runs -/

/-- The run that answers one text, the options being the same. -/
def Options.alone (o : Options) (g : Grumble) (host : Host) (text : String) : Transcript :=
  { o with expression := some text }.carryOut "" false g host

section
variable {o : Options} {g : Grumble} {host : Host} {c : Calculator} {text : String}

theorem prepare_eq_ok : Calculator.prepare o g host = .ok c ↔
    ∃ d, o.definitions.foldlM Calculator.define (Registry.empty : Definitions) = .ok d ∧
      c = ⟨o, d, g, host⟩ := by
  unfold Calculator.prepare
  constructor
  · intro h
    obtain ⟨d, hd, h⟩ := Expr.bind_eq_ok.1 h
    cases h
    exact ⟨d, hd, rfl⟩
  · rintro ⟨d, hd, rfl⟩
    rw [hd]
    rfl

/-- A text alone is answered with the same calculator. -/
theorem alone_eq (hc : Calculator.prepare o g host = .ok c) (text : String) :
    o.alone g host text = c.answerOne (Report.new o.verbose) text := by
  obtain ⟨d, hd, rfl⟩ := prepare_eq_ok.1 hc
  have ha : Calculator.prepare { o with expression := some text } g host =
      .ok ⟨{ o with expression := some text }, d, g, host⟩ := prepare_eq_ok.2 ⟨d, hd, rfl⟩
  unfold Options.alone Options.carryOut
  rw [ha]
  rfl

/-- **A session is the runs of its lines in turn.** -/
theorem carryOut_eq_inTurn (hx : o.expression = none) (hc : Calculator.prepare o g host = .ok c)
    (input : String) : o.carryOut input false g host =
      Transcript.inTurn ((sessionTexts input).map (o.alone g host)) := by
  have hs : o.carryOut input false g host =
      c.answerLines false (Report.new o.verbose) (inputLines input) := by
    unfold Options.carryOut
    rw [hc, hx]
  have hl : (sessionTexts input).map (o.alone g host) =
      (sessionTexts input).map (c.answerOne (Report.new o.verbose)) :=
    List.map_congr_left fun text _ => alone_eq hc text
  rw [hs, hl, Calculator.answerLines_eq_inTurn rfl, sessionTexts]

/-- **The lines of a session do not influence one another**, on any host.  Let the definitions of
    the command line be accepted.  If every line of the input up to one that ends the session, blank
    lines aside, would be answered alone with status 0 or 1, then the session ends with status 0,
    and to either stream it writes one after the other what those runs write. -/
theorem session_of_lines (input : String) (hx : o.expression = none)
    (hc : Calculator.prepare o g host = .ok c)
    (h : ∀ text ∈ sessionTexts input,
      (o.alone g host text).ending = .status 0 ∨ (o.alone g host text).ending = .status 1) :
    o.carryOut input false g host =
      ⟨⟨String.join ((sessionTexts input).map fun text => (o.alone g host text).output.stdout),
        String.join ((sessionTexts input).map fun text => (o.alone g host text).output.stderr)⟩,
      .status 0⟩ := by
  have hs : ∀ t ∈ (sessionTexts input).map (o.alone g host), ∃ k, t.ending = .status k := by
    intro t ht
    obtain ⟨text, hm, rfl⟩ := List.mem_map.1 ht
    rcases h text hm with hk | hk
    · exact ⟨0, hk⟩
    · exact ⟨1, hk⟩
  rw [carryOut_eq_inTurn hx hc, Transcript.inTurn_of_status hs, List.map_map, List.map_map]
  rfl

/-- A sum with a definition, a blank line, a division by zero, and a line after the end. -/
theorem session_of_lines_defined :
    let o : Options := ⟨none, [some "x=3"], false, .full, true⟩
    let input := " x + 1\n\n1 / 0\nquit\n2\n"
    let alone := o.alone .first .usual
    sessionTexts input = ["x + 1", "1 / 0"] ∧
    (alone "x + 1").ending = .status 0 ∧ (alone "1 / 0").ending = .status 1 ∧
    ∃ c, Calculator.prepare o .first .usual = .ok c ∧ o.carryOut input false .first .usual =
      ⟨⟨String.join ((sessionTexts input).map fun text => (alone text).output.stdout),
        String.join ((sessionTexts input).map fun text => (alone text).output.stderr)⟩,
      .status 0⟩ := by
  intro o input alone
  have ht : sessionTexts input = ["x + 1", "1 / 0"] := by decide +kernel
  have hsum : (alone "x + 1").ending = .status 0 := by decide +kernel
  have hquotient : (alone "1 / 0").ending = .status 1 := by decide +kernel
  have hok : (Calculator.prepare o .first .usual).toOption.isSome = true := by decide +kernel
  refine ⟨ht, hsum, hquotient, ?_⟩
  cases hc : Calculator.prepare o .first .usual with
  | error e =>
    rw [hc] at hok
    cases hok
  | ok c =>
    refine ⟨c, rfl, session_of_lines input rfl hc ?_⟩
    rw [ht]
    simp only [List.mem_cons, List.not_mem_nil, or_false, forall_eq_or_imp, forall_eq]
    exact ⟨.inl hsum, .inr hquotient⟩

end

end Reckon.CommandLine
