/-
  What a report adds to an evaluation.

  A report hears of every phase, and what it hears of is made fit to be told.  The tokens
  always are.  The tree of a text is if the stack has room to write it, and it is asked for by
  a verbose report only.  A result is if it can be written, and a quiet report asks for it too.

  * `Report.lacksRoom`: a report would tell of a tree, and there is no room to write it;
  * `Number.told`: a result as a report passes it on;
  * `tokensLine`, `treeLine`, `resultLine`: the lines that tell of the phases;
  * `Report.heard`: what a report hears an evaluation come to;
  * `hears_evaluate`: what an evaluation with a report comes to is what the report hears;
  * `evaluate_outcome`: the outcome, the functions run and the errors on record.
-/
import Mathlib.Algebra.Group.Int.Defs
import Reckon.Proofs.Room
import Reckon.Report

namespace Reckon

/-- A result as a report passes it on: it must be fit to be written. -/
def Number.told (n : Number) : Except Failure Number :=
  if n.isWritable then .ok n else .error (.fault .tooManyDigits)

namespace Report

variable {r : Report} {s : Scope} {host : Host} {text written : String} {t : Expr} {n : Number}
  {f : Failure} {runs : Array Run} {verbose : Bool}

/-- The report is verbose, the text has a tree, and the stack has no room to write it. -/
def lacksRoom (r : Report) (host : Host) (text : String) : Bool :=
  r.verbose && match Expr.parseText text with
    | .ok t => !host.hasRoom t
    | .error _ => false

/-- What a report hears the evaluation of a text come to: if there is no room to write the tree,
    it does not come to the evaluation. -/
def heard (r : Report) (s : Scope) (host : Host) (text : String) :
    Except Failure Number × Array Run :=
  if r.lacksRoom host text then (.error .outOfRoom, #[]) else (evaluateText s text).outcome

/-- The report after a failure: an error of the expression goes on record. -/
def after (r : Report) (text : String) : Except Failure Number → Report
  | .error (.error e) => r.issue e text
  | _ => r

/-- What is told is what is heard, if a result is fit to be written; the functions run are the
    same, and an error of the expression is on record. -/
structure Hears (r : Report) (text : String) (c : Except Failure Number × Array Run)
    (told : Told) : Prop where
  outcome : told.outcome = c.1 >>= Number.told
  report : told.report = r.after text c.1
  runs : told.runs = c.2

/-! ## Lines -/

/-- The line that tells of the tokens. -/
def tokensLine (ts : List Token) : String := "Tokens:" ++ " " ++ Token.joined ts ++ "\n"

/-- The line that tells of the tree. -/
def treeLine (t : Expr) : String := "Tree:" ++ " " ++ t.render ++ "\n"

/-- The line that tells of the result. -/
def resultLine (n : Number) : String := "Result:" ++ " " ++ n.display ++ "\n"

/-- What of some lines a report writes: all if it is verbose, else nothing. -/
def voiced (verbose : Bool) (lines : List String) : String :=
  if verbose then String.join lines else ""

@[simp]
theorem voiced_nil : voiced verbose [] = "" := by
  cases verbose <;> rfl

theorem voiced_append (lines lines' : List String) :
    voiced verbose lines ++ voiced verbose lines' = voiced verbose (lines ++ lines') := by
  cases verbose
  · rfl
  · simp [voiced]

theorem voiced_singleton (line : String) :
    voiced verbose [line] = if verbose then line else "" := by
  cases verbose
  · rfl
  · simp [voiced]

theorem info_eq (words : List String) :
    r.info words = voiced r.verbose [" ".intercalate words ++ "\n"] := (voiced_singleton _).symm

theorem info_tokens (ts : List Token) :
    r.info ["Tokens:", Token.joined ts] = voiced r.verbose [tokensLine ts] := info_eq _

theorem lacksRoom_of_ok (h : Expr.parseText text = .ok t) :
    r.lacksRoom host text = (r.verbose && !host.hasRoom t) := by
  rw [lacksRoom, h]

theorem lacksRoom_iff (h : Expr.parseText text = .ok t) :
    r.lacksRoom host text = true ↔ r.verbose = true ∧ host.hasRoom t = false := by
  rw [lacksRoom_of_ok h]
  simp

theorem lacksRoom_of_error {e : Error} (h : Expr.parseText text = .error e) :
    r.lacksRoom host text = false := by
  rw [lacksRoom, h, Bool.and_false]

/-- **No room is enough**: there is a sum that is too long for it. -/
theorem lacksRoom_ones (n room : Nat) :
    (Report.new true).lacksRoom (.ofRoom room) (ones n) = true ↔ room < n + 3 := by
  obtain ⟨t, ht, hc, -⟩ := Expr.parseText_ones n
  rw [lacksRoom_of_ok ht, ← hc]
  simp [Report.new, Host.ofRoom]

/-- The tree of a text can be told of, if there is room or nothing to tell. -/
theorem tellTree_eq (h : Expr.parseText text = .ok t) (hr : r.lacksRoom host text = false) :
    r.tellTree host t = ⟨voiced r.verbose [treeLine t], none⟩ := by
  rw [lacksRoom_of_ok h] at hr
  unfold tellTree
  rw [voiced_singleton]
  cases hv : r.verbose
  · rfl
  · have hroom : host.hasRoom t = true := by simpa [hv] using hr
    have hw : host.write t = .ok t.render := by
      rw [Host.write, if_pos hroom, Expr.write_of_parseText h]
      rfl
    rw [if_pos rfl, if_pos rfl, hw]
    simp only [info, hv, if_true]
    rfl

/-- Without room, the line is begun and not ended. -/
theorem tellTree_of_lacksRoom (h : Expr.parseText text = .ok t)
    (hr : r.lacksRoom host text = true) : r.tellTree host t = ⟨"Tree: ", some .outOfRoom⟩ := by
  obtain ⟨hv, hroom⟩ := (lacksRoom_iff h).1 hr
  have hw : host.write t = .error .outOfRoom := if_neg (by simp [hroom])
  rw [tellTree, if_pos hv, hw]

theorem tellResult_eq (h : n.isWritable = true) :
    r.tellResult n = .ok (voiced r.verbose [resultLine n]) := by
  unfold tellResult Number.writeDisplay
  rw [if_pos h]
  exact congrArg Except.ok (info_eq _)

theorem tellResult_of_not_isWritable (h : ¬ n.isWritable = true) :
    r.tellResult n = .error (.fault .tooManyDigits) := by
  unfold tellResult Number.writeDisplay
  rw [if_neg h]
  rfl

/-! ## Phases -/

/-- A failure is told as it is. -/
theorem hears_failed : r.Hears text (.error f, runs) (r.failed text written runs f) := by
  cases f with
  | error e => exact ⟨rfl, rfl, rfl⟩
  | fault | rejected | omitted | unknownOperator | foreign => exact ⟨rfl, rfl, rfl⟩

/-- A result is told if it can be written. -/
theorem hears_result (written : String) : r.Hears text (.ok n, runs)
    (match r.tellResult n with
      | .error f => r.failed text written runs f
      | .ok line => ⟨.ok n, r, written ++ line, runs⟩) := by
  by_cases h : n.isWritable = true
  · rw [tellResult_eq h]
    exact ⟨(if_pos h).symm, rfl, rfl⟩
  · rw [tellResult_of_not_isWritable h]
    exact ⟨(if_neg h).symm, rfl, rfl⟩

/-! ## Evaluations -/

theorem evaluateText_of_error {e : Error} (h : Expr.parseText text = .error e) :
    (evaluateText s text).outcome = (.error (.error e), #[]) := by
  unfold evaluateText
  rw [h]
  rfl

theorem evaluateText_of_ok (h : Expr.parseText text = .ok t) :
    (evaluateText s text).outcome = (t.evaluate s).outcome := by
  unfold evaluateText
  rw [h]
  rfl

theorem heard_of_lacksRoom (hr : r.lacksRoom host text = true) :
    r.heard s host text = (.error .outOfRoom, #[]) := if_pos hr

theorem heard_of_room (hr : r.lacksRoom host text = false) :
    r.heard s host text = (evaluateText s text).outcome := by
  rw [heard, hr]
  rfl

theorem heard_of_error {e : Error} (h : Expr.parseText text = .error e) :
    r.heard s host text = (.error (.error e), #[]) := by
  rw [heard_of_room (lacksRoom_of_error h), evaluateText_of_error h]

theorem heard_of_ok (h : Expr.parseText text = .ok t) (hr : r.lacksRoom host text = false) :
    r.heard s host text = (t.evaluate s).outcome := by
  rw [heard_of_room hr, evaluateText_of_ok h]

/-- **An evaluation with a report** is what the report hears. -/
theorem hears_evaluate (r : Report) (s : Scope) (text : String) (host : Host) :
    r.Hears text (r.heard s host text) (r.evaluate s text host) := by
  unfold evaluate
  rcases hs : Token.scan text with e | ts
  · rw [heard_of_error (parseText_eq_error.2 (.inl hs))]
    exact hears_failed
  rcases hp : Expr.parse ts with e | t
  · rw [heard_of_error (parseText_eq_error.2 (.inr ⟨ts, hs, hp⟩))]
    simp only [hp]
    exact hears_failed
  have ht : Expr.parseText text = .ok t := Expr.parseText_eq_ok.2 ⟨ts, hs, hp⟩
  cases hr : r.lacksRoom host text with
  | true =>
    rw [heard_of_lacksRoom hr]
    simp only [hp, tellTree_of_lacksRoom ht hr]
    exact hears_failed
  | false =>
    rw [heard_of_ok ht hr]
    simp only [hp, tellTree_eq ht hr]
    rcases (t.evaluate s).outcome with ⟨f | n, runs⟩
    · exact hears_failed
    · exact hears_result _

/-- A failure is told as it is without a report, if there is room for the tree. -/
theorem outcome_of_error (hr : r.lacksRoom host text = false)
    (h : Reckon.outcome s text = .error f) : (r.evaluate s text host).outcome = .error f := by
  unfold Reckon.outcome at h
  rw [(hears_evaluate r s text host).outcome, heard_of_room hr, h]
  rfl

/-- After an answer the report is as it was. -/
theorem report_of_ok (h : (r.evaluate s text host).outcome = .ok n) :
    (r.evaluate s text host).report = r := by
  have hh := hears_evaluate r s text host
  rw [hh.outcome] at h
  obtain ⟨m, hm, -⟩ := Expr.bind_eq_ok.1 h
  rw [hh.report, hm]
  rfl

/-- After an error of the expression the report has it on record. -/
theorem report_of_error {e : Error} (h : (r.evaluate s text host).outcome = .error (.error e)) :
    (r.evaluate s text host).report = r.issue e text := by
  have hh := hears_evaluate r s text host
  rw [hh.outcome] at h
  rcases Expr.bind_eq_error.1 h with hc | ⟨m, -, hm⟩
  · rw [hh.report, hc]
    rfl
  · unfold Number.told at hm
    split at hm <;> cases hm

/-- **A report listens, and refuses what it could not write.**  With a report of any verbosity and
    on every host, an evaluation has the outcome that it has without one, but in two cases.  If the
    report is verbose and there is no room to write the tree, then the evaluation fails with that
    before it is begun, runs no functions and records nothing.  Else an integer of too many digits
    fails.  But for the first case the same functions are run, and the error that the evaluation
    ends in without a report is recorded, if it is one of the expression, and nothing else. -/
theorem evaluate_outcome (r : Report) (s : Scope) (text : String) (host : Host) :
    ((r.evaluate s text host).outcome =
      if r.lacksRoom host text then .error .outOfRoom
      else match Reckon.outcome s text with
        | .ok n => if n.isWritable then .ok n else .error (.fault .tooManyDigits)
        | .error f => .error f) ∧
    ((r.evaluate s text host).runs =
      if r.lacksRoom host text then #[] else (evaluateText s text).outcome.2) ∧
    (r.evaluate s text host).report =
      if r.lacksRoom host text then r
      else match Reckon.outcome s text with
        | .error (.error e) => r.issue e text
        | _ => r := by
  obtain ⟨ho, hr, hn⟩ := hears_evaluate r s text host
  rw [ho, hr, hn]
  cases hroom : r.lacksRoom host text with
  | true =>
    rw [heard_of_lacksRoom hroom]
    exact ⟨rfl, rfl, rfl⟩
  | false =>
    rw [heard_of_room hroom, Reckon.outcome]
    refine ⟨?_, rfl, ?_⟩
    · rcases (evaluateText s text).outcome.1 with f | n <;> rfl
    · rcases (evaluateText s text).outcome.1 with f | n
      · cases f <;> rfl
      · rfl

/-- A power of too many digits: it has a value, and none where a report listens, however quiet.  A
    sum of five hundred ones has a value too, and none where a verbose report listens. -/
theorem evaluate_long_power :
    (Reckon.outcome .empty "10 ^ 4300" = .ok (.int (10 ^ 4300)) ∧
      ((Report.new false).evaluate .empty "10 ^ 4300").outcome = .error (.fault .tooManyDigits)) ∧
    Reckon.outcome .empty (ones 499) = .ok (.int 500) ∧
      ((Report.new true).evaluate .empty (ones 499)).outcome = .error .outOfRoom := by
  refine ⟨⟨by decide +kernel, by decide +kernel⟩, ?_, ?_⟩
  · obtain ⟨-, -, -, ho⟩ := Expr.parseText_ones 499
    exact ho .empty
  · have hr : (Report.new true).lacksRoom .usual (ones 499) = true :=
      (lacksRoom_ones 499 496).2 (by decide)
    rw [(hears_evaluate _ _ _ _).outcome, heard_of_lacksRoom hr]
    rfl

end Report

end Reckon
