/-
  The record of a report over any sequence of operations.

  A report is asked to take errors, to listen to evaluations, to tell and to complain, and it is
  cleared now and then.  What it replies and writes is a matter of what it has seen since it was
  cleared last: the errors handed to it and the errors that evaluations ended in.

  Where a report is asked to write, the host is part of what it is asked.

  * `Operation`, `perform`: what a report is asked to do, and what comes of it;
  * `record`: the errors that a sequence of events puts on record;
  * `Narrates`: the lines that tell of an evaluation, by how far it gets;
  * `Shows`: how recorded errors are shown;
  * `Follows`: what an operation replies and writes, by the events before it; `History`: events
    that do so one after the other;
  * `keeps_perform`: a step; `history_performAll`: a run;
  * `record_of_operations`: the record of a new report after every sequence of operations.
-/
import Mathlib.Data.List.DropRight
import Reckon.Proofs.Telling

namespace Reckon.Report

/-! ## Operations -/

/-- What a report can be asked to do. -/
inductive Operation where
  | issue (e : Error) (text : String)
  /-- To listen to an evaluation. -/
  | evaluate (host : Host) (s : Scope) (text : String)
  | info (words : List String)
  | complain (host : Host) (g : Grumble)
  | ok
  | sick
  | issues
  | reset

/-- What a report gives back. -/
inductive Reply where
  | done
  | flag (b : Bool)
  | errors (es : List Error)
  /-- The number of an evaluation, or the failure that it ends in. -/
  | result (r : Except Failure Number)
  /-- What cut the writing short. -/
  | failed (f : Failure)

/-- What is given back after writing. -/
def Reply.ofFailure : Option Failure → Reply
  | none => .done
  | some f => .failed f

/-- An operation with what came back and what was written. -/
structure Event where
  operation : Operation
  reply : Reply
  written : String

/-- The report after an operation, and what happened. -/
def perform (r : Report) : Operation → Report × Event
  | .issue e text => (r.issue e text, ⟨.issue e text, .done, ""⟩)
  | .evaluate host s text =>
    let told := r.evaluate s text host
    (told.report, ⟨.evaluate host s text, .result told.outcome, told.written⟩)
  | .info words => (r, ⟨.info words, .done, r.info words⟩)
  | .complain host g =>
    let shown := r.complainOn host g
    (r, ⟨.complain host g, .ofFailure shown.failure, shown.written⟩)
  | .ok => (r, ⟨.ok, .flag r.ok, ""⟩)
  | .sick => (r, ⟨.sick, .flag r.sick, ""⟩)
  | .issues => (r, ⟨.issues, .errors r.errors, ""⟩)
  | .reset => (r.reset, ⟨.reset, .done, ""⟩)

/-- The report after operations, and what happened. -/
def performAll (r : Report) : List Operation → Report × List Event
  | [] => (r, [])
  | op :: ops =>
    let next := r.perform op
    let rest := performAll next.1 ops
    (rest.1, next.2 :: rest.2)

/-! ## Records -/

/-- The errors that an evaluation of a text puts on record. -/
def entriesOf (text : String) : Except Failure Number → List (Error × String)
  | .error (.error e) => [(e, text)]
  | _ => []

/-- The errors that an event puts on record: one that is handed in, or one that an evaluation ended
    in, with its text. -/
def Event.entries : Event → List (Error × String)
  | ⟨.issue e text, _, _⟩ => [(e, text)]
  | ⟨.evaluate _ _ text, .result o, _⟩ => entriesOf text o
  | _ => []

/-- Whether an event clears the record. -/
def Event.clears : Event → Bool
  | ⟨.reset, _, _⟩ => true
  | _ => false

/-- **The errors on record** after events: those put on record since it was cleared last. -/
def record (past : List Event) : List (Error × String) :=
  (past.rtakeWhile fun v => !v.clears).flatMap Event.entries

theorem record_concat (past : List Event) (v : Event) :
    record (past ++ [v]) = if v.clears then [] else record past ++ v.entries := by
  unfold record
  rw [List.rtakeWhile_concat]
  by_cases h : v.clears = true
  · simp [h]
  · simp [h]

/-! ## Evaluations -/

/-- What the evaluation of a text ends in with a report, and the lines that tell of it: one for each
    of the tokens, the tree and the result that it gets to.  The line of the tree is left off where
    a verbose report has no room to write it. -/
inductive Narrates (verbose : Bool) (host : Host) (s : Scope) (text : String) :
    Except Failure Number → List String → Prop
  | unscanned {e : Error} : Token.scan text = .error e →
      Narrates verbose host s text (.error (.error e)) []
  | unparsed {ts : List Token} {e : Error} : Token.scan text = .ok ts → Expr.parse ts = .error e →
      Narrates verbose host s text (.error (.error e)) [tokensLine ts]
  | untold {ts : List Token} {t : Expr} : Token.scan text = .ok ts → Expr.parse ts = .ok t →
      verbose = true → host.hasRoom t = false →
      Narrates verbose host s text (.error .outOfRoom) [tokensLine ts, "Tree: "]
  | unevaluated {ts : List Token} {t : Expr} {f : Failure} : Token.scan text = .ok ts →
      Expr.parse ts = .ok t → (verbose = true → host.hasRoom t = true) →
      (t.evaluate s).outcome.1 = .error f →
      Narrates verbose host s text (.error f) [tokensLine ts, treeLine t]
  | unwritable {ts : List Token} {t : Expr} {n : Number} : Token.scan text = .ok ts →
      Expr.parse ts = .ok t → (verbose = true → host.hasRoom t = true) →
      (t.evaluate s).outcome.1 = .ok n → n.isWritable = false →
      Narrates verbose host s text (.error (.fault .tooManyDigits)) [tokensLine ts, treeLine t]
  | answered {ts : List Token} {t : Expr} {n : Number} : Token.scan text = .ok ts →
      Expr.parse ts = .ok t → (verbose = true → host.hasRoom t = true) →
      (t.evaluate s).outcome.1 = .ok n → n.isWritable = true →
      Narrates verbose host s text (.ok n) [tokensLine ts, treeLine t, resultLine n]

variable {r : Report} {s : Scope} {host : Host} {text written : String} {t : Expr} {n : Number}
  {f : Failure} {runs : Array Run} {verbose : Bool} {past : List Event} {e : Error}
  {issues : List (Error × String)}

theorem outcome_failed : (r.failed text written runs f).outcome = .error f := hears_failed.outcome

theorem written_failed : (r.failed text written runs f).written = written := by
  cases f <;> rfl

/-- **What is written of an evaluation** are the lines that tell of it, if the report is verbose. -/
theorem narrates_evaluate (r : Report) (host : Host) (s : Scope) (text : String) :
    ∃ lines, Narrates r.verbose host s text (r.evaluate s text host).outcome lines ∧
      (r.evaluate s text host).written = voiced r.verbose lines := by
  unfold evaluate
  rcases hs : Token.scan text with e | ts
  · refine ⟨[], ?_, ?_⟩
    · rw [outcome_failed]
      exact .unscanned hs
    · rw [written_failed, voiced_nil]
  rcases hp : Expr.parse ts with e | t
  · refine ⟨[tokensLine ts], ?_, ?_⟩
    · simp only [hp, outcome_failed]
      exact .unparsed hs hp
    · simp only [hp, written_failed, info_tokens]
  have ht : Expr.parseText text = .ok t := Expr.parseText_eq_ok.2 ⟨ts, hs, hp⟩
  by_cases hr : r.lacksRoom host text = true
  · obtain ⟨hv, hroom⟩ := (lacksRoom_iff ht).1 hr
    refine ⟨[tokensLine ts, "Tree: "], ?_, ?_⟩
    · simp only [hp, tellTree_of_lacksRoom ht hr, outcome_failed]
      exact .untold hs hp hv hroom
    · simp only [hp, tellTree_of_lacksRoom ht hr, written_failed, info_tokens, hv]
      rfl
  have hroom : r.verbose = true → host.hasRoom t = true := by
    intro hv
    by_contra hn
    exact hr ((lacksRoom_iff ht).2 ⟨hv, by simpa using hn⟩)
  have hr : r.lacksRoom host text = false := by simpa using hr
  simp only [hp, tellTree_eq ht hr, info_tokens, voiced_append]
  rcases ho : (t.evaluate s).outcome with ⟨f | n, runs⟩
  · refine ⟨[tokensLine ts, treeLine t], ?_, ?_⟩
    · simp only [outcome_failed]
      exact .unevaluated hs hp hroom (congrArg Prod.fst ho)
    · simp only [written_failed]
      rfl
  by_cases hw : n.isWritable = true
  · refine ⟨[tokensLine ts, treeLine t, resultLine n], ?_, ?_⟩
    · simp only [tellResult_eq hw]
      exact .answered hs hp hroom (congrArg Prod.fst ho) hw
    · simp only [tellResult_eq hw, voiced_append]
      rfl
  · refine ⟨[tokensLine ts, treeLine t], ?_, ?_⟩
    · simp only [tellResult_of_not_isWritable hw, outcome_failed]
      exact .unwritable hs hp hroom (congrArg Prod.fst ho) (by simpa using hw)
    · simp only [tellResult_of_not_isWritable hw, written_failed]
      rfl

/-- An evaluation that ends in an error of the expression puts it on record, and no other does. -/
theorem issues_evaluate (r : Report) (host : Host) (s : Scope) (text : String) :
    (r.evaluate s text host).report =
      { r with issues := r.issues ++ entriesOf text (r.evaluate s text host).outcome } := by
  have h := hears_evaluate r s text host
  have hr : ∀ o : Except Failure Number,
      r.after text o = { r with issues := r.issues ++ entriesOf text (o >>= Number.told) } := by
    intro o
    rcases o with f | n
    · cases f with
      | error e => rfl
      | fault | rejected | omitted | unknownOperator | foreign =>
        exact congrArg (Report.mk r.verbose) (List.append_nil r.issues).symm
    · have hn : entriesOf text (Number.told n) = [] := by
        unfold Number.told
        split <;> rfl
      show r = { r with issues := r.issues ++ entriesOf text (Number.told n) }
      rw [hn, List.append_nil]
  rw [h.report, h.outcome, hr]

/-! ## Complaints -/

/-- Recorded errors in writing, each with the text of its own. -/
def illustrations (host : Host) (issues : List (Error × String)) : Except Failure (List String) :=
  issues.mapM fun i => host.illustrate i.1 i.2

/-- **How recorded errors are shown**: all of them in order or, if one has its spot outside of its
    text and cannot be drawn, those before it. -/
inductive Shows (host : Host) (issues : List (Error × String)) : Shown → Prop
  | all {lines : List String} : illustrations host issues = .ok lines →
      Shows host issues ⟨String.join (lines.map (· ++ "\n")), none⟩
  | upTo {before after : List (Error × String)} {i : Error × String} {lines : List String}
      {f : Failure} : issues = before ++ i :: after → illustrations host before = .ok lines →
      ¬ i.1.IsWithin i.2 → host.illustrate i.1 i.2 = .error f →
      Shows host issues ⟨String.join (lines.map (· ++ "\n")), some f⟩

theorem illustrations_cons {i : Error × String} {line : String} {lines : List String}
    (hi : host.illustrate i.1 i.2 = .ok line) (h : illustrations host issues = .ok lines) :
    illustrations host (i :: issues) = .ok (line :: lines) := by
  unfold illustrations at h ⊢
  rw [List.mapM_cons, hi, h]
  rfl

/-- Errors with their spots within their texts are in writing. -/
theorem exists_illustrations (host : Host) : ∀ {issues : List (Error × String)},
    (∀ i ∈ issues, i.1.IsWithin i.2) → ∃ lines, illustrations host issues = .ok lines
  | [], _ => ⟨[], rfl⟩
  | i :: issues, h => by
    obtain ⟨hi, h⟩ := List.forall_mem_cons.1 h
    obtain ⟨line, hl⟩ := host.exists_illustrate hi
    obtain ⟨lines, hs⟩ := exists_illustrations host h
    exact ⟨line :: lines, illustrations_cons hl hs⟩

theorem complaints_cons {line : String} (h : host.illustrate e text = .ok line) :
    complaints host ((e, text) :: issues) =
      ⟨line ++ "\n" ++ (complaints host issues).written, (complaints host issues).failure⟩ := by
  rw [complaints, h]

theorem shows_complaints (host : Host) : ∀ issues : List (Error × String),
    Shows host issues (complaints host issues)
  | [] => @Shows.all host [] [] rfl
  | (e, text) :: issues => by
    rcases hi : host.illustrate e text with f | line
    · have hc : complaints host ((e, text) :: issues) = ⟨"", some f⟩ := by
        rw [complaints, hi]
      have hout : ¬ e.IsWithin text := by
        intro hin
        obtain ⟨line, hl⟩ := host.exists_illustrate hin
        rw [hi] at hl
        cases hl
      rw [hc]
      exact .upTo (List.nil_append _).symm rfl hout hi
    rw [complaints_cons hi]
    have ih := shows_complaints host issues
    generalize complaints host issues = shown at ih ⊢
    cases ih with
    | all h =>
      rw [← String.join_cons, ← List.map_cons (f := (· ++ "\n"))]
      exact .all (illustrations_cons hi h)
    | upTo h hb hout hf =>
      rw [← String.join_cons, ← List.map_cons (f := (· ++ "\n")), h]
      exact .upTo (List.cons_append ..).symm (illustrations_cons hi hb) hout hf

/-- What comes before a complaint about recorded errors, if the report is verbose. -/
def opening (verbose : Bool) (issues : List (Error × String)) (g : Grumble) : String :=
  if issues = [] then "" else voiced verbose [g.text ++ "\n"]

/-- A complaint is opened, and the recorded errors are shown. -/
theorem complainOn_eq (r : Report) (host : Host) (g : Grumble) : r.complainOn host g =
    ⟨opening r.verbose r.issues g ++ (complaints host r.issues).written,
      (complaints host r.issues).failure⟩ := by
  have ho : (if r.sick && r.verbose then g.text ++ "\n" else "") =
      opening r.verbose r.issues g := by
    unfold opening sick
    rw [voiced_singleton]
    cases r.issues <;> rfl
  unfold complainOn
  rw [ho]

/-- **A complaint about errors with their spots within their texts** shows all of them. -/
theorem exists_complainOn (h : ∀ i ∈ r.issues, i.1.IsWithin i.2) (host : Host) (g : Grumble) :
    ∃ lines, illustrations host r.issues = .ok lines ∧ r.complainOn host g =
      ⟨opening r.verbose r.issues g ++ String.join (lines.map (· ++ "\n")), none⟩ := by
  obtain ⟨lines, hl⟩ := exists_illustrations host h
  refine ⟨lines, hl, ?_⟩
  rw [complainOn_eq]
  have hs := shows_complaints host r.issues
  generalize complaints host r.issues = shown at hs ⊢
  cases hs with
  | all hl' =>
    rw [hl] at hl'
    cases hl'
    rfl
  | upTo hi _ hout => exact absurd (h _ (by simp [hi])) hout

/-! ## Histories -/

/-- What an operation replies and writes after the events before it. -/
inductive Follows (verbose : Bool) (past : List Event) : Event → Prop
  | issue {e : Error} {text : String} : Follows verbose past ⟨.issue e text, .done, ""⟩
  | evaluate {host : Host} {s : Scope} {text : String} {o : Except Failure Number}
      {lines : List String} : Narrates verbose host s text o lines →
      Follows verbose past ⟨.evaluate host s text, .result o, voiced verbose lines⟩
  | info {words : List String} :
      Follows verbose past ⟨.info words, .done, voiced verbose [" ".intercalate words ++ "\n"]⟩
  | complain {host : Host} {g : Grumble} {shown : Shown} : Shows host (record past) shown →
      Follows verbose past ⟨.complain host g, .ofFailure shown.failure,
        opening verbose (record past) g ++ shown.written⟩
  | ok : Follows verbose past ⟨.ok, .flag (record past = []), ""⟩
  | sick : Follows verbose past ⟨.sick, .flag (record past ≠ []), ""⟩
  | issues : Follows verbose past ⟨.issues, .errors ((record past).map Prod.fst), ""⟩
  | reset : Follows verbose past ⟨.reset, .done, ""⟩

/-- Events of which each follows those before it. -/
inductive History (verbose : Bool) : List Event → Prop
  | none : History verbose []
  | next {past : List Event} {v : Event} : History verbose past → Follows verbose past v →
      History verbose (past ++ [v])

/-- A report after events: it is as verbose as ever, and holds what they put on record. -/
structure Keeps (verbose : Bool) (past : List Event) (r : Report) : Prop where
  verbose : r.verbose = verbose
  issues : r.issues = record past

theorem keeps_new (verbose : Bool) : Keeps verbose [] (Report.new verbose) := ⟨rfl, rfl⟩

/-- **A step**: an operation follows the events before, and the report keeps what it adds. -/
theorem keeps_perform (h : Keeps verbose past r) (op : Operation) :
    Follows verbose past (r.perform op).2 ∧
      Keeps verbose (past ++ [(r.perform op).2]) (r.perform op).1 := by
  obtain ⟨rfl, hi⟩ := h
  have hsame : ∀ v : Event, v.clears = false → v.entries = [] →
      Keeps r.verbose (past ++ [v]) r := by
    intro v hc he
    refine ⟨rfl, ?_⟩
    rw [record_concat, hc, he, List.append_nil]
    exact hi
  cases op with
  | issue e text =>
    refine ⟨.issue, rfl, ?_⟩
    rw [record_concat, ← hi]
    rfl
  | evaluate host s text =>
    obtain ⟨lines, hn, hw⟩ := narrates_evaluate r host s text
    refine ⟨?_, ?_, ?_⟩
    · show Follows r.verbose past ⟨.evaluate host s text,
        .result (r.evaluate s text host).outcome, (r.evaluate s text host).written⟩
      rw [hw]
      exact .evaluate hn
    · show (r.evaluate s text host).report.verbose = r.verbose
      rw [issues_evaluate]
    · show (r.evaluate s text host).report.issues = _
      rw [issues_evaluate, record_concat, ← hi]
      rfl
  | info words =>
    refine ⟨?_, hsame _ rfl rfl⟩
    show Follows r.verbose past ⟨.info words, .done, r.info words⟩
    rw [info_eq]
    exact .info
  | complain host g =>
    refine ⟨?_, hsame _ rfl rfl⟩
    show Follows r.verbose past ⟨.complain host g,
      .ofFailure (r.complainOn host g).failure, (r.complainOn host g).written⟩
    rw [complainOn_eq, hi]
    exact .complain (shows_complaints host (record past))
  | ok =>
    refine ⟨?_, hsame _ rfl rfl⟩
    have ho : r.ok = decide (record past = []) := by
      rw [← hi, Report.ok, Bool.eq_iff_iff]
      simp
    show Follows r.verbose past ⟨.ok, .flag r.ok, ""⟩
    rw [ho]
    exact .ok
  | sick =>
    refine ⟨?_, hsame _ rfl rfl⟩
    have ho : r.sick = decide (record past ≠ []) := by
      rw [← hi, Report.sick, Bool.eq_iff_iff]
      simp
    show Follows r.verbose past ⟨.sick, .flag r.sick, ""⟩
    rw [ho]
    exact .sick
  | issues =>
    refine ⟨?_, hsame _ rfl rfl⟩
    show Follows r.verbose past ⟨.issues, .errors r.errors, ""⟩
    rw [errors, hi]
    exact .issues
  | reset =>
    refine ⟨.reset, rfl, ?_⟩
    rw [record_concat]
    rfl

/-- **A run**: operations go on with a history, and the report keeps what it puts on record. -/
theorem history_performAll (ops : List Operation) : ∀ {past : List Event} {r : Report},
    History verbose past → Keeps verbose past r →
    History verbose (past ++ (r.performAll ops).2) ∧
      Keeps verbose (past ++ (r.performAll ops).2) (r.performAll ops).1 := by
  induction ops with
  | nil =>
    intro past r hp hk
    rw [performAll, List.append_nil]
    exact ⟨hp, hk⟩
  | cons op ops ih =>
    intro past r hp hk
    obtain ⟨hf, hk⟩ := keeps_perform hk op
    rw [performAll, List.append_cons]
    exact ih (.next hp hf) hk

/-- **The record of a report** over every sequence of operations on it, on any hosts.  Each
    operation replies and writes what follows from the events before it.  The errors that the report
    holds are, in order, those handed to it and those that evaluations ended in since it was cleared
    last, each with its text; it is fine iff there are none, and else sick.  The next evaluation
    adds the error that it ends in, and nothing if it ends otherwise, and what is written of it are
    the lines that tell how far it gets, or nothing if the report is quiet.  The next complaint
    shows each error with its own text, if all of them have their spots within their texts. -/
theorem record_of_operations (verbose : Bool) (ops : List Operation) :
    let r := ((Report.new verbose).performAll ops).1
    let past := ((Report.new verbose).performAll ops).2
    History verbose past ∧ r.issues = record past ∧
    (r.ok = true ↔ record past = []) ∧ (r.sick = true ↔ record past ≠ []) ∧
    (∀ host s text, (r.evaluate s text host).report.issues =
        record past ++ entriesOf text (r.evaluate s text host).outcome ∧
      ∃ lines, Narrates verbose host s text (r.evaluate s text host).outcome lines ∧
        (r.evaluate s text host).written = voiced verbose lines) ∧
    ((∀ i ∈ record past, i.1.IsWithin i.2) → ∀ host g,
      ∃ lines, illustrations host (record past) = .ok lines ∧ r.complainOn host g =
        ⟨opening verbose (record past) g ++ String.join (lines.map (· ++ "\n")), none⟩) := by
  intro r past
  obtain ⟨hh, hv, hi⟩ := history_performAll ops .none (keeps_new verbose)
  have hv : r.verbose = verbose := hv
  have hi : r.issues = record past := hi
  refine ⟨hh, hi, ?_, ?_, fun host s text => ⟨?_, ?_⟩, fun hin host g => ?_⟩
  · rw [← hi, Report.ok, List.isEmpty_iff]
  · rw [← hi, Report.sick]
    simp
  · rw [issues_evaluate, hi]
  · rw [← hv]
    exact narrates_evaluate r host s text
  · rw [← hv, ← hi]
    exact exists_complainOn (by rwa [hi]) host g

/-- A quotient that is forgotten, a parenthesis and a variable: the two are on record, within their
    texts, and are shown. -/
theorem record_of_operations_two :
    let ops : List Operation := [.evaluate .usual .empty "1 / 0", .reset,
      .evaluate .usual .empty "(", .complain .usual .first, .evaluate .usual .empty "1 + 2",
      .issue (.undefinedVariable "x") "x"]
    let r := ((Report.new true).performAll ops).1
    let past := ((Report.new true).performAll ops).2
    record past = [(.unexpectedEnd 1, "("), (.undefinedVariable "x", "x")] ∧
    (∀ i ∈ record past, i.1.IsWithin i.2) ∧
    ∃ lines, illustrations .usual (record past) = .ok lines ∧ r.complainOn .usual .first =
      ⟨opening true (record past) .first ++ String.join (lines.map (· ++ "\n")), none⟩ := by
  intro ops r past
  obtain ⟨-, hi, -, -, -, hshown⟩ := record_of_operations true ops
  have hr : record past = [(.unexpectedEnd 1, "("), (.undefinedVariable "x", "x")] := by
    rw [← hi]
    decide +kernel
  have hin : ∀ i ∈ record past, i.1.IsWithin i.2 := by
    rw [hr]
    simp only [List.mem_cons, List.not_mem_nil, or_false, forall_eq_or_imp, forall_eq]
    constructor
    · rintro p ⟨⟩
      exact ⟨by decide, by decide +kernel⟩
    · rintro p ⟨⟩
  exact ⟨hr, hin, hshown hin .usual .first⟩

end Reckon.Report
