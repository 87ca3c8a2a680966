/-
  Reports: what went wrong in a number of evaluations and, if wanted, an account
  of what went right.

  A report is a value.  What its operations write for a person to read is their
  result, line by line; printing it is left to others.

  * `Report.evaluate` evaluates a text, tells of each phase if the report is
    verbose, and records an error of the expression together with its text;
  * `Report.complainOn` shows the recorded errors, after a grumble if the report is
    verbose (`Grumble`).

  Telling of a tree and showing an error can fail, as the host has it (`Host`).
-/
import Reckon.Expr.Evaluate
import Reckon.Host

namespace Reckon

/-! ## Grumbles -/

/-- A choice of words for a grumble, by their place among the alternatives. -/
structure Grumble where
  particle : Nat
  outburst : Nat
  resignation : Nat

namespace Grumble

/-- Ways to begin. -/
def particles : List String := ["Oh, ", "Hmm, ", "Well, ", ""]

/-- Ways to be annoyed. -/
def outbursts : List String := ["Drat", "Fiddlesticks", "Rats", "Bother", "Nuts", "Good Grief"]

/-- Ways to give up. -/
def resignations : List String :=
  ["That does not compute.", "The numbers will not cooperate.", "I cannot make sense of that."]

/-- The first alternatives. -/
def first : Grumble := ⟨0, 0, 0⟩

/-- The grumble in words. -/
def text (g : Grumble) : String :=
  particles.getD g.particle "" ++ outbursts.getD g.outburst "" ++ "! " ++
    resignations.getD g.resignation ""

end Grumble

/-! ## Reports -/

/-- The errors recorded, each with the text it was found in, and whether to tell of successes. -/
structure Report where
  verbose : Bool
  issues : List (Error × String)

namespace Report

/-- A report without any errors. -/
def new (verbose : Bool) : Report := ⟨verbose, []⟩

/-- Nothing is recorded. -/
def ok (r : Report) : Bool := r.issues.isEmpty

/-- Something is recorded. -/
def sick (r : Report) : Bool := !r.issues.isEmpty

/-- The report with its record cleared. -/
def reset (r : Report) : Report := { r with issues := [] }

/-- The report with one more error. -/
def issue (r : Report) (e : Error) (text : String) : Report :=
  { r with issues := r.issues ++ [(e, text)] }

/-- The recorded errors in order. -/
def errors (r : Report) : List Error := r.issues.map (·.1)

/-- A line of information, if the report is verbose. -/
def info (r : Report) (words : List String) : String :=
  if r.verbose then " ".intercalate words ++ "\n" else ""

/-- What is written for a person to read, and what cut it short, if anything did. -/
structure Shown where
  written : String
  failure : Option Failure

/-- Recorded errors as they are shown, up to one that cannot be drawn. -/
def complaints (host : Host) : List (Error × String) → Shown
  | [] => ⟨"", none⟩
  | (e, text) :: rest =>
    match host.illustrate e text with
    | .error f => ⟨"", some f⟩
    | .ok shown =>
      let more := complaints host rest
      { more with written := shown ++ "\n" ++ more.written }

/-- The recorded errors as they are shown, after a grumble if the report is verbose and there
    are any. -/
def complainOn (r : Report) (host : Host) (g : Grumble) : Shown :=
  let shown := complaints host r.issues
  { shown with
    written := (if r.sick && r.verbose then g.text ++ "\n" else "") ++ shown.written }

/-- The recorded errors as the program shows them. -/
def complain (r : Report) (g : Grumble) : String := (r.complainOn .usual g).written

/-- A host that draws as the program does shows whatever is recorded, wherever its spot is. -/
theorem failure_complaints_ofRoom (room : Nat) : ∀ issues : List (Error × String),
    (complaints (.ofRoom room) issues).failure = none
  | [] => rfl
  | (e, text) :: rest => by
    rw [complaints, Host.illustrate_ofRoom]
    exact failure_complaints_ofRoom room rest

/-- A complaint of the program is not cut short. -/
theorem complainOn_usual (r : Report) (g : Grumble) :
    r.complainOn .usual g = ⟨r.complain g, none⟩ := by
  have h : (r.complainOn .usual g).failure = none := failure_complaints_ofRoom 496 r.issues
  rw [complain, ← h]

/-! ## Evaluation with a report -/

/-- What an evaluation comes to: its outcome, the report after it, what was written, and the
    functions run. -/
structure Told where
  outcome : Except Failure Number
  report : Report
  written : String
  runs : Array Run

/-- An evaluation that ends in a failure; an error of the expression is recorded. -/
def failed (r : Report) (text written : String) (runs : Array Run) (f : Failure) : Told :=
  match f with
  | .error e => ⟨.error f, r.issue e text, written, runs⟩
  | _ => ⟨.error f, r, written, runs⟩

/-- The line that tells of a tree, if the report is verbose.  It is begun before it is known
    whether the tree can be written. -/
def tellTree (r : Report) (host : Host) (e : Expr) : Shown :=
  if r.verbose then
    match host.write e with
    | .error f => ⟨"Tree: ", some f⟩
    | .ok tree => ⟨r.info ["Tree:", tree], none⟩
  else ⟨"", none⟩

/-- The line that tells of a result.  The result must be fit to be written, also if it is not. -/
def tellResult (r : Report) (n : Number) : Except Failure String := do
  let result ← Failure.ofFault n.writeDisplay
  return r.info ["Result:", result]

/-- Evaluates a text and reports on each phase. -/
def evaluate (r : Report) (s : Scope) (text : String) (host : Host := .usual) : Told :=
  match Token.scan text with
  | .error e => r.failed text "" #[] (.error e)
  | .ok tokens =>
    let told := r.info ["Tokens:", Token.joined tokens]
    match Expr.parse tokens with
    | .error e => r.failed text told #[] (.error e)
    | .ok tree =>
      let line := r.tellTree host tree
      let told := told ++ line.written
      match line.failure with
      | some f => r.failed text told #[] f
      | none =>
        match (tree.evaluate s).outcome with
        | (.error f, runs) => r.failed text told runs f
        | (.ok n, runs) =>
          match r.tellResult n with
          | .error f => r.failed text told runs f
          | .ok line => ⟨.ok n, r, told ++ line, runs⟩

end Report

end Reckon
