/-
  What the calculator does with a command line.

  With an expression on the command line it answers that, and the exit status
  tells whether there was an answer.  Without one it answers the lines of its
  input, up to the end or to a line that says `quit` or `exit`; a line without an
  answer does not stop it.

  * `Calculator.prepare` evaluates the definitions of the command line;
  * `Calculator.attempt` answers one expression, `Calculator.answerLine` a line of input;
  * `Options.carryOut` does what the options ask for, `run` is all of it, from the command
    line and the input to the output.
-/
import Reckon.CommandLine.Options
import Reckon.Number.Rounding
import Reckon.Report
import Reckon.Solve
import Reckon.Text.Name

namespace Reckon.CommandLine

open Text (quote strip isName)

/-! ## Output -/

/-- What is written to standard output and to standard error. -/
structure Output where
  stdout : String
  stderr : String
  deriving DecidableEq

namespace Output

/-- Nothing. -/
def empty : Output := ⟨"", ""⟩

/-- One output after another. -/
def append (a b : Output) : Output := ⟨a.stdout ++ b.stdout, a.stderr ++ b.stderr⟩

instance : Append Output := ⟨append⟩

end Output

/-- How a run ends: with an exit status, or with a failure that nothing catches. -/
inductive Ending where
  | status (code : Nat)
  | failure (f : Failure)
  deriving DecidableEq

/-- A run as it is seen from outside. -/
structure Transcript where
  output : Output
  ending : Ending
  deriving DecidableEq

/-! ## Answers -/

/-- What an answer is computed with. -/
structure Calculator where
  options : Options
  definitions : Definitions
  grumble : Grumble
  host : Host

/-- The definition that a word gives, or the reason why it gives none. -/
def definition (pair : String) (d : Definitions) : Except Exit Definitions :=
  match splitEquals pair.toList with
  | (_, none) => .error (.misuse ("expected NAME=VALUE, not " ++ quote pair))
  | (name, some text) =>
    let name := String.ofList name
    if !isName name then .error (.misuse ("expected NAME=VALUE, not " ++ quote pair))
    else
      match evaluatePlain (String.ofList text) with
      | .ok n => .ok (d.insert name n)
      | .error (.error e) => .error (.misuse ("cannot define " ++ name ++ ": " ++ e.message))
      | .error f => .error (.failure f)

namespace Calculator

/-- The definitions after one more of the command line. -/
def define (d : Definitions) : Option String → Except Exit Definitions
  | none => .error (.failure (.omitted .definition))
  | some pair => definition pair d

/-- A calculator with the definitions of the command line. -/
def prepare (o : Options) (g : Grumble) (host : Host) : Except Exit Calculator := do
  let d ← o.definitions.foldlM Calculator.define (Registry.empty : Definitions)
  return ⟨o, d, g, host⟩

/-- The names that expressions may use: the definitions and the standard functions. -/
def scope (c : Calculator) : Scope := Scope.of c.definitions.plain Functions.standard

/-- A float rounded as asked for.  What is not finite stays as it is under any rounding. -/
def round (precision : Precision) (x : Float) : Except Failure Float :=
  match precision with
  | .full => .ok x
  | .places n => Failure.ofFault (Number.roundTo x n)
  | .unstated => if x.isFinite then .error (.omitted .places) else .ok x

/-- An answer as it is printed: rounded if it is a float or shall be one. -/
def render (o : Options) (n : Number) : Except Failure String :=
  if o.float || !n.isInteger then do
    let x ← Failure.ofFault n.toFloat
    return Binary64.text (← round o.precision x)
  else Failure.ofFault n.writeText

/-- What one expression comes to: what is written, and whether there is an answer, along with
    the report to go on with. -/
structure Attempt where
  output : Output
  result : Except Failure (Bool × Report)

/-- Answers an expression, or shows what is wrong with it. -/
def attempt (c : Calculator) (r : Report) (text : String) : Attempt :=
  let told := r.evaluate c.scope text c.host
  match told.outcome with
  | .ok n =>
    match render c.options n with
    | .ok line => ⟨⟨line ++ "\n", told.written⟩, .ok (true, told.report)⟩
    | .error f => ⟨⟨"", told.written⟩, .error f⟩
  | .error (.error _) =>
    let shown := told.report.complainOn c.host c.grumble
    match shown.failure with
    | none => ⟨⟨"", told.written ++ shown.written⟩, .ok (false, told.report.reset)⟩
    | some f => ⟨⟨"", told.written ++ shown.written⟩, .error f⟩
  | .error f => ⟨⟨"", told.written⟩, .error f⟩

/-! ## Lines -/

/-- What to do with a line of input. -/
inductive Request where
  | stop
  | skip
  | answer (text : String)

/-- The request of a line, blanks at its ends aside. -/
def Request.ofLine (line : String) : Request :=
  let text := String.ofList (strip line.toList)
  if text = "quit" ∨ text = "exit" then .stop
  else if text = "" then .skip
  else .answer text

/-- The sign that a person may type the next line. -/
def prompt (interactive : Bool) : Output := ⟨if interactive then "> " else "", ""⟩

/-- What a line comes to: what is written, and the report to go on with or the end of the run. -/
structure Turn where
  output : Output
  next : Except Ending Report

/-- Answers a line of input. -/
def answerLine (c : Calculator) (r : Report) (line : String) : Turn :=
  match Request.ofLine line with
  | .stop => ⟨.empty, .error (.status 0)⟩
  | .skip => ⟨.empty, .ok r⟩
  | .answer text =>
    let a := c.attempt r text
    match a.result with
    | .error f => ⟨a.output, .error (.failure f)⟩
    | .ok (_, r) => ⟨a.output, .ok r⟩

/-- Answers lines of input one by one. -/
def answerLines (c : Calculator) (interactive : Bool) (r : Report) : List String → Transcript
  | [] => ⟨prompt interactive, .status 0⟩
  | line :: rest =>
    let turn := c.answerLine r line
    let before := prompt interactive ++ turn.output
    match turn.next with
    | .error ending => ⟨before, ending⟩
    | .ok r =>
      let t := answerLines c interactive r rest
      { t with output := before ++ t.output }

/-- Answers the expression of the command line. -/
def answerOne (c : Calculator) (r : Report) (text : String) : Transcript :=
  let a := c.attempt r text
  match a.result with
  | .error f => ⟨a.output, .failure f⟩
  | .ok (answered, _) => ⟨a.output, .status (if answered then 0 else 1)⟩

end Calculator

/-! ## Runs -/

/-- Characters cut after each line feed.  A last line need not be ended. -/
def cutLines : List Char → List (List Char)
  | [] => []
  | c :: rest =>
    if c = '\n' then [c] :: cutLines rest
    else match cutLines rest with
      | [] => [[c]]
      | line :: more => (c :: line) :: more

/-- No character is lost between lines. -/
theorem flatten_cutLines (cs : List Char) : (cutLines cs).flatten = cs := by
  fun_induction cutLines cs with
  | case1 => rfl
  | case2 rest ih => simp [ih]
  | case3 c rest _ h ih => simp_all
  | case4 c rest _ line more h ih => simp_all

/-- A line feed is at the end of a line only. -/
theorem not_mem_dropLast_of_mem_cutLines (cs : List Char) :
    ∀ line ∈ cutLines cs, line ≠ [] ∧ '\n' ∉ line.dropLast := by
  fun_induction cutLines cs with
  | case1 => simp
  | case2 rest ih => simpa using ih
  | case3 c rest _ h ih => simp
  | case4 c rest hc line more h ih =>
    rw [h, List.forall_mem_cons] at ih
    obtain ⟨⟨hne, hn⟩, hmore⟩ := ih
    rw [List.forall_mem_cons, List.dropLast_cons_of_ne_nil hne]
    exact ⟨⟨by simp, by simp [hn, Ne.symm hc]⟩, hmore⟩

/-- The lines of an input, each with the line feed that ends it. -/
def inputLines (input : String) : List String := (cutLines input.toList).map String.ofList

/-- The end of a command line that is not carried out. -/
def Exit.transcript : Exit → Transcript
  | help => ⟨⟨helpText, ""⟩, .status 0⟩
  | misuse message => ⟨⟨"", misuseText message⟩, .status 2⟩
  | failure f => ⟨Output.empty, .failure f⟩

/-- The calculator of a command line. -/
def start (texts : List String) (g : Grumble) : Except Exit Calculator := do
  let o ← Options.parse texts
  Calculator.prepare o g .usual

/-- A run for what a command line asks for: its expression is answered or, without one, the lines
    of the input. -/
def Options.carryOut (o : Options) (input : String) (interactive : Bool) (g : Grumble)
    (host : Host) : Transcript :=
  match Calculator.prepare o g host with
  | .error e => e.transcript
  | .ok c =>
    let report := Report.new o.verbose
    match o.expression with
    | some text => c.answerOne report text
    | none => c.answerLines interactive report (inputLines input)

/-- A run of the program: command line, input, whether a person types the input, and the words
    to grumble in. -/
def run (texts : List String) (input : String) (interactive : Bool) (g : Grumble) : Transcript :=
  match Options.parse texts with
  | .error e => e.transcript
  | .ok o => o.carryOut input interactive g .usual

end Reckon.CommandLine
