/-
  The program: it reads the command line and standard input, and prints.

  What is printed is decided elsewhere; this module only does it, line by line
  while a person types.
-/
import Reckon.CommandLine.Run

open Reckon Reckon.CommandLine

/-- Writes an output. -/
def emit (o : Output) : IO Unit := do
  let stdout ← IO.getStdout
  let stderr ← IO.getStderr
  stdout.putStr o.stdout
  stdout.flush
  stderr.putStr o.stderr
  stderr.flush

/-- The status of an ending; a failure that nothing caught is reported. -/
def conclude : Ending → IO UInt32
  | .status code => return UInt32.ofNat code
  | .failure f => do
    emit ⟨"", f.text ++ "\n"⟩
    return 1

/-- Answers lines of standard input until it ends or a line says so. -/
partial def answerInput (c : Calculator) (interactive : Bool) (r : Report) : IO UInt32 := do
  emit (Calculator.prompt interactive)
  let line ← (← IO.getStdin).getLine
  if line.isEmpty then return 0
  let turn := c.answerLine r line
  emit turn.output
  match turn.next with
  | .error ending => conclude ending
  | .ok r => answerInput c interactive r

/-- A random choice of words. -/
def chooseGrumble : IO Grumble := do
  let particle ← IO.rand 0 (Grumble.particles.length - 1)
  let outburst ← IO.rand 0 (Grumble.outbursts.length - 1)
  let resignation ← IO.rand 0 (Grumble.resignations.length - 1)
  return ⟨particle, outburst, resignation⟩

def main (args : List String) : IO UInt32 := do
  match start args (← chooseGrumble) with
  | .error e =>
    emit e.transcript.output
    conclude e.transcript.ending
  | .ok c =>
    let report := Report.new c.options.verbose
    match c.options.expression with
    | some text =>
      let t := c.answerOne report text
      emit t.output
      conclude t.ending
    | none => answerInput c (← (← IO.getStdin).isTty) report
