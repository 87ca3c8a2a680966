/-
  Everything that can go wrong with an expression, and how to explain it.

  An error is a text that is no expression (`Family.parse`), an expression without
  a value (`Family.evaluation`) or a value of the wrong kind (`Family.result`).

  * `Error.message` is a line for a person, `Error.illustrate` adds a picture of
    the guilty spot where the error knows one;
  * `Error.kind` and `Error.fields` are the same for a program, and
    `Error.display` writes them out.
-/
import Reckon.Text.Picture
import Reckon.Text.Quoted
import Reckon.Decimal.Digits

namespace Reckon

open Text (quote)
open Decimal (intText)

/-- What is wrong with an expression.  Positions count the characters before the spot. -/
inductive Error where
  /-- A character that no token begins with. -/
  | unexpectedCharacter (char : String) (position : Int)
  /-- A numeral that is no number. -/
  | malformedNumber (lexeme : String) (position : Int)
  /-- A token that cannot stand where it does, or nests too deep. -/
  | unexpectedToken (token : String) (position : Int)
  /-- A parenthesis that is never closed. -/
  | unmatchedParen (position : Int)
  /-- The text ends where an operand is due. -/
  | unexpectedEnd (position : Int)
  /-- A variable without a definition. -/
  | undefinedVariable (name : String)
  /-- A call of an unknown function. -/
  | undefinedFunction (name : String)
  /-- A call with the wrong number of arguments. -/
  | argCount (name : String) (expected actual : Int)
  /-- A division by zero; the position is that of the operator. -/
  | divisionByZero (op : String) (position : Option Int)
  /-- An operator or function at a value where it has no answer. -/
  | domainError (name reason : String)
  /-- A result of another kind than asked for. -/
  | typeMismatch (expected actual : String)
  deriving DecidableEq

namespace Error

/-! ## Structure -/

/-- The stage at which an error shows. -/
inductive Family where
  /-- The text is not a well-formed expression. -/
  | parse
  /-- The expression has no value. -/
  | evaluation
  /-- The value is not of the kind asked for. -/
  | result
  deriving DecidableEq

/-- The family of an error. -/
def family : Error → Family
  | unexpectedCharacter .. | malformedNumber .. | unexpectedToken .. | unmatchedParen ..
  | unexpectedEnd .. => .parse
  | undefinedVariable .. | undefinedFunction .. | argCount .. | divisionByZero ..
  | domainError .. => .evaluation
  | typeMismatch .. => .result

/-- A detail of an error. -/
inductive Field where
  | text (value : String)
  | count (value : Int)
  | absent
  deriving DecidableEq

/-- The name of the kind of error. -/
def kind : Error → String
  | unexpectedCharacter .. => "UnexpectedCharacter"
  | malformedNumber .. => "MalformedNumber"
  | unexpectedToken .. => "UnexpectedToken"
  | unmatchedParen .. => "UnmatchedParen"
  | unexpectedEnd .. => "UnexpectedEnd"
  | undefinedVariable .. => "UndefinedVariable"
  | undefinedFunction .. => "UndefinedFunction"
  | argCount .. => "ArgCount"
  | divisionByZero .. => "DivisionByZero"
  | domainError .. => "DomainError"
  | typeMismatch .. => "TypeMismatch"

/-- The details, in order. -/
def fields : Error → List Field
  | unexpectedCharacter s p | malformedNumber s p | unexpectedToken s p => [.text s, .count p]
  | unmatchedParen p | unexpectedEnd p => [.count p]
  | undefinedVariable s | undefinedFunction s => [.text s]
  | argCount s m n => [.text s, .count m, .count n]
  | divisionByZero s none => [.text s, .absent]
  | divisionByZero s (some p) => [.text s, .count p]
  | domainError s t | typeMismatch s t => [.text s, .text t]

/-- The spot in the text, if the error has one. -/
def position? : Error → Option Int
  | unexpectedCharacter _ p | malformedNumber _ p | unexpectedToken _ p | unmatchedParen p
  | unexpectedEnd p => some p
  | divisionByZero _ p => p
  | undefinedVariable .. | undefinedFunction .. | argCount .. | domainError ..
  | typeMismatch .. => none

/-! ## Explanation -/

/-- A line for a person. -/
def message : Error → String
  | unexpectedCharacter s p => "Unexpected character " ++ quote s ++ " at position " ++ intText p
  | malformedNumber s p => "Malformed number " ++ quote s ++ " at position " ++ intText p
  | unexpectedToken s p => "Unexpected " ++ quote s ++ " at position " ++ intText p
  | unmatchedParen p => "The parenthesis at position " ++ intText p ++ " is never closed"
  | unexpectedEnd p => "The expression ends too soon, at position " ++ intText p
  | undefinedVariable s => "Undefined variable " ++ quote s
  | undefinedFunction s => "Undefined function " ++ quote s
  | argCount s m n =>
    "Function " ++ quote s ++ " takes " ++ intText m ++ " argument" ++
      (if m = 1 then "" else "s") ++ ", but got " ++ intText n
  | divisionByZero s none => "Division by zero in '" ++ s ++ "'"
  | divisionByZero s (some p) => "Division by zero in '" ++ s ++ "' at position " ++ intText p
  | domainError s t => "Math domain error in " ++ quote s ++ ": " ++ t
  | typeMismatch s t => "Expected an " ++ s ++ " result but got a " ++ t

/-- The number of characters to point at. -/
def width : Error → Nat
  | malformedNumber s _ | unexpectedToken s _ => s.length
  | _ => 1

/-- What to write beside the spot. -/
def caption : Error → String
  | unexpectedCharacter .. => "not part of any expression"
  | malformedNumber .. => "too many decimal points"
  | unmatchedParen .. => "needs a matching ')'"
  | unexpectedEnd .. => "expected more here"
  | divisionByZero .. => "right-hand side is zero"
  | _ => ""

/-- What to point at in the text, if the error has a position. -/
def pointer? (e : Error) : Option Text.Pointer :=
  e.position?.map fun p => ⟨p, e.width, e.caption⟩

/-- What the error points at, if anything, is within the text. -/
def IsWithin (e : Error) (text : String) : Prop := ∀ p ∈ e.pointer?, p.IsWithin text

/-- The message and, below it, the picture if there is one. -/
def illustrated (e : Error) : Option String → String
  | none => e.message
  | some picture => e.message ++ "\n" ++ picture

/-- The message and, where the error has a position, a picture of the text there. -/
def illustrate (e : Error) (text : String) : String := e.illustrated (e.pointer?.map (·.draw text))

/-! ## Display -/

/-- A detail in writing. -/
def Field.display : Field → String
  | text s => quote s
  | count n => intText n
  | absent => "None"

/-- The kind and the details; a lone detail is followed by a comma. -/
def display (e : Error) : String :=
  let shown := ", ".intercalate (e.fields.map Field.display)
  e.kind ++ "(" ++ shown ++ (if e.fields.length = 1 then "," else "") ++ ")"

/-- How many different errors a list holds. -/
def countDistinct (es : List Error) : Nat :=
  (es.foldl (fun seen e => if e ∈ seen then seen else e :: seen) []).length

end Error

end Reckon
