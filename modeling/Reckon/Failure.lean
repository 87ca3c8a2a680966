/-
  Plain values, and everything that can end a calculation.

  Callers hand in plain values: numbers, but also what is none.  `Number.ofPlain`
  tells them apart.

  * `Rejection`: a value that cannot be what it is handed in for;
  * `Omission`: a value that is needed and was left out;
  * `Failure`: an error in the expression, a fault or a rejection outside of any
    operator, an omission, or whatever a caller's function or the machine failed with.
-/
import Reckon.Number.Basic
import Reckon.Error

namespace Reckon

/-! ## Plain values -/

/-- A value as callers hand it in. -/
inductive PlainValue where
  | number (value : Number)
  | flag (value : Bool)
  | text (value : String)
  | nothing
  deriving DecidableEq

/-- A plain value in writing. -/
def PlainValue.display : PlainValue → String
  | number n => n.text
  | flag true => "True"
  | flag false => "False"
  | text s => Text.quote s
  | nothing => "None"

/-- A value that cannot be what it is handed in for. -/
inductive Rejection where
  /-- It should be a number. -/
  | notNumber (value : PlainValue)
  /-- It should be a name. -/
  | notName (value : PlainValue)
  /-- It should be a function. -/
  | notFunction (value : PlainValue)
  deriving DecidableEq

/-- The explanation of a rejection. -/
def Rejection.message : Rejection → String
  | notNumber (.flag b) => "a flag is not a number: " ++ (PlainValue.flag b).display
  | notNumber v => "not a number: " ++ v.display
  | notName v => v.display
  | notFunction v => v.display ++ " is not callable"

/-- A value that an option leaves out and that is needed after all. -/
inductive Omission where
  /-- The number of decimal places to round to. -/
  | places
  /-- The name and value of a definition. -/
  | definition
  deriving DecidableEq

/-- The explanation of an omission. -/
def Omission.message : Omission → String
  | places => "'>' not supported between instances of 'list' and 'int'"
  | definition => "'list' object has no attribute 'partition'"

/-- A plain value as a number. -/
def Number.ofPlain : PlainValue → Except Rejection Number
  | .number n => .ok n
  | v => .error (.notNumber v)

/-- A plain value as a name. -/
def PlainValue.name : PlainValue → Except Rejection String
  | text s => .ok s
  | v => .error (.notName v)

/-! ## Failures -/

/-- What ends a calculation. -/
inductive Failure where
  /-- The expression is at fault. -/
  | error (e : Error)
  /-- Arithmetic outside of the expression's operators is at fault. -/
  | fault (f : Fault)
  /-- A value is not what it should be. -/
  | rejected (r : Rejection)
  /-- A value is missing. -/
  | omitted (o : Omission)
  /-- An operator sign without a meaning, which only a hand-made token has. -/
  | unknownOperator (glyph : String)
  /-- What is not of the calculator, such as a caller's function, failed in a way of its own. -/
  | foreign (kind message : String)
  deriving DecidableEq

/-- A failure in words. -/
def Failure.text : Failure → String
  | error e => e.message
  | fault f => f.message
  | rejected r => r.message
  | omitted o => o.message
  | unknownOperator g => "unknown operator " ++ Text.quote g
  | foreign kind message => kind ++ ": " ++ message

/-- The stack is full.  What was going on at that moment is left out of the message. -/
def Failure.outOfRoom : Failure := .foreign "RecursionError" "maximum recursion depth exceeded"

/-- The results of reading, as steps of a calculation. -/
def Failure.ofError (r : Except Error α) : Except Failure α := r.mapError .error

/-- The results of arithmetic, as steps of a calculation. -/
def Failure.ofFault (r : Except Fault α) : Except Failure α := r.mapError .fault

/-- The results of handing in a value, as steps of a calculation. -/
def Failure.ofRejection (r : Except Rejection α) : Except Failure α := r.mapError .rejected

end Reckon
