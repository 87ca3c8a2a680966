/-
  Tokens: the words of an expression, each with its text and its place.

  A token list may also be given by hand, so a token can be of a kind that no
  text yields (`Lexeme.other`), and its lexeme need not agree with its text.
-/
import Reckon.Number.Arithmetic

namespace Reckon

/-- What a token stands for. -/
inductive Lexeme where
  | number (value : Number)
  /-- A variable or a function. -/
  | name (word : String)
  /-- An operator, by its sign. -/
  | operator (glyph : String)
  | opening
  | closing
  | comma
  /-- A kind of token that no expression holds. -/
  | other (kind : String)
  deriving DecidableEq

/-- A token: its text, the number of characters before it, and what it stands for. -/
structure Token where
  text : String
  spot : Int
  lexeme : Lexeme
  deriving DecidableEq

namespace Token

/-- The position just after a token. -/
def stop (t : Token) : Int := t.spot + t.text.length

/-- The position just after a list of tokens, zero for none. -/
def endOf (ts : List Token) : Int :=
  match ts.getLast? with
  | none => 0
  | some t => t.stop

/-- The texts of tokens, a blank between. -/
def joined (ts : List Token) : String := " ".intercalate (ts.map Token.text)

/-! ## Operators by precedence

  An operator without a sign, which only a hand-made token has, passes for a
  power and for a minus. -/

/-- The sign of a sum or difference. -/
def additive? (t : Token) : Option String :=
  match t.lexeme with
  | .operator g => if g = "+" ∨ g = "-" then some g else none
  | _ => none

/-- The sign of a product, quotient or remainder. -/
def multiplicative? (t : Token) : Option String :=
  match t.lexeme with
  | .operator g => if g = "*" ∨ g = "/" ∨ g = "%" then some g else none
  | _ => none

/-- The sign of a power. -/
def power? (t : Token) : Option String :=
  match t.lexeme with
  | .operator g => if g = "^" ∨ g = "" then some g else none
  | _ => none

/-- The sign of a negation. -/
def negation? (t : Token) : Option String :=
  match t.lexeme with
  | .operator g => if g = "-" ∨ g = "" then some g else none
  | _ => none

end Token

end Reckon
