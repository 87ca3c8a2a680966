/-
  Reading the tokens of a text.

  A token is as long as it can be: a numeral is a digit and the digits and dots
  after it, a word a letter or underscore and the letters, numerals and
  underscores after it, and every other token is a single sign.  Blanks between
  tokens are skipped.

  * `Number.read?` is the number of a numeral, `Lexeme.sign?` the lexeme of a
    sign, `Token.read` the token that a run of characters is;
  * `Token.scan` reads a text, up to its first fault.
-/
import Reckon.Token.Basic
import Reckon.Text.CharClass
import Reckon.Error

namespace Reckon

open Text

/-! ## Characters -/

/-- Characters of a numeral after its first digit. -/
def continuesNumeral (c : Char) : Bool := isDigit c || c = '.'

/-- First characters of a word. -/
def beginsWord (c : Char) : Bool := isLetter c || c = '_'

/-- Characters of a word after its first. -/
def continuesWord (c : Char) : Bool := isAlphanumeric c || c = '_'

/-- Whether a character goes on with the token that begins with another. -/
def continuesToken (first c : Char) : Bool :=
  if isDigit first then continuesNumeral c
  else if beginsWord first then continuesWord c
  else false

/-! ## Lexemes -/

/-- The number that a numeral writes.  Without a dot it is an integer, of at most
    `digitLimit` digits; with one dot the nearest float, which must be finite. -/
def Number.read? (cs : List Char) : Option Number :=
  let digits := Decimal.ofDigits (cs.filterMap digitValue?)
  match cs.count '.' with
  | 0 => if cs.length ≤ Decimal.digitLimit then some (.int digits) else none
  | 1 =>
    let places : Int := (cs.dropWhile (· ≠ '.')).length - 1
    let x := Binary64.ofDecimal digits (-places)
    if x.isFinite then some (.float x) else none
  | _ => none

/-- The tokens that are one sign. -/
def Lexeme.sign? (c : Char) : Option Lexeme :=
  if c = '(' then some .opening
  else if c = ')' then some .closing
  else if c = ',' then some .comma
  else if c = '÷' then some (.operator "/")
  else if c ∈ ['+', '-', '*', '/', '%', '^'] then some (.operator (String.singleton c))
  else none

/-- What the token with the given first and further characters stands for. -/
def Token.read (spot : Nat) (first : Char) (more : List Char) : Except Error Token :=
  let text := String.ofList (first :: more)
  if isDigit first then
    match Number.read? (first :: more) with
    | some n => .ok ⟨text, spot, .number n⟩
    | none => .error (.malformedNumber text spot)
  else if beginsWord first then .ok ⟨text, spot, .name text⟩
  else match Lexeme.sign? first with
    | some l => .ok ⟨text, spot, l⟩
    | none => .error (.unexpectedCharacter text spot)

/-! ## Texts -/

/-- The tokens of the rest of a text, before which there are `spot` characters. -/
def Token.scanFrom (spot : Nat) : List Char → Except Error (List Token)
  | [] => .ok []
  | c :: rest =>
    if isBlank c then scanFrom (spot + 1) rest
    else do
      let more := rest.takeWhile (continuesToken c)
      let token ← Token.read spot c more
      let tokens ← scanFrom (spot + 1 + more.length) (rest.dropWhile (continuesToken c))
      return token :: tokens
termination_by cs => cs.length
decreasing_by
  · simp
  · have := (List.dropWhile_suffix (continuesToken c) (l := rest)).length_le
    simp only [List.length_cons]
    omega

/-- The tokens of a text, or what is wrong with the first character or numeral that is none. -/
def Token.scan (text : String) : Except Error (List Token) := scanFrom 0 text.toList

end Reckon
