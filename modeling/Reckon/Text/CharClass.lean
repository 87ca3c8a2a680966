/-
  Classes of characters, as a reader of expressions tells them apart.

  Every character is in exactly one class (`CharClass.of`): blank, a decimal
  digit with its value, a letter, another numeral, or none of these.  The
  predicates `isBlank`, `isDigit`, `isLetter`, `isAlphanumeric` ask for a class
  and so never overlap where the classes do not.

  * `stripRight`, `strip`: a text without the blanks at its end, at both ends.
-/
import Reckon.Text.Blank
import Reckon.Text.Letter
import Reckon.Text.Numeral

namespace Reckon.Text

/-- What a character counts as. -/
inductive CharClass where
  /-- It separates words. -/
  | blank
  /-- A decimal digit of some script, with its value. -/
  | digit (value : Nat)
  /-- A letter of some script. -/
  | letter
  /-- A number sign that is no decimal digit. -/
  | numeral
  /-- Punctuation, marks, symbols and everything else. -/
  | other
  deriving DecidableEq

/-- A numeral that is no decimal digit. -/
def isNumeral (c : Char) : Bool :=
  leadingNumerals.has c || innerNumerals.has c || looseNumerals.has c

/-- The class of a character; an earlier class wins over a later one. -/
def CharClass.of (c : Char) : CharClass :=
  if blanks.has c then .blank
  else match digitValue? c with
    | some v => .digit v
    | none => if letters.has c then .letter else if isNumeral c then .numeral else .other

/-- A blank character. -/
def isBlank (c : Char) : Bool := blanks.has c

/-- A decimal digit of any script. -/
def isDigit (c : Char) : Bool :=
  match CharClass.of c with
  | .digit _ => true
  | _ => false

/-- A letter of any script. -/
def isLetter (c : Char) : Bool := CharClass.of c = .letter

/-- A letter, a decimal digit or another numeral. -/
def isAlphanumeric (c : Char) : Bool :=
  match CharClass.of c with
  | .digit _ | .letter | .numeral => true
  | .blank | .other => false

theorem isBlank_iff {c : Char} : isBlank c = true ↔ CharClass.of c = .blank := by
  unfold isBlank CharClass.of
  split
  · simp_all
  · split <;> (try split) <;> (try split) <;> simp_all

theorem isDigit_iff {c : Char} : isDigit c = true ↔ ∃ v, CharClass.of c = .digit v := by
  unfold isDigit
  split <;> simp_all

/-! ## Stripping blanks -/

/-- The text without the blanks at its end. -/
def stripRight (cs : List Char) : List Char :=
  (cs.reverse.dropWhile isBlank).reverse

/-- The text without the blanks at either end. -/
def strip (cs : List Char) : List Char :=
  stripRight (cs.dropWhile isBlank)

end Reckon.Text
