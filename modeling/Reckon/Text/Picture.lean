/-
  Pictures: a line of a text with the guilty spot underlined.

  ```text
     1 |2 * (3 + $)
                 ^ not part of any expression
  ```

  * `lines` cuts a text after each line break, which is `\r\n`, `\r` or `\n`;
    joined, the lines are the text again (`flatten_lines`), and a text that ends
    in a break has an empty last line;
  * `Place.find` finds the line of a position.  A position past the end is on
    the last line.  One before the text is shown at the left of the first line, which
    is then numbered 0;
  * `Pointer.draw` draws the picture that the program shows.  Others could be shown as well:
    what goes by pictures is stated for any way to draw them (`Host`).
-/
import Reckon.Text.CharClass

namespace Reckon.Text

/-! ## Lines -/

/-- The lines of a text, each with the break that ends it. -/
def lines : List Char → List (List Char)
  | [] => [[]]
  | '\r' :: '\n' :: rest => ['\r', '\n'] :: lines rest
  | c :: rest =>
    if c = '\r' ∨ c = '\n' then [c] :: lines rest
    else match lines rest with
      | [] => [[c]]
      | line :: more => (c :: line) :: more

/-- No character is lost between lines. -/
theorem flatten_lines (cs : List Char) : (lines cs).flatten = cs := by
  fun_induction lines cs with
  | case1 => rfl
  | case2 rest ih => simp [ih]
  | case3 c rest _ _ ih => simp [ih]
  | case4 c rest _ _ h ih => simp_all
  | case5 c rest _ _ line more h ih => simp_all

/-- A position by line: the line's number, counted from 1 at the first, the column and the line
    itself. -/
structure Place where
  row : Nat
  col : Int
  line : List Char

/-- The place of a position among lines of which the first has the number `row`
    and begins at `start`. -/
def Place.findFrom (row start : Nat) (position : Int) : List (List Char) → Place
  | [] => ⟨row, position - start, []⟩
  | [line] => ⟨row, position - start, line⟩
  | line :: more =>
    if position < start + line.length then ⟨row, position - start, line⟩
    else findFrom (row + 1) (start + line.length) position more

/-- The place of a position in a text.  A column before the text is counted from the text's end,
    so that it is at the left of any line. -/
def Place.find (cs : List Char) (position : Int) : Place :=
  if position < 0 then ⟨0, position - cs.length, (lines cs).headD []⟩
  else findFrom 1 0 position (lines cs)

/-! ## Drawing -/

/-- What a picture points at: a number of characters from a position on, and what to say of them. -/
structure Pointer where
  position : Int
  width : Nat
  caption : String

/-- The position is one of the text or its end. -/
def Pointer.IsWithin (p : Pointer) (text : String) : Prop :=
  0 ≤ p.position ∧ p.position ≤ text.length

/-- The margin of a line: its number in four columns, a blank before it, and a bar. -/
def margin (row : Nat) : List Char :=
  (' ' :: Nat.toDigits 10 row).leftpad 4 ' ' ++ [' ', '|']

/-- Blank space as wide as the text, its tabs kept so that the columns agree. -/
def blankOut (cs : List Char) : List Char :=
  cs.map fun c => if c = '\t' then c else ' '

/-- The number of carets: the width, as far as the line goes, and at least one. -/
def Pointer.carets (p : Pointer) (place : Place) : Nat :=
  max 1 (min p.width (place.line.length - place.col).toNat)

/-- The line pointed at and, below it, the carets and the caption. -/
def Pointer.draw (p : Pointer) (text : String) : String :=
  let place := Place.find text.toList p.position
  let shown := margin place.row ++ stripRight place.line
  let indent := blankOut (margin place.row ++ place.line.take place.col.toNat)
  String.ofList (shown ++ '\n' :: indent ++ List.replicate (p.carets place) '^') ++ " " ++ p.caption

example : Pointer.draw ⟨1, 5, "here"⟩ "\t$\n2" = "   1 |\t$\n      \t^^ here" := by decide +kernel

example : Pointer.draw ⟨9, 1, "end"⟩ "1\n2 +" = "   2 |2 +\n         ^ end" := by decide +kernel

example : Pointer.draw ⟨-1, 1, "before"⟩ "1\n2 +" = "   0 |1\n      ^ before" := by decide +kernel

end Reckon.Text
