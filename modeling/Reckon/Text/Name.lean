/-
  Names: a letter or underscore, then letters, digits, numerals, marks and
  connectors, by the identifier rule of Unicode 14.

  * `isName`: the whole text is a name.  The rule is wider than that for words
    in expressions: it lets a Roman numeral begin a name.
-/
import Reckon.Text.CharClass
import Reckon.Text.Mark

namespace Reckon.Text

/-- Characters that may begin a name. -/
def beginsName (c : Char) : Bool :=
  (isLetter c && !strayLetters.has c) || leadingNumerals.has c || leadingSigns.has c

/-- Characters that may follow in a name. -/
def continuesName (c : Char) : Bool :=
  (isAlphanumeric c && !barredLetters.has c && !looseNumerals.has c) || marks.has c

/-- A text that is a name from end to end. -/
def isName (s : String) : Bool :=
  match s.toList with
  | [] => false
  | c :: rest => beginsName c && rest.all continuesName

end Reckon.Text
