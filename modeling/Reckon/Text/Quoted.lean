/-
  Quoted text: a text between quote marks on one line, every character
  recognisable.

  * The mark is `'`, unless the text holds that mark and no `"` (`quoteMark`);
  * the mark and the backslash take a backslash, line breaks and tabs have
    escapes of their own, and what is not printable is written by its code, in
    two, four or eight hexadecimal digits (`escape`).
-/
import Reckon.Text.Unprintable

namespace Reckon.Text

/-- The quote mark for a text. -/
def quoteMark (cs : List Char) : Char :=
  if '\'' ∈ cs ∧ '"' ∉ cs then '"' else '\''

/-- A code point in lower-case hexadecimal, at least `width` digits wide. -/
def hexCode (width n : Nat) : List Char :=
  (Nat.toDigits 16 n).leftpad width '0'

/-- An unprintable character by its code, in the shortest form that holds it. -/
def codeEscape (c : Char) : List Char :=
  let n := c.toNat
  if n < 0x100 then '\\' :: 'x' :: hexCode 2 n
  else if n < 0x10000 then '\\' :: 'u' :: hexCode 4 n
  else '\\' :: 'U' :: hexCode 8 n

/-- One character as it stands between the given quote marks. -/
def escape (mark c : Char) : List Char :=
  if c = mark ∨ c = '\\' then ['\\', c]
  else if c = '\n' then ['\\', 'n']
  else if c = '\r' then ['\\', 'r']
  else if c = '\t' then ['\\', 't']
  else if unprintables.has c then codeEscape c
  else [c]

/-- The text between quote marks. -/
def quote (s : String) : String :=
  let cs := s.toList
  let mark := quoteMark cs
  String.ofList (mark :: cs.flatMap (escape mark) ++ [mark])

example : quote "it's" = "\"it's\"" := by decide +kernel

example : quote "a\"'\n\x01\u2028" = "'a\"\\'\\n\\x01\\u2028'" := by decide +kernel

end Reckon.Text
