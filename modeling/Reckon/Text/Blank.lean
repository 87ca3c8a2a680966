/-
  Blank characters, those that separate words: the separators of Unicode 14 and
  the control characters that act as such.
-/
import Reckon.Text.CodeSpan

namespace Reckon.Text

/-- The blank characters. -/
def blanks : CodeSpans :=
  [(0x9, 0xd), (0x1c, 0x20), (0x85, 0x85), (0xa0, 0xa0), (0x1680, 0x1680), (0x2000, 0x200a),
   (0x2028, 0x2029), (0x202f, 0x202f), (0x205f, 0x205f), (0x3000, 0x3000)]

end Reckon.Text
