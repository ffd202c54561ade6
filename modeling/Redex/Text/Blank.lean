import Redex.Text.Ranges

/-!
# Blank characters

What separates words is the property `White_Space` of the Unicode Character Database. It holds of
more characters than space, tab and line end: of the no-break space, for instance, and of the
ideographic space.
-/

namespace Redex

/-- The code points with the property `White_Space`. -/
def blankRanges : Ranges :=
  [(0x0009, 0x000D), (0x0020, 0x0020), (0x0085, 0x0085), (0x00A0, 0x00A0), (0x1680, 0x1680),
   (0x2000, 0x200A), (0x2028, 0x2029), (0x202F, 0x202F), (0x205F, 0x205F), (0x3000, 0x3000)]

def isBlank (c : Char) : Bool := blankRanges.has c

namespace Text

def isBlank (text : Text) : Bool := text.all Redex.isBlank

def trimStart (text : Text) : Text := text.dropWhile Redex.isBlank

end Text

end Redex
