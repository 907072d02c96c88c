/-
Blank characters and the removal of blanks around a text.
-/
import Polyglot.Text.CodePoint

namespace Polyglot
namespace Text

/-- Blanks: the Unicode white space and the four separators below the space. -/
def blankRanges : Ranges :=
  [(0x9, 0xD), (0x1C, 0x20), (0x85, 0x85), (0xA0, 0xA0), (0x1680, 0x1680), (0x2000, 0x200A),
   (0x2028, 0x2029), (0x202F, 0x202F), (0x205F, 0x205F), (0x3000, 0x3000)]

def isBlank (c : Char) : Bool := blankRanges.holds c.toNat

/-- Drops the characters that satisfy `p` from both ends. -/
def trim (p : Char → Bool) (s : List Char) : List Char :=
  ((s.dropWhile p).reverse.dropWhile p).reverse

def strip (s : String) : String := String.ofList (trim isBlank s.toList)

end Text
end Polyglot
