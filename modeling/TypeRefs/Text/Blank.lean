/-!
# Blank characters

The characters with the Unicode `White_Space` property, and trimming them
from both ends of a text. Package names and reference values are trimmed with
this set, which is wider than ASCII blanks: it holds the line and paragraph
separators, the no-break spaces and the ideographic space.
-/

namespace TypeRefs

namespace Text

/-- The `White_Space` code points: tab to carriage return, space, next line,
no-break space, ogham space mark, the spaces from en quad to hair space, the
line and paragraph separators, narrow no-break space, medium mathematical space
and ideographic space. -/
def isBlank (c : Char) : Bool :=
  let n := c.toNat
  (0x09 ≤ n && n ≤ 0x0D) || n == 0x20 || n == 0x85 || n == 0xA0 || n == 0x1680 ||
    (0x2000 ≤ n && n ≤ 0x200A) || n == 0x2028 || n == 0x2029 || n == 0x202F ||
    n == 0x205F || n == 0x3000

/-- The characters left after dropping blanks from both ends. -/
def trimChars (cs : List Char) : List Char :=
  ((cs.dropWhile isBlank).reverse.dropWhile isBlank).reverse

/-- The text without blanks at either end. -/
def trim (s : String) : String :=
  String.ofList (trimChars s.toList)

/-- Whether a text holds only blanks (the empty text included). -/
def isBlankText (s : String) : Bool :=
  s.toList.all isBlank

end Text

end TypeRefs
