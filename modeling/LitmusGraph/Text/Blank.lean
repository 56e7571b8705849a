import LitmusGraph.Text.Basic

/-!
# White space and blanks

White space is the Unicode property of that name. Blank is a little more: white space, and the
four information separators U+001C to U+001F. `Text.strip` drops the blanks around a text.

`Text.strip` is `str.strip` as `parse_relation_list` uses it. White space is what `int` ignores around
the value of `--execution`.
-/

namespace LitmusGraph

namespace CodePoint

/-- The Unicode property White_Space: 25 code points. -/
def isWhiteSpace (c : CodePoint) : Bool :=
  [(0x09, 0x0D), (0x20, 0x20), (0x85, 0x85), (0xA0, 0xA0), (0x1680, 0x1680), (0x2000, 0x200A),
    (0x2028, 0x2029), (0x202F, 0x202F), (0x205F, 0x205F), (0x3000, 0x3000)].any
    fun r => r.1 ≤ c.val && c.val ≤ r.2

/-- White space or an information separator: 29 code points. -/
def isBlank (c : CodePoint) : Bool := c.isWhiteSpace || (0x1C ≤ c.val && c.val ≤ 0x1F)

end CodePoint

namespace Text

/-- The text without the code points at either end that satisfy `p`. -/
def trim (p : CodePoint → Bool) (t : Text) : Text :=
  ((t.dropWhile p).reverse.dropWhile p).reverse

/-- The text without the blanks at either end. -/
def strip (t : Text) : Text := t.trim CodePoint.isBlank

end Text

end LitmusGraph
