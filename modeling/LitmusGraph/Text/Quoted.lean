import LitmusGraph.Text.Printable

/-!
# Quoted text

The quoted form of a text stands between single quotes, or between double quotes when the text
holds a single quote and no double quote. The quote in use and the backslash stand behind a
backslash; tab, line feed and carriage return are written with a letter; every other code point
that is not printable is written by its number, in two, four or eight hexadecimal digits.

This is the representation of a string, as the messages of `parse_executions` and its helpers, of the
file system, of the options and of the setter of `draw` show it, and that of a list of strings.
-/

namespace LitmusGraph

namespace Text

/-- The quote that a text is written between. -/
def quoteMark (t : Text) : CodePoint :=
  if t.contains ('\'' : CodePoint) && !t.contains ('"' : CodePoint) then '"' else '\''

/-- A code point by its number, in the least of the three widths that holds it. -/
def escapeNumber (n : Nat) : Text :=
  if n < 0x100 then "\\x" ++ ofHex 2 n
  else if n < 0x10000 then "\\u" ++ ofHex 4 n
  else "\\U" ++ ofHex 8 n

/-- A code point as it is written between quotes. -/
def quoteCodePoint (quote c : CodePoint) : Text :=
  if c = quote || c = ('\\' : CodePoint) then [('\\' : CodePoint), c]
  else if c = ('\t' : CodePoint) then "\\t"
  else if c = ('\n' : CodePoint) then "\\n"
  else if c = ('\r' : CodePoint) then "\\r"
  else if c.isPrintable then [c]
  else escapeNumber c.val

/-- The quoted form of a text. -/
def quoted (t : Text) : Text :=
  t.quoteMark :: t.flatMap (quoteCodePoint t.quoteMark) ++ [t.quoteMark]

/-- The items in quoted form between square brackets, separated by commas. -/
def quotedList (ts : List Text) : Text :=
  "[" ++ join ", " (ts.map quoted) ++ "]"

end Text

end LitmusGraph
