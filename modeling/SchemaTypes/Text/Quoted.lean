import SchemaTypes.Text.Printable

/-!
The quoted form in which messages show a text or a path: one line of printable characters between quotes.
-/

namespace SchemaTypes.Text

/-- Single quotes are used unless the text has a single quote and no double quote. -/
def quoteMark (t : Text) : CodePoint :=
  if t.contains 0x27 && !t.contains 0x22 then 0x22 else 0x27

/-- One code point as it stands between two marks. -/
def quotedPoint (mark c : CodePoint) : Text :=
  if c = mark || c = 0x5C then [0x5C, c]
  else if c = 0x0A then "\\n"
  else if c = 0x0D then "\\r"
  else if c = 0x09 then "\\t"
  else if c.isPrintable then [c]
  else if c.val < 0x100 then "\\x" ++ hex 2 c.val
  else if c.val < 0x10000 then "\\u" ++ hex 4 c.val
  else "\\U" ++ hex 8 c.val

def quoted (t : Text) : Text :=
  let mark := quoteMark t
  mark :: t.flatMap (quotedPoint mark) ++ [mark]

end SchemaTypes.Text
