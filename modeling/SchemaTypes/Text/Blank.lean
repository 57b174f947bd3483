import SchemaTypes.Text.Basic

/-!
White space as a property of code points, and the trimming of texts.
-/

namespace SchemaTypes

/-- The 29 code points that count as white space: the bidirectional classes of separators together with the
space separators. Zero-width characters are not among them. -/
def CodePoint.isBlank (c : CodePoint) : Bool :=
  (0x09 ≤ c.val && c.val ≤ 0x0D) || (0x1C ≤ c.val && c.val ≤ 0x20) || c.val = 0x85 || c.val = 0xA0 ||
  c.val = 0x1680 || (0x2000 ≤ c.val && c.val ≤ 0x200A) || c.val = 0x2028 || c.val = 0x2029 ||
  c.val = 0x202F || c.val = 0x205F || c.val = 0x3000

namespace Text

def trimStart (t : Text) : Text := t.dropWhile CodePoint.isBlank

def trimEnd (t : Text) : Text := (trimStart t.reverse).reverse

/-- A text without the white space at its two ends. -/
def trim (t : Text) : Text := trimEnd (trimStart t)

end Text
end SchemaTypes
