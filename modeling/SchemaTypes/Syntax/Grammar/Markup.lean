import SchemaTypes.Syntax.Grammar.Goal

/-!
Markup elements. White space in their text counts, so text is read from the end of the last token.
-/

namespace SchemaTypes.Syntax.Parser

/-- Names in markup may have hyphens, dots and colons in them. -/
def markupNameEnd? (s : Input) (i : Nat) : Option Nat :=
  let isPart (k : Nat) : Bool :=
    let b := s.byte k
    Input.isLetter b || Input.isDigit b || b ≥ 0x80 ||
      b == ascii '_' || b == ascii '$' || b == ascii '-' || b == ascii '.' || b == ascii ':'
  if (s.wordEnd? i).isSome then some (s.find (!isPart ·) i) else none

/-- A string in markup has no escapes and may run over lines. -/
def markupStringEnd? (s : Input) (i : Nat) : Option Nat :=
  let mark := s.byte i
  if mark == 0x22 || mark == 0x27 then
    let j := s.find (s.byte · == mark) (i + 1)
    if j < s.size then some (j + 1) else none
  else none

/-- An expression in braces; it may be left out. -/
def markupExpression (self : Rules) : Parser Outline :=
  node .other do
    let start ← punct "\x7b"
    let inner ← optional (one (bracketed (spread self <|> self .sequence)))
    return [start] ++ inner ++ [← punct "\x7d"]

def markupAttribute (self : Rules) : Parser (List Outline) := do
  if ← isAt "\x7b" then one (markupExpression self)
  else
    let name ← scan .other markupNameEnd?
    let value ← when (isAt "=") do
      let mark ← punct "="
      return [mark, ← scan .string markupStringEnd? <|> markupExpression self <|> self .markup]
    return name :: value

/-- The content of an element up to and with its closing tag. -/
def content (self : Rules) : Parser (List Outline) := do
  let (parts, _) ← iterate (fun (parts, done) => do
    if done then return none
    let s ← input
    let here := (← get).last
    let stop := s.find (fun k => s.byte k == 0x7B || s.byte k == ascii '<') here
    let text := if here < stop then [Outline.leaf .other here stop] else []
    set { last := stop, next := stop : Cursor }
    if s.byte stop == 0x7B then
      return some (parts ++ text ++ [← markupExpression self], false)
    else if s.byte stop == ascii '<' && s.byte (s.skipTrivia (stop + 1)) == ascii '/' then
      let close ← node .other do
        let head := [← punct "<", ← punct "/"]
        let name ← optional (one (scan .other markupNameEnd?))
        return head ++ name ++ [← punct ">"]
      return some (parts ++ text ++ [close], true)
    else if stop < s.size then
      return some (parts ++ text ++ [← self .markup], false)
    else failure) (([] : List Outline), false)
  return parts

def markupRule (self : Rules) : Parser Outline := do
  let start ← punct "<"
  if ← isAt ">" then
    let head := Outline.node .other [start, ← punct ">"]
    return .node .jsxElement (head :: (← content self))
  else
    let name ← scan .other markupNameEnd?
    let types ← when (isAt "<") (one (typeArguments self))
    let attributes ← many (markupAttribute self)
    let head := [start, name] ++ types ++ attributes
    if ← isAt "/" then
      return .node .jsxSelfClosingElement (head ++ [← punct "/", ← punct ">"])
    else
      let head := Outline.node .other (head ++ [← punct ">"])
      return .node .jsxElement (head :: (← content self))

end SchemaTypes.Syntax.Parser
