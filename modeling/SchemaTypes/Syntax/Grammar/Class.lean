import SchemaTypes.Syntax.Grammar.TypeExpr

/-!
Classes: what they extend and their members.
-/

namespace SchemaTypes.Syntax.Parser

def memberModifiers : List String :=
  ["public", "private", "protected", "static", "override", "readonly", "abstract", "declare", "accessor", "async",
   "get", "set"]

def classMember (self : Rules) : Parser (List Outline) := do
  if (← isAt ";") || (← isAt ",") then one (punct ";" <|> punct ",")
  else if (← isAtWord "static") && (← byteAfterWord) == 0x7B then
    return [← keyword "static", ← self (.block false)]
  else one <| node .other do
    let marks ← decorators self
    let words ← modifiers memberModifiers
    let star ← optional (one (punct "*"))
    let name ← if ← isAt "[" then bracketKey self else one (propertyName self)
    let mark ← optional (one (punct "?" <|> punct "!"))
    let head := marks ++ words ++ star ++ name ++ mark
    if (← isAt "(") || (← isAt "<") then
      let signature ← signature self
      let body ← when (isAt "\x7b") (one (self (.block false)))
      return head ++ signature ++ body
    else
      let type ← annotation self
      return head ++ type ++ (← initializer self)

def classBody (self : Rules) : Parser Outline :=
  node .other do
    let start ← punct "\x7b"
    return start :: (← bracketed (manyUntil "\x7d" (classMember self)))

def heritage (self : Rules) : Parser (List Outline) := do
  let base ← when (isAtWord "extends") do
    let head := [← keyword "extends", ← self .unary]
    return head ++ (← when (isAt "<") (one (typeArguments self)))
  let promised ← when (isAtWord "implements") do
    let head := [← keyword "implements", ← self .typeExpr]
    return head ++ (← many do return [← punct ",", ← self .typeExpr])
  return base ++ promised

/-- A class from its keyword on; the name may be left out. -/
def classTail (self : Rules) : Parser (List Outline) := do
  let word ← keyword "class"
  let name ← do
    if ["extends", "implements"].contains (← nextWord) && (← byteAfterWord) != 0x7B then pure []
    else optional (one (bindingName .other))
  let types ← typeParameters self
  let bases ← heritage self
  return [word] ++ name ++ types ++ bases ++ [← classBody self]

end SchemaTypes.Syntax.Parser
