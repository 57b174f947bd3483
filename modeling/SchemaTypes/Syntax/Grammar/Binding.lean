import SchemaTypes.Syntax.Grammar.Goal

/-!
Names that code binds: patterns, the parameters of functions and the parameters of types.
-/

namespace SchemaTypes.Syntax.Parser

/-- A pattern with its default value. -/
def patternWithDefault (self : Rules) : Parser (List Outline) := do
  return (← self .pattern) :: (← initializer self)

def restPattern (self : Rules) : Parser (List Outline) := do
  return [← punct "...", ← self .pattern]

def patternProperty (self : Rules) : Parser (List Outline) :=
  restPattern self
  <|> (do
    let key ← propertyName self
    return [key, ← punct ":"] ++ (← patternWithDefault self))
  <|> (do return (← bindingName .identifier) :: (← initializer self))

def patternRule (self : Rules) : Parser Outline := do
  if ← isAt "\x7b" then
    node .other do
      let start ← punct "\x7b"
      return start :: (← bracketed (listUntil "\x7d" (patternProperty self)))
  else if ← isAt "[" then
    node .other do
      let start ← punct "["
      return start :: (← bracketed (listUntil "]" (restPattern self <|> patternWithDefault self)))
  else bindingName .identifier

/-- Whether the next word is a modifier of a parameter and not its name. -/
def modifiesParameter : Parser Bool := do
  let s ← input
  match s.wordEnd? (← get).next with
  | none => return false
  | some stop =>
    let i := s.skipTrivia stop
    return (s.wordEnd? i).isSome || s.byte i == ascii '[' || s.byte i == 0x7B

def parameter (self : Rules) : Parser (List Outline) := do
  let marks ← decorators self
  let words ← many do
    if ["public", "private", "protected", "readonly", "override"].contains (← nextWord) && (← modifiesParameter)
    then one (anyWord .token) else failure
  let dots ← optional (one (punct "..."))
  let name ← keyword "this" <|> self .pattern
  let optionalMark ← optional (one (punct "?"))
  let type ← annotation self
  return [.node .other (marks ++ words ++ dots ++ [name] ++ optionalMark ++ type ++ (← initializer self))]

def parameters (self : Rules) : Parser Outline :=
  node .other do
    let start ← punct "("
    return start :: (← bracketed (listUntil ")" (parameter self)))

def typeParameter (self : Rules) : Parser (List Outline) := do
  let words ← many do
    let second ← secondWord
    if ["const", "in", "out"].contains (← nextWord) && second != "" && second != "extends"
    then one (anyWord .token) else failure
  let name ← anyWord .other
  let bound ← when (isAtWord "extends") do return [← keyword "extends", ← self .typeExpr]
  let default ← when (isAt "=") do return [← punct "=", ← self .typeExpr]
  return words ++ [name] ++ bound ++ default

def typeParameters (self : Rules) : Parser (List Outline) :=
  when (isAt "<") <| one <| node .other do
    let start ← punct "<"
    return start :: (← listUntil ">" (typeParameter self))

/-- The head of a function after its name: type parameters, parameters and the result type. -/
def signature (self : Rules) : Parser (List Outline) := do
  let types ← typeParameters self
  let params ← parameters self
  return types ++ [params] ++ (← annotation self)

end SchemaTypes.Syntax.Parser
