import SchemaTypes.Syntax.Parser

/-!
The phrases of the grammar that contain one another. Each rule of the grammar is given the parser of these goals, so the
rules themselves are not recursive; the knot is tied in one place, by a bound on the depth.
-/

namespace SchemaTypes.Syntax.Parser

inductive Goal where
  | sequence
  | expression
  | binary (level : Nat)
  | unary
  | primary
  | markup
  | pattern
  | typeExpr
  | typeOperand
  | statement
  /-- A block; `operand` tells that it closes a function expression, which operators may follow. -/
  | block (operand : Bool)

abbrev Rules := Goal → Parser Outline

def reservedWords : List String :=
  ["break", "case", "catch", "class", "const", "continue", "debugger", "default", "delete", "do", "else", "enum",
   "export", "extends", "false", "finally", "for", "function", "if", "import", "in", "instanceof", "new", "null",
   "return", "super", "switch", "this", "throw", "true", "try", "typeof", "var", "void", "while", "with"]

/-- A word that may name a binding. -/
def bindingName (kind : Kind) : Parser Outline := do
  if reservedWords.contains (← nextWord) then failure else anyWord kind

/-- The end of a name after a number sign. -/
def privateNameEnd? (s : Input) (i : Nat) : Option Nat :=
  if s.byte i == ascii '#' then s.wordEnd? (i + 1) else none

def stringLiteral : Parser Outline := scan .string Input.stringEnd?

def numberLiteral : Parser Outline := scan .number Input.numberEnd?

def privateName : Parser Outline := scan .privatePropertyIdentifier privateNameEnd?

/-- The name of a property: a word, a string, a number, a private name or an expression in brackets. -/
def propertyName (self : Rules) : Parser Outline :=
  anyWord .propertyIdentifier <|> stringLiteral <|> numberLiteral <|> privateName <|>
    node .computedPropertyName do
      return [← punct "[", ← bracketed (self .expression), ← punct "]"]

/-- Whether the token after the next word starts a property name, so that the word itself is a modifier. -/
def modifiesName : Parser Bool := do
  let s ← input
  match s.wordEnd? (← get).next with
  | none => return false
  | some stop =>
    let i := s.skipTrivia stop
    let b := s.byte i
    return (s.wordEnd? i).isSome || (s.stringEnd? i).isSome || Input.isDigit b ||
      b == ascii '[' || b == ascii '#' || b == ascii '*'

/-- The words of a list that stand before a name as modifiers. -/
def modifiers (words : List String) : Parser (List Outline) :=
  many do
    if words.contains (← nextWord) && (← modifiesName) then one (anyWord .token) else failure

def spread (self : Rules) : Parser Outline :=
  node .spreadElement do return [← punct "...", ← self .expression]

def argumentList (self : Rules) : Parser Outline :=
  node .arguments do
    let start ← punct "("
    let rest ← bracketed (listUntil ")" (one (spread self <|> self .expression)))
    return start :: rest

def typeArguments (self : Rules) : Parser Outline :=
  node .other do
    let start ← punct "<"
    return start :: (← listUntil ">" (one (self .typeExpr)))

/-- A colon and a type, where there is a colon. -/
def annotation (self : Rules) : Parser (List Outline) :=
  when (isAt ":") do return [← punct ":", ← self .typeExpr]

/-- An equals sign and a value, where there is one. -/
def initializer (self : Rules) : Parser (List Outline) := do
  if (← isAt "=") && !(← isAt "==") && !(← isAt "=>") then
    return [← punct "=", (← self .expression).as .value]
  else return []

/-- A parenthesised condition. -/
def parenthesized (self : Rules) : Parser Outline :=
  node .parenthesizedExpression do
    return [← punct "(", ← bracketed (self .sequence), ← punct ")"]

/-- A dotted name. -/
def entityName : Parser (List Outline) := do
  let first ← anyWord .identifier
  let rest ← many do
    let dot ← punct "."
    return [dot, ← anyWord .propertyIdentifier <|> privateName]
  return first :: rest

def decorator (self : Rules) : Parser Outline :=
  node .other do
    let mark ← punct "@"
    let target ← one (parenthesized self) <|> entityName
    let typeArgs ← when (isAt "<") (optional (one (typeArguments self)))
    let args ← when (isAt "(") (one (argumentList self))
    return mark :: target ++ typeArgs ++ args

def decorators (self : Rules) : Parser (List Outline) := many (one (decorator self))

/-- A template: text with phrases between `${` and `}`. White space in its text counts, so it is read from the end of
the last token. -/
def template (phrase : Parser Outline) : Parser Outline :=
  node .templateString do
    let start ← punct "\x60"
    let (parts, _) ← iterate (fun (parts, done) => do
      if done then return none
      let s ← input
      let here := (← get).last
      let stop := s.templateTextEnd here
      let text := if here < stop then [Outline.leaf .other here stop] else []
      if s.byte stop == 0x60 then
        moveTo (stop + 1)
        return some (parts ++ text ++ [.leaf .token stop (stop + 1)], true)
      else if stop < s.size then
        moveTo (stop + 2)
        let inner ← bracketed phrase
        let close ← punct "\x7d"
        let substitution := Outline.node .other [.leaf .token stop (stop + 2), inner, close]
        return some (parts ++ text ++ [substitution], false)
      else failure) ([start], false)
    return parts

end SchemaTypes.Syntax.Parser
