import SchemaTypes.Syntax.Grammar.Binding

/-!
Type expressions. Readers of the tree do not look into types, so only their extent and the expressions inside them
matter.
-/

namespace SchemaTypes.Syntax.Parser

/-- Whether the parenthesis at the next token closes before an arrow. -/
def closesBeforeArrow : Parser Bool := do
  let s ← input
  match s.closing? (← get).next with
  | some stop => return s.spells "=>" (s.skipTrivia stop)
  | none => return true

def functionType (self : Rules) : Parser Outline :=
  node .other do
    let types ← typeParameters self
    let params ← parameters self
    return types ++ [params, ← punct "=>", ← self .typeExpr]

def constructorType (self : Rules) : Parser Outline :=
  node .other do
    let words ← optional (one (keyword "abstract"))
    let word ← keyword "new"
    return words ++ [word, ← functionType self]

/-- A name or an expression in brackets, the key of an index signature or the clause of a mapped type. -/
def bracketKey (self : Rules) : Parser (List Outline) := do
  let start ← punct "["
  let inner ← bracketed <|
    (do return [← anyWord .identifier, ← punct ":", ← self .typeExpr])
    <|> (do
      let clause := [← anyWord .identifier, ← keyword "in", ← self .typeExpr]
      let renamed ← when (isAtWord "as") do return [← keyword "as", ← self .typeExpr]
      return clause ++ renamed)
    <|> one (self .expression)
  return start :: inner ++ [← punct "]"]

def typeMember (self : Rules) : Parser (List Outline) := do
  if (← isAt ",") || (← isAt ";") then one (punct "," <|> punct ";")
  else
    let sign ← optional (do
      let mark ← punct "-" <|> punct "+"
      return [mark, ← keyword "readonly"])
    let words ← modifiers ["readonly", "static", "get", "set", "public", "private", "protected", "declare", "abstract"]
    let name ←
      if ← isAt "[" then bracketKey self
      else if (← isAt "(") || (← isAt "<") then pure []
      else one (propertyName self)
    let mark ← optional (one (punct "?" <|> punct "!") <|> do return [← punct "-" <|> punct "+", ← punct "?"])
    let head ← if (← isAt "(") || (← isAt "<") then signature self else annotation self
    return sign ++ words ++ name ++ mark ++ head

/-- The braces of an object type or of an interface. -/
def objectType (self : Rules) : Parser Outline :=
  node .other do
    let start ← punct "\x7b"
    return start :: (← bracketed (manyUntil "\x7d" (typeMember self)))

def tupleElement (self : Rules) : Parser (List Outline) := do
  let dots ← optional (one (punct "..."))
  let label ← optional (do
    let name ← anyWord .identifier
    let mark ← optional (one (punct "?"))
    return [name] ++ mark ++ [← punct ":"])
  let type ← self .typeExpr
  return dots ++ label ++ [type] ++ (← optional (one (punct "?")))

def tupleType (self : Rules) : Parser Outline :=
  node .other do
    let start ← punct "["
    return start :: (← bracketed (listUntil "]" (tupleElement self)))

def trailingTypeArguments (self : Rules) : Parser (List Outline) :=
  when (isAt "<") (optional (one (typeArguments self)))

/-- The word of an imported module with its path and the names taken from it. -/
def importType (self : Rules) : Parser (List Outline) := do
  let word ← keyword "import"
  let args ← argumentList self
  let names ← many do return [← punct ".", ← anyWord .propertyIdentifier]
  return [word, args] ++ names

def typeQuery (self : Rules) : Parser Outline :=
  node .other do
    let word ← keyword "typeof"
    let target ← importType self <|> entityName
    return word :: target ++ (← trailingTypeArguments self)

def primaryType (self : Rules) : Parser Outline := do
  let b ← nextByte
  let word ← nextWord
  if b == 0x28 then
    node .other do return [← punct "(", ← bracketed (self .typeExpr), ← punct ")"]
  else if b == 0x7B then objectType self
  else if b == ascii '[' then tupleType self
  else if b == 0x60 then template (self .typeExpr)
  else if b == ascii '-' then node .other do return [← punct "-", ← numberLiteral]
  else if b == ascii '*' then punct "*"
  else if word == "typeof" then typeQuery self
  else if word == "import" then
    node .other do return (← importType self) ++ (← trailingTypeArguments self)
  else if word != "" then
    node .other do return (← entityName) ++ (← trailingTypeArguments self)
  else stringLiteral <|> numberLiteral

/-- A type with the brackets that follow it on the same line. -/
def postfixType (self : Rules) : Parser Outline := do
  iterate (fun (type : Outline) => do
    if (← isAt "[") && !(← afterLineBreak) then
      let start ← punct "["
      let index ← optional (one (bracketed (self .typeExpr)))
      return some (.node .other ([type, start] ++ index ++ [← punct "]"]))
    else return none) (← primaryType self)

/-- Whether the token after the next word starts a type, so that the word itself is an operator. -/
def operatesOnType : Parser Bool := do
  let s ← input
  match s.wordEnd? (← get).next with
  | none => return false
  | some stop =>
    let i := s.skipTrivia stop
    let b := s.byte i
    return ((s.wordEnd? i).isSome && s.word i != "extends" && s.word i != "is") ||
      b == 0x28 || b == 0x7B || b == ascii '[' || b == 0x60 || b == 0x22 || b == 0x27

/-- Operators before a type, function types, and types with brackets after them. -/
def typeOperandRule (self : Rules) : Parser Outline := do
  let b ← nextByte
  let word ← nextWord
  if b == ascii '<' then functionType self
  else if b == 0x28 && (← closesBeforeArrow) then functionType self <|> postfixType self
  else if (word == "new" || word == "abstract") && (← operatesOnTypeOrList) then
    constructorType self <|> postfixType self
  else if word == "infer" && (← operatesOnType) then
    node .other do
      let head := [← keyword "infer", ← anyWord .other]
      let bound ← optional do
        let bound := [← keyword "extends", ← self .typeOperand]
        if ← isAt "?" then failure else return bound
      return head ++ bound
  else if (word == "keyof" || word == "unique" || word == "readonly") && (← operatesOnType) then
    node .other do return [← anyWord .token, ← self .typeOperand]
  else postfixType self
where
  operatesOnTypeOrList : Parser Bool := do
    let b ← byteAfterWord
    return b == ascii '<' || (← operatesOnType)

/-- Operands joined by bars or ampersands. -/
def unionType (self : Rules) : Parser Outline := do
  let lead ← optional (one (punct "|" <|> punct "&"))
  let first ← self .typeOperand
  let rest ← many do
    if (← isAt "||") || (← isAt "&&") then failure
    return [← punct "|" <|> punct "&", ← self .typeOperand]
  if lead.isEmpty && rest.isEmpty then return first else return .node .other (lead ++ [first] ++ rest)

/-- A type: a predicate on a parameter, or a union that may be the subject of a condition. -/
def typeExprRule (self : Rules) : Parser Outline := do
  let word ← nextWord
  let second ← secondWord
  if word == "asserts" && second != "" && second != "is" then
    node .other do
      let head := [← keyword "asserts", ← anyWord .identifier]
      let type ← when (isAtWord "is") do return [← keyword "is", ← self .typeExpr]
      return head ++ type
  else if second == "is" then
    node .other do return [← anyWord .identifier, ← keyword "is", ← self .typeExpr]
  else
    let type ← unionType self
    if ← isAtWord "extends" then
      (node .other do
        let head := [type, ← keyword "extends", ← unionType self]
        return head ++ [← punct "?", ← self .typeExpr, ← punct ":", ← self .typeExpr])
      <|> pure type
    else return type

end SchemaTypes.Syntax.Parser
