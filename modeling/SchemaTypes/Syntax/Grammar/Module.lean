import SchemaTypes.Syntax.Grammar.TypeExpr

/-!
Imports and exports.
-/

namespace SchemaTypes.Syntax.Parser

/-- A name on either side of an import or export; it may be a keyword or a string. -/
def moduleName : Parser Outline := stringLiteral <|> anyWord .identifier

/-- A name, after a word that marks it as a type, with the name it goes by. -/
def specifier (kind : Kind) : Parser Outline :=
  node kind do
    let word ← nextWord
    let second ← secondWord
    let b ← byteAfterWord
    let marked := (word == "type" || word == "typeof") && b != ascii ',' && b != 0x7D && second != "as"
    let mark ← if marked then one (anyWord .token) else pure []
    let name := (← moduleName).as .name
    let newName ← when (isAtWord "as") do return [← keyword "as", ← moduleName]
    return mark ++ [name] ++ newName

def specifiers (list item : Kind) : Parser Outline :=
  node list do
    let start ← punct "\x7b"
    return start :: (← listUntil "\x7d" (one (specifier item)))

def namespaceImport : Parser Outline :=
  node .other do return [← punct "*", ← keyword "as", ← anyWord .identifier]

def importClause : Parser Outline :=
  node .importClause do
    let listed := namespaceImport <|> specifiers .namedImports .importSpecifier
    if (← isAt "*") || (← isAt "\x7b") then one listed
    else
      let name ← bindingName .identifier
      let rest ← when (isAt ",") do return [← punct ",", ← listed]
      return name :: rest

def attributes (self : Rules) : Parser (List Outline) := do
  if (← isAtWord "with") || ((← isAtWord "assert") && !(← afterLineBreak)) then
    return [← anyWord .token, ← self .primary]
  else return []

def fromClause (self : Rules) : Parser (List Outline) := do
  let head := [← keyword "from", (← stringLiteral).as .source]
  return head ++ (← attributes self)

/-- Another name for a dotted name or for a required module. -/
def importAlias (self : Rules) : Parser (List Outline) := do
  let mark ← optional do
    if (← secondWord) == "" then failure else one (keyword "type")
  let head := [← bindingName .identifier, ← punct "="]
  let target ← (do return [← keyword "require", ← argumentList self]) <|> entityName
  return [.node .other (mark ++ head ++ target)]

def importStatement (self : Rules) : Parser Outline :=
  node .importStatement do
    let word ← keyword "import"
    let b ← byteAfterWord
    let second ← secondWord
    let marked := ["type", "typeof"].contains (← nextWord) &&
      (b == 0x7B || b == ascii '*' || (second != "" && second != "from"))
    let body ←
      (do
        let source := (← stringLiteral).as .source
        return source :: (← attributes self))
      <|> importAlias self
      <|> (do
        let mark ← if marked then one (anyWord .token) else pure []
        let clause ← importClause
        return mark ++ [clause] ++ (← fromClause self))
    return [word] ++ body ++ (← semicolon {})

/-- What is exported other than by a declaration, up to the end of the statement. -/
def exportList (self : Rules) : Parser (List Outline) := do
  let mark ← optional (one (keyword "type"))
  let listed ←
    if ← isAt "*" then
      let star ← punct "*"
      let newName ← when (isAtWord "as") do return [← keyword "as", ← moduleName]
      pure (star :: newName)
    else one (specifiers .other .other)
  let origin ← when (isAtWord "from") (fromClause self)
  return mark ++ listed ++ origin ++ (← semicolon {})

def exportedAlias (self : Rules) : Parser (List Outline) := do
  let word ← keyword "import"
  return [word] ++ (← importAlias self) ++ (← semicolon {})

end SchemaTypes.Syntax.Parser
