import SchemaTypes.Syntax.Grammar.Class
import SchemaTypes.Syntax.Grammar.Module

/-!
Statements and declarations.
-/

namespace SchemaTypes.Syntax.Parser

/-! ### Variables -/

def variableDeclarator (self : Rules) : Parser Outline :=
  node .variableDeclarator do
    let name := (← self .pattern).as .name
    let definite ← optional (one (punct "!"))
    let type ← annotation self
    return [name] ++ definite ++ type ++ (← initializer self)

/-- Whether a declarator ends with an initial value. -/
def hasValue (declarator : Outline) : Bool :=
  (declarator.children.getLast?.bind Outline.role) == some .value

def variableStatement (self : Rules) : Parser Outline := do
  let kind := if ← isAtWord "var" then Kind.variableDeclaration else .lexicalDeclaration
  let word ← keyword "var" <|> keyword "let" <|> keyword "const"
  let first ← variableDeclarator self
  let rest ← many do return [← punct ",", ← variableDeclarator self]
  let listed := first :: rest
  let ending ← semicolon { operator := (listed.getLast?.map hasValue).getD false }
  return .node kind ([word] ++ listed ++ ending)

/-! ### Declarations -/

def functionDeclaration (self : Rules) : Parser Outline :=
  node .other do
    let lead ← optional (one (keyword "async"))
    let word ← keyword "function"
    let star ← optional (one (punct "*"))
    let name ← bindingName .identifier
    let head ← signature self
    let body ←
      if ← isAt "\x7b" then one (self (.block false)) else semicolon { body := true }
    return lead ++ [word] ++ star ++ [name] ++ head ++ body

/-- A named class after its decorators. -/
def classDeclaration (self : Rules) (marks : List Outline) : Parser Outline := do
  if ["", "extends", "implements"].contains (← secondWord) && (← isAtWord "class") then failure
  if ← isAtWord "abstract" then
    return .node .other (marks ++ [← keyword "abstract"] ++ (← classTail self))
  else
    let body ← classTail self
    return .node .other (marks ++ body ++ (← implicitSemicolon {}))

def interfaceDeclaration (self : Rules) : Parser Outline :=
  node .other do
    let head := [← keyword "interface", ← anyWord .other]
    let types ← typeParameters self
    let bases ← when (isAtWord "extends") do
      let first := [← keyword "extends", ← self .typeExpr]
      return first ++ (← many do return [← punct ",", ← self .typeExpr])
    return head ++ types ++ bases ++ [← objectType self]

def enumDeclaration (self : Rules) : Parser Outline :=
  node .other do
    let lead ← optional (one (keyword "const"))
    let head := [← keyword "enum", ← anyWord .identifier, ← punct "\x7b"]
    let members ← bracketed <| listUntil "\x7d" do
      return (← propertyName self) :: (← initializer self)
    return lead ++ head ++ members

def typeAlias (self : Rules) : Parser Outline :=
  node .other do
    let head := [← keyword "type", ← anyWord .other]
    let types ← typeParameters self
    let value := [← punct "=", ← self .typeExpr]
    return head ++ types ++ value ++ (← semicolon {})

def moduleDeclaration (self : Rules) : Parser Outline :=
  node .other do
    let word ← keyword "namespace" <|> keyword "module"
    let name ← one stringLiteral <|> entityName
    let body ← when (isAt "\x7b") (one (self (.block false)))
    return [word] ++ name ++ body

def ambientDeclaration (self : Rules) : Parser Outline :=
  node .other do
    let word ← keyword "declare"
    if (← isAtWord "global") && (← byteAfterWord) == 0x7B then
      return [word, ← keyword "global", ← self (.block false)]
    else return [word, ← self .statement]

/-! ### Exports -/

def exportDefault (self : Rules) : Parser (List Outline) := do
  let word ← keyword "default"
  let marks ← decorators self
  let value : Parser (List Outline) := do
    return (← self .expression) :: (← semicolon { operator := true })
  let declared : Parser (List Outline) :=
    one (functionDeclaration self <|> classDeclaration self marks <|> interfaceDeclaration self <|>
      enumDeclaration self)
  return word :: (← declared <|> value)

def exportStatement (self : Rules) (marks : List Outline) : Parser Outline :=
  node .exportStatement do
    let word ← keyword "export"
    let next ← nextWord
    let b ← byteAfterWord
    let second ← secondWord
    let body ←
      if (← isAt "*") || (← isAt "\x7b") || (next == "type" && (b == 0x7B || b == ascii '*')) then exportList self
      else if ← isAt "=" then
        let head := [← punct "=", ← self .expression]
        pure (head ++ (← semicolon { operator := true }))
      else if next == "as" && second == "namespace" then
        let head := [← keyword "as", ← keyword "namespace", ← anyWord .identifier]
        pure (head ++ (← semicolon {}))
      else if next == "import" then exportedAlias self
      else if next == "default" then exportDefault self
      else if ← isAt "@" then one (classDeclaration self (← decorators self))
      else one (self .statement)
    return marks ++ [word] ++ body

def decorated (self : Rules) : Parser Outline := do
  let marks ← decorators self
  if ← isAtWord "export" then exportStatement self marks else classDeclaration self marks

/-! ### Control flow -/

def expressionStatement (self : Rules) : Parser Outline :=
  node .other do
    let value ← self .sequence
    return value :: (← semicolon { operator := true })

def ifStatement (self : Rules) : Parser Outline :=
  node .other do
    let head := [← keyword "if", ← parenthesized self, ← self .statement]
    let other ← when (isAtWord "else") <| one <| node .other do
      return [← keyword "else", ← self .statement]
    return head ++ other

/-- The head of a loop over the keys or the members of a value. -/
def forEachHead (self : Rules) : Parser (List Outline) := do
  let target : Parser (List Outline) :=
    (do
      let word ← keyword "const" <|> keyword "let" <|> keyword "var"
      let pattern ← self .pattern
      return [word, pattern] ++ (← initializer self))
    <|> one (self .unary)
  let left ← target
  return left ++ [← keyword "of" <|> keyword "in", ← self .sequence]

/-- The head of a loop with a start, a condition and a step, each of which may be left out. -/
def forHead (self : Rules) : Parser (List Outline) := do
  let part (close : String) : Parser (List Outline) := do
    let value ← optional (one (self .sequence))
    return value ++ [← punct close]
  let start ← one (variableStatement self) <|> part ";"
  let condition ← part ";"
  let step ← optional (one (self .sequence))
  return start ++ condition ++ step

def forStatement (self : Rules) : Parser Outline :=
  node .other do
    let word ← keyword "for"
    let mark ← optional (one (keyword "await"))
    let start ← punct "("
    let closed (head : Parser (List Outline)) : Parser (List Outline) := do
      return (← head) ++ [← punct ")"]
    let head ← bracketed (closed (forEachHead self) <|> closed (forHead self))
    return [word] ++ mark ++ [start] ++ head ++ [← self .statement]

def doStatement (self : Rules) : Parser Outline :=
  node .other do
    let head := [← keyword "do", ← self .statement, ← keyword "while", ← parenthesized self]
    return head ++ (← optional (semicolon {}))

def tryStatement (self : Rules) : Parser Outline :=
  node .other do
    let head := [← keyword "try", ← self (.block false)]
    let handler ← when (isAtWord "catch") <| one <| node .other do
      let word ← keyword "catch"
      let binding ← when (isAt "(") do
        let start := [← punct "(", ← self .pattern]
        let type ← annotation self
        return start ++ type ++ [← punct ")"]
      return [word] ++ binding ++ [← self (.block false)]
    let finalizer ← when (isAtWord "finally") <| one <| node .other do
      return [← keyword "finally", ← self (.block false)]
    return head ++ handler ++ finalizer

def switchCase (self : Rules) : Parser (List Outline) :=
  one <| node .other do
    let head ←
      if ← isAtWord "default" then one (keyword "default")
      else do pure [← keyword "case", ← self .sequence]
    let colon ← punct ":"
    return head ++ [colon] ++ (← many (one (self .statement)))

def switchStatement (self : Rules) : Parser Outline :=
  node .other do
    let head := [← keyword "switch", ← parenthesized self]
    let body ← node .other do
      let start ← punct "\x7b"
      return start :: (← bracketed (manyUntil "\x7d" (switchCase self)))
    return head ++ [body]

/-- A keyword with an operand on the same line, which may be left out. -/
def jump (word : String) (operand : Parser Outline) : Parser Outline :=
  node .other do
    let head ← keyword word
    match (← input).implicitEnd? {} (← get).last with
    | some _ => return head :: (← semicolon {})
    | none =>
      if ← isAt ";" then return head :: (← semicolon {})
      else
        let value ← operand
        return [head, value] ++ (← semicolon { operator := true })

/-- A label; the word before the colon is no keyword. -/
def labeled (self : Rules) : Parser Outline :=
  node .other do
    return [← bindingName .other, ← punct ":", ← self .statement]

def blockRule (self : Rules) (operand : Bool) : Parser Outline :=
  node .other do
    let start ← punct "\x7b"
    let inner ← bracketed (manyUntil "\x7d" (one (self .statement)))
    return start :: inner ++ (← implicitSemicolon { operator := operand })

/-! ### Statements -/

/-- Whether the next two words stand on one line. -/
def wordsShareLine : Parser Bool := do
  let s ← input
  match s.wordEnd? (← get).next with
  | some stop => return !s.breaksLine stop (s.skipTrivia stop)
  | none => return false

/-- A declaration that starts with a word which is no keyword elsewhere. -/
def contextual (self : Rules) (word second : String) : Parser Outline := do
  if second == "" && (← byteAfterWord) != 0x22 && (← byteAfterWord) != 0x27 then failure
  else if word == "type" then typeAlias self
  else if word == "interface" then interfaceDeclaration self
  else if word == "declare" then
    if ← wordsShareLine then ambientDeclaration self else failure
  else if word == "abstract" && second == "class" then classDeclaration self []
  else if word == "async" && second == "function" then
    if ← wordsShareLine then functionDeclaration self else failure
  else if word == "module" then moduleDeclaration self
  else if word == "namespace" then
    node .other do
      let body ← moduleDeclaration self
      return body :: (← optional (semicolon { operator := true }))
  else failure

def statementRule (self : Rules) : Parser Outline := do
  let b ← nextByte
  let word ← nextWord
  let second ← secondWord
  let after ← byteAfterWord
  if b == 0x7B then self (.block false)
  else if b == ascii ';' then node .other (one (punct ";"))
  else if b == ascii '@' then decorated self
  else match word with
    | "" => expressionStatement self
    | "var" => variableStatement self
    | "const" => if second == "enum" then enumDeclaration self else variableStatement self
    | "let" =>
      if second != "" || after == ascii '[' || after == 0x7B then variableStatement self <|> expressionStatement self
      else expressionStatement self
    | "function" => functionDeclaration self
    | "class" => classDeclaration self []
    | "enum" => enumDeclaration self
    | "import" =>
      if after == 0x28 || after == ascii '.' then expressionStatement self else importStatement self
    | "export" => exportStatement self []
    | "if" => ifStatement self
    | "for" => forStatement self
    | "while" => node .other do return [← keyword "while", ← parenthesized self, ← self .statement]
    | "with" => node .other do return [← keyword "with", ← parenthesized self, ← self .statement]
    | "do" => doStatement self
    | "try" => tryStatement self
    | "switch" => switchStatement self
    | "break" => jump "break" (anyWord .other)
    | "continue" => jump "continue" (anyWord .other)
    | "return" => jump "return" (self .sequence)
    | "throw" => jump "throw" (self .sequence)
    | "debugger" => node .other do return (← keyword "debugger") :: (← semicolon {})
    | _ => contextual self word second <|> labeled self <|> expressionStatement self

end SchemaTypes.Syntax.Parser
