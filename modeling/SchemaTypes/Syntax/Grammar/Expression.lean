import SchemaTypes.Syntax.Grammar.Class
import SchemaTypes.Syntax.Grammar.Markup

/-!
Expressions, from literals up to comma sequences.
-/

namespace SchemaTypes.Syntax.Parser

/-- Operators, each before any that starts it. -/
def operators : List String :=
  [">>>=", "===", "!==", "**=", "<<=", ">>=", ">>>", "&&=", "||=", "??=", "...",
   "=>", "==", "!=", "<=", ">=", "&&", "||", "??", "?.", "++", "--", "+=", "-=", "*=", "/=", "%=", "&=", "|=", "^=",
   "<<", ">>", "**", "+", "-", "*", "/", "%", "&", "|", "^", "<", ">", "=", "!", "~", "?"]

/-- The operator at the next token, empty if there is none. A question mark before a decimal point is one of its own. -/
def nextOperator : Parser String := do
  let s ← input
  let i := (← get).next
  match operators.find? (s.spells · i) with
  | some "?." => return if Input.isDigit (s.byte (i + 2)) then "?" else "?."
  | some spelling => return spelling
  | none => return ""

/-- How tightly a binary operator binds; zero for what is not one. -/
def bindingLevel (operator : String) : Nat :=
  if operator == "??" then 2
  else if operator == "||" then 3
  else if operator == "&&" then 4
  else if operator == "|" then 5
  else if operator == "^" then 6
  else if operator == "&" then 7
  else if ["==", "!=", "===", "!=="].contains operator then 8
  else if ["<", ">", "<=", ">=", "in", "instanceof"].contains operator then 9
  else if ["<<", ">>", ">>>"].contains operator then 10
  else if ["+", "-"].contains operator then 11
  else if ["*", "/", "%"].contains operator then 12
  else if operator == "**" then 13
  else 0

def augmentedOperators : List String :=
  ["+=", "-=", "*=", "/=", "%=", "^=", "&=", "|=", ">>=", ">>>=", "<<=", "**=", "&&=", "||=", "??="]

/-! ### Functions -/

def arrowBody (self : Rules) : Parser Outline := do
  if ← isAt "\x7b" then self (.block true) else self .expression

/-- An arrow function after the word that may come first. -/
def arrowTail (self : Rules) (lead : List Outline) : Parser Outline :=
  node .arrowFunction do
    let head ←
      if (← isAt "(") || (← isAt "<") then
        let types ← typeParameters self
        let params ← parameters self
        let result ← if (← read).typedArrow then annotation self else pure []
        pure (types ++ [params] ++ result)
      else one (bindingName .identifier)
    return lead ++ head ++ [← punct "=>", ← arrowBody self]

def asyncArrow (self : Rules) : Parser Outline := do
  let word ← keyword "async"
  arrowTail self [word]

def functionExpression (self : Rules) : Parser Outline := do
  let lead ← optional (one (keyword "async"))
  let word ← keyword "function"
  let star ← optional (one (punct "*"))
  let name ← optional (one (bindingName .identifier))
  let head ← signature self
  let kind := if star.isEmpty then Kind.functionExpression else .generatorFunction
  return .node kind (lead ++ [word] ++ star ++ name ++ head ++ [← self (.block true)])

/-- A parenthesised expression, or an arrow function with its parameters in parentheses. -/
def parenthesizedOrArrow (self : Rules) : Parser Outline := do
  let s ← input
  let plain := node .parenthesizedExpression do
    let start ← punct "("
    let inner ← bracketed do return (← self .sequence) :: (← annotation self)
    return [start] ++ inner ++ [← punct ")"]
  match s.closing? (← get).next with
  | none => arrowTail self [] <|> plain
  | some stop =>
    let after := s.skipTrivia stop
    if s.spells "=>" after || (s.byte after == ascii ':' && (← read).typedArrow) then arrowTail self [] <|> plain
    else plain

/-! ### Object and array literals -/

def methodModifiers : List String :=
  ["async", "get", "set", "static", "public", "private", "protected", "readonly", "override"]

def objectMember (self : Rules) : Parser Outline := do
  if ← isAt "..." then spread self
  else
    let words ← modifiers methodModifiers
    let star ← optional (one (punct "*"))
    let name ← propertyName self
    if (← isAt ":") && words.isEmpty && star.isEmpty then
      return .node .pair [name.as .key, ← punct ":", (← self .expression).as .value]
    else
      let mark ← optional (one (punct "?"))
      if (← isAt "(") || (← isAt "<") then
        let head ← signature self
        return .node .methodDefinition (words ++ star ++ [name] ++ mark ++ head ++ [← self (.block false)])
      else
        let default ← initializer self
        if default.isEmpty then return name.withKind .shorthandProperty
        else return .node .other (name :: default)

def objectLiteral (self : Rules) : Parser Outline :=
  node .object do
    let start ← punct "\x7b"
    return start :: (← bracketed (listUntil "\x7d" (one (objectMember self))))

def arrayLiteral (self : Rules) : Parser Outline :=
  node .array do
    let start ← punct "["
    return start :: (← bracketed (listUntil "]" (one (spread self <|> self .expression))))

/-! ### Primary expressions -/

def newExpression (self : Rules) : Parser Outline := do
  let word ← keyword "new"
  if ← isAt "." then
    return .node .metaProperty [word, ← punct ".", ← anyWord .propertyIdentifier]
  else
    let callee ← iterate (fun (callee : Outline) => do
      if ← isAt "." then
        let dot ← punct "."
        let name ← anyWord .propertyIdentifier <|> privateName
        return some (.node .memberExpression [callee.as .receiver, dot, name.as .property])
      else if ← isAt "[" then
        let start ← punct "["
        return some (.node .subscriptExpression [callee, start, ← bracketed (self .sequence), ← punct "]"])
      else return none) (← self .primary)
    let types ← when (isAt "<") (optional (one (typeArguments self)))
    let args ← when (isAt "(") (one (argumentList self))
    return .node .newExpression ([word, callee] ++ types ++ args)

def importExpression (self : Rules) : Parser Outline := do
  let word ← keyword "import"
  if ← isAt "." then
    return .node .metaProperty [word, ← punct ".", ← anyWord .propertyIdentifier]
  else return .node .callExpression [(word.withKind .other).as .callee, (← argumentList self).as .arguments]

def classExpression (self : Rules) : Parser Outline :=
  node .classExpression do return (← decorators self) ++ (← classTail self)

/-- Whether markup at the next token is rather the type parameters of an arrow function. -/
def startsTypeParameters : Parser Bool := do
  let s ← input
  let i := s.skipTrivia ((← get).next + 1)
  match s.wordEnd? i with
  | none => return false
  | some stop =>
    let j := s.skipTrivia stop
    return s.byte j == ascii ',' || s.word j == "extends" || s.word i == "const"

def wordExpression (self : Rules) (word : String) : Parser Outline := do
  if word == "function" then functionExpression self
  else if word == "class" then classExpression self
  else if word == "new" then newExpression self
  else if word == "import" then importExpression self
  else if word == "this" then anyWord .this
  else if word == "super" then anyWord .super
  else if word == "null" then anyWord .null
  else if word == "true" then anyWord .true
  else if word == "false" then anyWord .false
  else if word == "undefined" then anyWord .undefined
  else if word == "async" && (← secondWord) == "function" then functionExpression self <|> anyWord .identifier
  else
    let s ← input
    let after := s.skipTrivia ((s.wordEnd? (← get).next).getD 0)
    if s.spells "=>" after then arrowTail self []
    else if word == "async" then asyncArrow self <|> anyWord .identifier
    else bindingName .identifier

def primaryRule (self : Rules) : Parser Outline := do
  let b ← nextByte
  let word ← nextWord
  if word != "" then wordExpression self word
  else if b == 0x28 then parenthesizedOrArrow self
  else if b == ascii '[' then arrayLiteral self
  else if b == 0x7B then objectLiteral self
  else if b == 0x60 then template (self .sequence)
  else if b == 0x22 || b == 0x27 then stringLiteral
  else if b == ascii '/' then scan .regex Input.regexEnd?
  else if b == ascii '@' then classExpression self
  else if b == ascii '#' then privateName
  else if b == ascii '<' then
    if ← startsTypeParameters then arrowTail self [] <|> self .markup else self .markup
  else numberLiteral

/-! ### Operators -/

def member (self : Rules) (target : Outline) (dot : Outline) : Parser Outline := do
  if ← isAt "[" then
    return .node .subscriptExpression [target, dot, ← punct "[", ← bracketed (self .sequence), ← punct "]"]
  else if (← isAt "(") || (← isAt "<") then
    let types ← when (isAt "<") (one (typeArguments self))
    let args ← argumentList self
    return .node .callExpression ([target.as .callee, dot] ++ types ++ [args.as .arguments])
  else
    let name ← anyWord .propertyIdentifier <|> privateName
    return .node .memberExpression [target.as .receiver, dot, name.as .property]

/-- Type arguments after an expression, if what follows them shows that they are not comparisons. -/
def instantiation (self : Rules) (target : Outline) : Parser Outline := do
  let types ← typeArguments self
  let b ← nextByte
  if b == 0x28 then
    let args ← argumentList self
    return .node .callExpression [target.as .callee, types, args.as .arguments]
  else if b == 0x60 then
    let text ← template (self .sequence)
    return .node .callExpression [target.as .callee, types, text.as .arguments]
  else if (← isAtEnd) || (← afterLineBreak) || [0x29, ascii ']', 0x7D, ascii ',', ascii ';', ascii ':', ascii '.',
      ascii '?', ascii '=', ascii '&', ascii '|'].contains b || (← isAtWord "as") || (← isAtWord "satisfies") then
    return .node .instantiationExpression [target, types]
  else failure

def postfixStep (self : Rules) (target : Outline) : Parser (Option Outline) := do
  let operator ← nextOperator
  let b ← nextByte
  if operator == "?." then return some (← member self target (← punct "?."))
  else if b == ascii '.' && operator != "..." then
    let dot ← punct "."
    let name ← anyWord .propertyIdentifier <|> privateName
    return some (.node .memberExpression [target.as .receiver, dot, name.as .property])
  else if b == ascii '[' then
    return some (.node .subscriptExpression [target, ← punct "[", ← bracketed (self .sequence), ← punct "]"])
  else if b == 0x28 then
    return some (.node .callExpression [target.as .callee, (← argumentList self).as .arguments])
  else if b == 0x60 then
    return some (.node .callExpression [target.as .callee, (← template (self .sequence)).as .arguments])
  else if operator == "!" && !(← afterLineBreak) then
    return some (.node .nonNullExpression [target, ← punct "!"])
  else if (operator == "++" || operator == "--") && !(← afterLineBreak) then
    return some (.node .updateExpression [target, ← punct operator])
  else if operator == "<" then
    (do return some (← instantiation self target)) <|> pure none
  else return none

def postfixExpression (self : Rules) : Parser Outline := do
  iterate (postfixStep self) (← self .primary)

/-- An assertion of a type on the operand before it. -/
def assertionStep (self : Rules) (operand : Outline) : Parser (Option Outline) := do
  let type : Parser Outline := do
    if ← isAtWord "const" then keyword "const" else self .typeExpr
  if ← isAtWord "as" then return some (.node .asExpression [operand, ← keyword "as", ← type])
  else if ← isAtWord "satisfies" then
    return some (.node .satisfiesExpression [operand, ← keyword "satisfies", ← type])
  else return none

/-- Whether the token after the next word can start an operand. -/
def wordTakesOperand : Parser Bool := do
  let b ← byteAfterWord
  let closers := [0x29, ascii ']', 0x7D, ascii ',', ascii ';', ascii ':', ascii '=', ascii '.', ascii '?']
  return b != 0 && !closers.contains b

def unaryRule (self : Rules) : Parser Outline := do
  let operator ← nextOperator
  let word ← nextWord
  if operator == "++" || operator == "--" then
    return .node .updateExpression [← punct operator, ← self .unary]
  else if ["!", "~", "+", "-"].contains operator then
    return .node .unaryExpression [← punct operator, ← self .unary]
  else if ["typeof", "void", "delete"].contains word then
    return .node .unaryExpression [← anyWord .token, ← self .unary]
  else if word == "await" && (← wordTakesOperand) then
    let mark ← keyword "await"
    let operand ← iterate (assertionStep self) (← self .unary)
    return .node .awaitExpression [mark, operand]
  else if operator == "<" && (← input).dialect == .typescript then
    (do iterate (postfixStep self) (← arrowTail self []))
    <|> (do return .node .typeAssertion [← typeArguments self, ← self .unary])
  else postfixExpression self

/-- Operands joined by binary operators of at least a given level. An assertion binds less tightly than any of them, and
what stands before it is its operand as a whole. -/
def binaryRule (self : Rules) (level : Nat) : Parser Outline := do
  iterate (fun (left : Outline) => do
    let word ← nextWord
    let operator ← if word == "in" || word == "instanceof" then pure word else nextOperator
    let here := bindingLevel operator
    if here ≠ 0 && level ≤ here then
      let mark ← if word == "" then punct operator else anyWord .token
      let right ← self (.binary (if operator == "**" then here else here + 1))
      return some (.node .binaryExpression [left, mark, right])
    else if level ≤ 1 then assertionStep self left
    else return none) (← self .unary)

def conditional (self : Rules) (test : Outline) : Parser Outline := do
  let mark ← punct "?"
  let branch : Parser (List Outline) := do return [← self .expression, ← punct ":"]
  let first ← branch <|> withReader ({ · with typedArrow := false }) branch
  return .node .ternaryExpression ([test, mark] ++ first ++ [← self .expression])

def yieldExpression (self : Rules) : Parser Outline :=
  node .yieldExpression do
    let takesOperand := (← wordTakesOperand)
    let word ← keyword "yield"
    let star ← optional (one (punct "*"))
    let operand ←
      if takesOperand && !(← afterLineBreak) then optional (one (self .expression)) else pure []
    return [word] ++ star ++ operand

def expressionRule (self : Rules) : Parser Outline := do
  if ← isAtWord "yield" then yieldExpression self
  else
    let left ← self (.binary 0)
    let operator ← nextOperator
    if operator == "?" then conditional self left
    else if operator == "=" then
      return .node .assignmentExpression [left, ← punct "=", ← self .expression]
    else if augmentedOperators.contains operator then
      return .node .augmentedAssignmentExpression [left, ← punct operator, ← self .expression]
    else return left

def sequenceRule (self : Rules) : Parser Outline := do
  let first ← self .expression
  let rest ← many do return [← punct ",", ← self .expression]
  if rest.isEmpty then return first else return .node .sequenceExpression (first :: rest)

end SchemaTypes.Syntax.Parser
