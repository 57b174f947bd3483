import SchemaTypes.Syntax.Input
import SchemaTypes.Syntax.Outline
import SchemaTypes.Syntax.Semicolon

/-!
Parsers over an input. A parser fails or answers with a value and a later cursor; an alternative starts again from the
cursor its first branch started from.
-/

namespace SchemaTypes.Syntax

/-- What stays fixed while a phrase is parsed. -/
structure Scope where
  input : Input
  /-- Whether an arrow function may have a result type here; not so in a conditional whose colon would be taken for
  it. -/
  typedArrow : Bool := true

/-- The end of the last token and the start of the next one. -/
structure Cursor where
  last : Nat
  next : Nat

abbrev Parser := ReaderT Scope (StateT Cursor Option)

namespace Parser

def input : Parser Input := return (← read).input

/-- Take everything up to an offset as one token. -/
def moveTo (stop : Nat) : Parser Unit := do
  let s ← input
  set { last := stop, next := s.skipTrivia stop : Cursor }

def leafTo (kind : Kind) (stop : Nat) : Parser Outline := do
  let start := (← get).next
  moveTo stop
  return .leaf kind start stop

/-- A leaf that a scanner recognises at the next token. -/
def scan (kind : Kind) (scanner : Input → Nat → Option Nat) : Parser Outline := do
  match scanner (← input) (← get).next with
  | some stop => leafTo kind stop
  | none => failure

def nextByte : Parser UInt8 := return (← input).byte (← get).next

def isAtEnd : Parser Bool := return (← get).next ≥ (← input).size

def isAt (spelling : String) : Parser Bool := return (← input).spells spelling (← get).next

/-- Punctuation. A longer operator that starts the same way has to be ruled out before. -/
def punct (spelling : String) : Parser Outline := do
  if ← isAt spelling then leafTo .token ((← get).next + spelling.length) else failure

def nextWord : Parser String := return (← input).word (← get).next

/-- The word after the next one. -/
def secondWord : Parser String := do
  let s ← input
  match s.wordEnd? (← get).next with
  | some stop => return s.word (s.skipTrivia stop)
  | none => return ""

/-- The byte at the start of the token after the next word. -/
def byteAfterWord : Parser UInt8 := do
  let s ← input
  match s.wordEnd? (← get).next with
  | some stop => return s.byte (s.skipTrivia stop)
  | none => return 0

def isAtWord (word : String) : Parser Bool := return (← nextWord) == word

def keyword (word : String) : Parser Outline := do
  if ← isAtWord word then scan .token Input.wordEnd? else failure

/-- Any word as a leaf of a given kind. -/
def anyWord (kind : Kind) : Parser Outline := scan kind Input.wordEnd?

def afterLineBreak : Parser Bool := do
  let c ← get
  return (← input).breaksLine c.last c.next

/-- No phrase, or the one a parser finds. -/
def optional (p : Parser (List Outline)) : Parser (List Outline) := p <|> pure []

def one (p : Parser Outline) : Parser (List Outline) := return [← p]

/-- A phrase where a condition holds, nothing elsewhere. -/
def when (condition : Parser Bool) (p : Parser (List Outline)) : Parser (List Outline) := do
  if ← condition then p else pure []

def iterateWith {α : Type} (step : α → Parser (Option α)) : Nat → α → Parser α
  | 0, a => pure a
  | fuel + 1, a => do
    match ← step a with
    | some b => iterateWith step fuel b
    | none => pure a

/-- Repeat a step until it answers with nothing. Each step takes at least one byte, so the input's size bounds their
number. -/
def iterate {α : Type} (step : α → Parser (Option α)) (a : α) : Parser α := do
  iterateWith step ((← input).size + 1) a

/-- Phrases one after the other, as long as a parser finds one. -/
def many (p : Parser (List Outline)) : Parser (List Outline) :=
  iterate (α := List Outline) (fun found => (return some (found ++ (← p))) <|> pure none) []

/-- Phrases until a closing mark, which is taken too. -/
def manyUntil (close : String) (p : Parser (List Outline)) : Parser (List Outline) := do
  let inner ← iterate (α := List Outline)
    (fun found => do if ← isAt close then return none else return some (found ++ (← p))) []
  return inner ++ [← punct close]

/-- Comma-separated items up to a closing mark; items may be left out. -/
def listUntil (close : String) (item : Parser (List Outline)) : Parser (List Outline) :=
  manyUntil close (one (punct ",") <|> do
    let found ← item
    if (← isAt ",") || (← isAt close) then return found else failure)

def node (kind : Kind) (p : Parser (List Outline)) : Parser Outline := return .node kind (← p)

/-- The end of a statement: a semicolon, or the place where one may be left out. -/
def semicolon (next : Continuation) : Parser (List Outline) := do
  match (← input).implicitEnd? next (← get).last with
  | some stop =>
    moveTo stop
    return [.leaf .token stop stop]
  | none => one (punct ";")

/-- The end of a statement that is only marked if it is left out. -/
def implicitSemicolon (next : Continuation) : Parser (List Outline) := do
  match (← input).implicitEnd? next (← get).last with
  | some stop =>
    moveTo stop
    return [.leaf .token stop stop]
  | none => return []

/-- Inside brackets the surroundings of a phrase no longer matter. -/
def bracketed {α : Type} (p : Parser α) : Parser α := withReader ({ · with typedArrow := true }) p

end Parser
end SchemaTypes.Syntax
