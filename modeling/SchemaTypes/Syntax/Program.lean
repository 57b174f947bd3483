import SchemaTypes.Syntax.Grammar.Expression
import SchemaTypes.Syntax.Grammar.Statement

/-!
Whole programs. The rules of the grammar are tied together here by a bound on the depth of nesting, which the length of
the text supplies.

There is no recovery from errors. One phrase outside the grammar leaves a program without any statements, where a parser
that recovers would keep the others. Besides texts that are wrong, such phrases are `using x = f()`, the bound in
`T extends infer U extends string ? A : B` and the name in `import { type as }`.
-/

namespace SchemaTypes.Syntax.Parser

/-- One step of the grammar, given the parser of everything nested inside. -/
def rule (self : Rules) : Goal → Parser Outline
  | .sequence => sequenceRule self
  | .expression => expressionRule self
  | .binary level => binaryRule self level
  | .unary => unaryRule self
  | .primary => primaryRule self
  | .markup => markupRule self
  | .pattern => patternRule self
  | .typeExpr => typeExprRule self
  | .typeOperand => typeOperandRule self
  | .statement => statementRule self
  | .block operand => blockRule self operand

def goal : Nat → Rules
  | 0 => fun _ => failure
  | depth + 1 => rule (goal depth)

/-- A line that names an interpreter at the very start. -/
def hashBang : Parser (List Outline) :=
  when (isAt "#!") do
    let s ← input
    one (leafTo .hashBang (s.find s.isLineBreakAt (← get).next))

def statements : Parser (List Outline) := do
  let depth := 16 * ((← input).size + 4)
  let lead ← hashBang
  let body ← iterate (α := List Outline)
    (fun found => do if ← isAtEnd then return none else return some (found ++ [← goal depth .statement])) []
  return lead ++ body

/-- The outline of a program. It reaches over the whole text, up to a last token without width. A text that does not
parse has no statements. -/
def program (s : Input) : Outline :=
  let found := ((statements.run { input := s }).run { last := 0, next := s.skipTrivia 0 }).map Prod.fst
  .mk .program none 0 s.size (found.getD [] ++ [.leaf .token s.size s.size])

end SchemaTypes.Syntax.Parser
