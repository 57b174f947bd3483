/-!
The vocabulary of syntax trees: what a node is, and which part of its parent it plays.
-/

namespace SchemaTypes.Syntax

/-- The two dialects of the language; the second has markup elements in place of angle-bracket assertions. -/
inductive Dialect where
  | typescript
  | tsx
  deriving DecidableEq, Repr

def Dialect.name : Dialect → String
  | .typescript => "typescript"
  | .tsx => "tsx"

/-- The kind of a node. Punctuation and keywords are `token`; `other` is any named node that no reader of the tree
tells apart. -/
inductive Kind where
  | token | comment | hashBang | other
  | program | importStatement | importClause | namedImports | importSpecifier
  | exportStatement | lexicalDeclaration | variableDeclaration | variableDeclarator
  | identifier | undefined | this | super | null | true | false | number | string | templateString | regex
  | array | object | pair | shorthandProperty | spreadElement | methodDefinition
  | propertyIdentifier | privatePropertyIdentifier | computedPropertyName
  | arguments | callExpression | newExpression | memberExpression | subscriptExpression
  | unaryExpression | updateExpression | binaryExpression | ternaryExpression
  | assignmentExpression | augmentedAssignmentExpression | sequenceExpression
  | awaitExpression | yieldExpression | arrowFunction | functionExpression | generatorFunction | classExpression
  | metaProperty | parenthesizedExpression | asExpression | satisfiesExpression | nonNullExpression
  | typeAssertion | instantiationExpression | jsxElement | jsxSelfClosingElement
  deriving DecidableEq, Repr

namespace Kind

def name : Kind → String
  | token => "token"
  | comment => "comment"
  | hashBang => "hash_bang_line"
  | other => "node"
  | program => "program"
  | importStatement => "import_statement"
  | importClause => "import_clause"
  | namedImports => "named_imports"
  | importSpecifier => "import_specifier"
  | exportStatement => "export_statement"
  | lexicalDeclaration => "lexical_declaration"
  | variableDeclaration => "variable_declaration"
  | variableDeclarator => "variable_declarator"
  | identifier => "identifier"
  | undefined => "undefined"
  | this => "this"
  | super => "super"
  | null => "null"
  | true => "true"
  | false => "false"
  | number => "number"
  | string => "string"
  | templateString => "template_string"
  | regex => "regex"
  | array => "array"
  | object => "object"
  | pair => "pair"
  | shorthandProperty => "shorthand_property_identifier"
  | spreadElement => "spread_element"
  | methodDefinition => "method_definition"
  | propertyIdentifier => "property_identifier"
  | privatePropertyIdentifier => "private_property_identifier"
  | computedPropertyName => "computed_property_name"
  | arguments => "arguments"
  | callExpression => "call_expression"
  | newExpression => "new_expression"
  | memberExpression => "member_expression"
  | subscriptExpression => "subscript_expression"
  | unaryExpression => "unary_expression"
  | updateExpression => "update_expression"
  | binaryExpression => "binary_expression"
  | ternaryExpression => "ternary_expression"
  | assignmentExpression => "assignment_expression"
  | augmentedAssignmentExpression => "augmented_assignment_expression"
  | sequenceExpression => "sequence_expression"
  | awaitExpression => "await_expression"
  | yieldExpression => "yield_expression"
  | arrowFunction => "arrow_function"
  | functionExpression => "function_expression"
  | generatorFunction => "generator_function"
  | classExpression => "class"
  | metaProperty => "meta_property"
  | parenthesizedExpression => "parenthesized_expression"
  | asExpression => "as_expression"
  | satisfiesExpression => "satisfies_expression"
  | nonNullExpression => "non_null_expression"
  | typeAssertion => "type_assertion"
  | instantiationExpression => "instantiation_expression"
  | jsxElement => "jsx_element"
  | jsxSelfClosingElement => "jsx_self_closing_element"

/-- Everything but punctuation and keywords is a named node. -/
def isNamed (k : Kind) : Bool := k != token

end Kind

/-- The part a node plays in its parent, where readers ask for it. -/
inductive Role where
  | name | value | key | callee | arguments | receiver | property | source
  deriving DecidableEq, Repr

end SchemaTypes.Syntax
