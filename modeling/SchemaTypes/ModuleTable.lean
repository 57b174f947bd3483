import SchemaTypes.Shape
import SchemaTypes.SourceFile

/-!
The table that a file publishes as `module`: from keys to the identifiers of definitions.
-/

namespace SchemaTypes

open Syntax

/-- From the keys of a module table to identifiers. -/
abbrev ModuleTable := OrderedMap Text Text

namespace ModuleTable

/-- The name of the binding that publishes the table. -/
def bindingName : Text := "module"

/-- The key an expression in brackets stands for: the last name of a member access, or a string. -/
def computedKey (expression : Node) : Except Error (Option Text) :=
  if expression.kind == .memberExpression then
    match expression.child? .property with
    | some property => some <$> property.text
    | none => return none
  else if expression.kind == .string then some <$> expression.stringValue
  else return none

/-- The key that an entry is published under. -/
def keyOf (key : Node) : Except Error (Option Text) :=
  if key.kind == .string then some <$> key.stringValue
  else if key.kind == .propertyIdentifier || key.kind == .identifier then some <$> key.text
  else if key.kind == .computedPropertyName then
    match key.members with
    | [] => return none
    | inner :: _ => computedKey inner.unwrap
  else return none

/-- Add what one member of the literal publishes. Only identifiers are published, and not under an empty key. -/
def publish (table : ModuleTable) (entry : Node) : Except Error ModuleTable := do
  if entry.kind != .pair then return table
  match entry.child? .key, entry.child? .value with
  | some key, some target =>
    if target.kind != .identifier then return table
    match ← keyOf key with
    | some (c :: rest) => return table.insert (c :: rest) (← target.text)
    | _ => return table
  | _, _ => return table

/-- The table of an object literal. -/
def ofLiteral (literal : Node) : Except Error ModuleTable := literal.members.foldlM publish .empty

/-- The table that a file publishes, if its last binding of the name is one. -/
def find (file : SourceFile) : Except Error (Option ModuleTable) := do
  match (← file.binding? bindingName).bind Declarator.value? with
  | none => return none
  | some value =>
    match ← Shape.ofNode value with
    | .moduleTable literal => some <$> ofLiteral literal
    | _ => return none

end ModuleTable
end SchemaTypes
