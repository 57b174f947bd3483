import SchemaTypes.Compilation.Index
import SchemaTypes.ModuleTable

/-!
From a schema name to its declaration: directly, or through the module table of the file.
-/

namespace SchemaTypes.Compilation

open Syntax

/-- The argument of `module.Import` that a name is bound to. -/
def importKey? (file : SourceFile) (schema : Text) : Except Error (Option Node) := do
  match (← file.binding? schema).bind Declarator.value? with
  | none => return none
  | some value =>
    match ← Shape.ofNode value with
    | .moduleImport key => return some key
    | _ => return none

def fail {α : Type} (schema : Text) (file : SourceFile) (cause : ResolutionCause) : Compile α :=
  throw (.resolution ⟨schema, file.path, cause⟩)

/-- The declaration behind a key of the module table. Its identifier is looked up in the file itself and then in the
file it is imported from, but no further. -/
def resolveKey (file : SourceFile) (schema : Text) (keyNode : Node) : Compile Declaration := do
  if keyNode.kind != .string then fail schema file .keyNotString
  let key ← liftM keyNode.stringValue
  let some table ← liftM (ModuleTable.find file) | fail schema file (.noModuleTable key)
  let some target := table.get? key | fail schema file (.keyNotInTable key)
  if let some declaration := (← indexDeclarations file).get? target then return declaration
  let some imported ← loadImport file target | fail schema file (.notImported target)
  let some declaration := (← indexDeclarations imported).get? target | fail schema imported (.notAnObject target)
  return declaration

/-- The declaration of a schema as seen from a file. -/
def resolveDeclaration (file : SourceFile) (schema : Text) : Compile Declaration := do
  if let some declaration := (← indexDeclarations file).get? schema then return declaration
  match ← liftM (importKey? file schema) with
  | some key => resolveKey file schema key
  | none => fail schema file .notFound

end SchemaTypes.Compilation
