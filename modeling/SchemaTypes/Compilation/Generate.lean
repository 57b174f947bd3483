import SchemaTypes.Compilation.Resolve
import SchemaTypes.TypeText

/-!
The type blocks of declarations, and the output for a whole request.
-/

namespace SchemaTypes

/-- The lines of a field in a type block, with its documentation before it. -/
def Field.blockLines (aliases : AliasTable) (field : Field) : List Text :=
  (field.doc.map (indent 1 ++ ·)).toList ++ [field.line aliases 1]

/-- The lines of an exported type: the documentation of the statement, then the fields of every object in order. -/
def Declaration.blockLines (declaration : Declaration) (type : Text) (aliases : AliasTable) :
    Except Error (List Text) := do
  let doc ← match declaration.statement with
    | some statement => statement.firstDoc
    | none => pure none
  let fields ← declaration.objects.mapM (Field.ofLiteral true)
  let opening : Text := "export type " ++ type ++ " = \x7b"
  let closing : Text := "\x7d"
  return doc.toList ++ [opening] ++ fields.flatten.flatMap (Field.blockLines aliases) ++ [closing]

namespace Compilation

/-- The block of one entry of a request. -/
def renderEntry (entry : SourceFile) (aliases : AliasTable) (wanted : Text × Text) : Compile (List Text) := do
  let (schema, type) := wanted
  let declaration ← resolveDeclaration entry schema
  report (.rendering schema type declaration.file.path declaration.objects.length)
  liftM (declaration.blockLines type aliases)

/-- The types of a request, seen from the file that a reference stands for. -/
def generate (reference : Text) (request : Request) : Compile Text := do
  let entry ← loadReference reference none
  let blocks ← request.entries.mapM (renderEntry entry (.ofRequest request))
  return Text.join "\n" blocks.flatten

end Compilation
end SchemaTypes
