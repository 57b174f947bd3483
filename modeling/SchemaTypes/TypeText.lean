import SchemaTypes.Naming
import SchemaTypes.Schema

/-!
The type expressions that schemas are written as.
-/

namespace SchemaTypes

/-- A type as text, and whether the field that holds it may be left out. -/
structure TypeText where
  text : Text
  optional : Bool := false

/-- Two spaces for each level; none at a level below zero. -/
def indent (depth : Int) : Text := List.replicate (2 * depth.toNat) 0x20

/-- The line of a field. -/
def fieldLine (depth : Int) (name : Text) (type : TypeText) : Text :=
  indent depth ++ FieldName.format name ++ (if type.optional then "?" else "") ++ ": " ++ type.text

/-- The lines of an object type whose fields have their lines already. -/
def objectText (depth : Int) (lines : List Text) : Text :=
  Text.join "\n" (("\x7b" : Text) :: (lines ++ [indent depth ++ "\x7d"]))

mutual

/-- The type of a schema on a line of a given depth. An array drops the mark of its element. -/
def Schema.typeText (aliases : AliasTable) (depth : Int) : Schema → TypeText
  | .primitive type => { text := type.typeName }
  | .reference base => { text := (aliases.get? base).getD base }
  | .optional inner => { text := (inner.typeText aliases depth).text, optional := true }
  | .array inner => { text := (inner.typeText aliases depth).text ++ "[]" }
  | .object fields => { text := objectText depth (Schema.fieldLines aliases (depth + 1) fields) }

def Schema.fieldLines (aliases : AliasTable) (depth : Int) : List (Text × Schema) → List Text
  | [] => []
  | (name, schema) :: rest => fieldLine depth name (schema.typeText aliases depth) :: fieldLines aliases depth rest

end

/-- The line of a described field. -/
def Field.line (aliases : AliasTable) (depth : Int) (field : Field) : Text :=
  fieldLine depth field.name (field.schema.typeText aliases depth)

/-- The type that an expression stands for, if it is in the builder's vocabulary. -/
def inferType (aliases : AliasTable) (depth : Int) (expression : Syntax.Node) : Except Error (Option TypeText) :=
  return (← Schema.ofNode expression).map (·.typeText aliases depth)

end SchemaTypes
