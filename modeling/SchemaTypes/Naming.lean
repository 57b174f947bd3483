import SchemaTypes.OrderedMap
import SchemaTypes.Text.Digit

/-!
Names: the base name of a schema, the names that references resolve to, and how the name of a field is written.
-/

namespace SchemaTypes

/-- A schema name without a final `Schema` or `SchemaDefinition`. -/
def dropSchemaEnding (name : Text) : Text :=
  match Text.dropEnd? "SchemaDefinition" name with
  | some base => base
  | none => (Text.dropEnd? "Schema" name).getD name

/-- The base name of a schema. One line feed at the very end is kept and does not hide the ending before it. -/
def schemaBaseName (name : Text) : Text :=
  if name.getLast? = some 0x0A then dropSchemaEnding name.dropLast ++ [0x0A] else dropSchemaEnding name

/-- What is asked for: the public type name of each schema, in the order of the output. -/
abbrev Request := OrderedMap Text Text

/-- What the base names of references stand for. -/
abbrev AliasTable := OrderedMap Text Text

/-- Each requested schema's base name, and each public name, stands for the public name. -/
def AliasTable.ofRequest (request : Request) : AliasTable :=
  request.entries.foldl
    (fun table (schema, type) => (table.insert (schemaBaseName schema) type).insert type type) .empty

namespace FieldName

def isLetter (c : CodePoint) : Bool :=
  (0x41 ≤ c.val && c.val ≤ 0x5A) || (0x61 ≤ c.val && c.val ≤ 0x7A) || c = 0x5F || c = 0x24

def isLetterOrDigit (c : CodePoint) : Bool := isLetter c || (0x30 ≤ c.val && c.val ≤ 0x39)

/-- An ASCII identifier. -/
def isIdentifier : Text → Bool
  | [] => false
  | c :: rest => isLetter c && rest.all isLetterOrDigit

/-- A run of decimal digits of any script. -/
def isDigits (t : Text) : Bool := !t.isEmpty && t.all CodePoint.isDecimalDigit

/-- Whether a name is written without quotes. One line feed at the very end is not looked at. -/
def isBare (name : Text) : Bool :=
  let body := if name.getLast? = some 0x0A then name.dropLast else name
  isIdentifier body || isDigits body

/-- One code point between single quotes. -/
def escaped (c : CodePoint) : Text :=
  if c = 0x5C then "\\\\"
  else if c = 0x27 then "\\'"
  else if c = 0x0A then "\\n"
  else if c = 0x0D then "\\r"
  else if c = 0x09 then "\\t"
  else [c]

def quote (name : Text) : Text := [0x27] ++ name.flatMap escaped ++ [0x27]

/-- A field name as it stands before the colon. -/
def format (name : Text) : Text := if isBare name then name else quote name

end FieldName
end SchemaTypes
