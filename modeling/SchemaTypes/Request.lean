import SchemaTypes.Naming
import SchemaTypes.Text.Blank

/-!
Requests as they are written on the command line, one `SchemaName=TypeName` after the other.
-/

namespace SchemaTypes.Request

/-- The two sides of the first equals sign. -/
def splitPair : Text → Option (Text × Text)
  | [] => none
  | c :: rest => if c = 0x3D then some ([], rest) else (splitPair rest).map fun (left, right) => (c :: left, right)

/-- The schema and the type of one pair. Blanks around them do not count, and neither may be empty. -/
def parsePair (value : Text) : Option (Text × Text) := do
  let (left, right) ← splitPair value
  let schema := left.trim
  let type := right.trim
  if schema.isEmpty || type.isEmpty then none else some (schema, type)

/-- The request of a list of pairs, or the first value that is no pair. -/
def parse (values : List Text) : Except Text Request :=
  values.foldlM (fun request value =>
    match parsePair value with
    | some (schema, type) => .ok (request.insert schema type)
    | none => .error value) .empty

end SchemaTypes.Request
