import SchemaTypes.SourceFile

/-!
Schema declarations, reduced to the object literals whose fields they expose.
-/

namespace SchemaTypes

open Syntax

/-- A binding that builds objects: one for a direct object schema, one per member for a composition. The literals may
stand in other files than the binding. -/
structure Declaration where
  name : Text
  objects : List Node
  file : SourceFile
  statement : Option Placed

/-- The declarations of one file by name. -/
abbrev DeclarationIndex := OrderedMap Text Declaration

end SchemaTypes
