import SchemaTypes.Syntax.Node
import SchemaTypes.Text.Blank

/-!
The documentation comment of a node: one of the comments that lead up to it on lines of their own.
-/

namespace SchemaTypes

open Syntax

/-- A node with the siblings before it, nearest first. -/
structure Placed where
  node : Node
  before : List Node

/-- The children of a node in their places. -/
def Syntax.Node.placedChildren (n : Node) : List Placed := go [] n.children
where
  go (before : List Node) : List Node → List Placed
    | [] => []
    | c :: rest => ⟨c, before⟩ :: go (c :: before) rest

namespace Placed

/-- The comments directly before a node, in source order. One that starts on the line on which the sibling before them
ends belongs to that sibling. -/
def leadingComments (p : Placed) : List Node :=
  let run := (p.before.takeWhile Node.isComment).reverse
  match p.before.dropWhile Node.isComment with
  | [] => run
  | sibling :: _ => run.filter (sibling.endRow < ·.startRow)

/-- The leading comments that are documentation. -/
def docComments (p : Placed) : Except Error (List Text) := do
  let texts ← p.leadingComments.mapM Node.text
  return texts.filter (Text.startsWith "/**")

/-- The documentation of a declaration is the first such comment. -/
def firstDoc (p : Placed) : Except Error (Option Text) :=
  return (← p.docComments).head?.map Text.trim

/-- The documentation of a field is the last such comment. -/
def lastDoc (p : Placed) : Except Error (Option Text) :=
  return (← p.docComments).getLast?.map Text.trim

end Placed
end SchemaTypes
