import SchemaTypes.DocComment
import SchemaTypes.OrderedMap
import SchemaTypes.StringLiteral
import SchemaTypes.Syntax.Tree

/-!
A source file as the compiler sees it: the variables it binds, at any depth, and the names it imports.
-/

namespace SchemaTypes

open Syntax

/-- A declarator of one variable, with the statement that documents it. -/
structure Declarator where
  node : Node
  statement : Option Placed

/-- The initial value of a declarator. -/
def Declarator.value? (d : Declarator) : Option Node := d.node.child? .value

/-- The suffixes of the files that are watched, with their dialects. -/
def dialects : List (Text × Dialect) :=
  [(".ts", .typescript), (".mts", .typescript), (".cts", .typescript), (".tsx", .tsx)]

def CodePoint.lowerAscii (c : CodePoint) : CodePoint :=
  if 0x41 ≤ c.val && c.val ≤ 0x5A then (CodePoint.ofNat? (c.val + 0x20)).getD c else c

/-- The dialect of a path, whatever the case of its suffix. No letter outside ASCII becomes one of theirs in lower
case. -/
def Path.dialect (p : Path) : Dialect := (dialects.lookup (p.suffix.map CodePoint.lowerAscii)).getD .typescript

/-- Whether a path has one of the suffixes, in exactly their spelling. -/
def Path.isSource (p : Path) : Bool := (dialects.lookup p.suffix).isSome

/-- The value of a string literal node. -/
def Syntax.Node.stringValue (n : Node) : Except Error Text := do StringLiteral.value (← n.text)

/-- The statement of a declarator in a declaration list: the export around the list, or the list itself. -/
def Declarator.statementOf (list around : Option Placed) : Option Placed :=
  match list with
  | none => none
  | some list =>
    if list.node.kind == .lexicalDeclaration || list.node.kind == .variableDeclaration then
      match around with
      | some around => if around.node.kind == .exportStatement then some around else some list
      | none => some list
    else none

mutual

/-- The declarators of single names in a node, in source order, given the node around it and the one around that. -/
def Syntax.Node.declaratorsIn (parent around : Option Placed) (before : List Node) : Node → List Declarator
  | .mk kind role bytes startRow endRow children =>
    let node := Node.mk kind role bytes startRow endRow children
    let own :=
      if kind == .variableDeclarator && ((node.child? .name).map Node.kind) == some .identifier then
        [⟨node, Declarator.statementOf parent around⟩]
      else []
    own ++ Node.declaratorsInAll (some ⟨node, before⟩) parent [] children

def Syntax.Node.declaratorsInAll (parent around : Option Placed) (before : List Node) : List Node → List Declarator
  | [] => []
  | child :: rest =>
    Node.declaratorsIn parent around before child ++ Node.declaratorsInAll parent around (child :: before) rest

end

/-- The declarators of single names below a node, in source order. -/
def Syntax.Node.declarators (root : Node) : List Declarator := Node.declaratorsIn none none [] root

/-- Every declarator below a node with the name it binds, in source order. -/
def Syntax.Node.namedDeclarators (root : Node) : Except Error (List (Text × Declarator)) :=
  root.declarators.filterMapM fun d =>
    match d.node.child? .name with
    | some name => do return some (← name.text, d)
    | none => return none

/-- A file as it was read, with its syntax tree and what it declares. -/
structure SourceFile where
  path : Path
  bytes : ByteArray
  root : Node
  declarators : Except Error (List (Text × Declarator))
  declarators_eq : declarators = root.namedDeclarators
  spells : root.Spells bytes

namespace SourceFile

def parse (parser : TreeParser) (path : Path) (bytes : ByteArray) : SourceFile :=
  let root := parser.parse path.dialect bytes
  ⟨path, bytes, root, root.namedDeclarators, rfl, parser.spells path.dialect bytes⟩

def directory (f : SourceFile) : Path := f.path.parent

/-- The declarator of each name. Of several the last one counts. -/
def bindings (f : SourceFile) : Except Error (OrderedMap Text Declarator) :=
  return .ofList (← f.declarators)

/-- The last declarator of a name. -/
def binding? (f : SourceFile) (name : Text) : Except Error (Option Declarator) :=
  return (← f.declarators).reverse.lookup name

/-- The name on the exporting side of an import. -/
def importedName (specifier : Node) : Except Error (Option Text) :=
  match specifier.child? .name with
  | none => return none
  | some name => do
    if name.kind == .string then return some (← name.stringValue) else return some (← name.text)

/-- The specifiers between the braces of an import. -/
def specifiers (statement : Node) : List Node :=
  let clauses := statement.children.filter (·.kind == .importClause)
  let lists := clauses.flatMap fun clause => clause.children.filter (·.kind == .namedImports)
  lists.flatMap fun list => list.members.filter (·.kind == .importSpecifier)

def importStep (table : OrderedMap Text Text) (statement : Node) : Except Error (OrderedMap Text Text) :=
  match statement.child? .source with
  | none => return table
  | some source =>
    if source.kind == .string then
      (specifiers statement).foldlM (fun table specifier => do
        match ← importedName specifier with
        | none => return table
        | some name => return table.insertNew name (← source.stringValue)) table
    else return table

/-- The module reference of each name that is imported in braces at the top of the file, by the name on the exporting
side. Of several the first one counts. -/
def namedImports (f : SourceFile) : Except Error (OrderedMap Text Text) :=
  (f.root.children.filter (·.kind == .importStatement)).foldlM importStep .empty

end SourceFile
end SchemaTypes
