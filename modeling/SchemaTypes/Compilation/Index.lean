import SchemaTypes.Compilation.Basic
import SchemaTypes.Shape

/-!
The declarations of a file. Compositions are followed along bindings, locally and through imports; a binding that is
being followed already contributes nothing.
-/

namespace SchemaTypes

open Syntax

/-- A bound name in the file that binds it. -/
abbrev BindingKey := Path × Text

/-- How many files a workspace holds. -/
def Workspace.fileCount (w : Workspace) : Nat :=
  (w.files.entries.values.filter Entry.isFile).length

/-- No more names than this are bound in a text. Each is a part of the text, told by where it starts and stops. -/
def nameBound (bytes : ByteArray) : Nat := (bytes.size + 1) * (bytes.size + 1)

def Entry.nameBound : Entry → Nat
  | file bytes => SchemaTypes.nameBound bytes
  | directory => 0

/-- No more names than this are bound in the files of a workspace together. -/
def Workspace.nameBound (w : Workspace) : Nat :=
  w.files.entries.values.foldl (fun n entry => n + entry.nameBound) 0

namespace Compilation

/-- No chain of imports is longer than this. A file on disk can be reached under two absolute paths, one with one leading
slash and one with two. -/
def chainBound (w : Workspace) (c : Compilation) : Nat := 2 * w.fileCount + c.files.size + 2

/-- No composition is nested deeper than there are names bound in the files that can be reached. -/
def nestingBound (w : Workspace) (c : Compilation) (file : SourceFile) : Nat :=
  2 * w.nameBound + c.files.values.foldl (fun n cached => n + nameBound cached.bytes) 0 + nameBound file.bytes + 1

/-- The nearest binding of a name on the chain of files that starts with one and goes on with the file that each of them
imports the name from. The search ends where the chain comes back to a file. -/
def searchBinding (name : Text) : Nat → List Path → SourceFile → Compile (Option (SourceFile × Declarator))
  | 0, _, _ => throw .unfinished
  | fuel + 1, seen, file => do
    if file.path ∈ seen then return none
    match ← liftM (file.binding? name) with
    | some declarator => return some (file, declarator)
    | none =>
      match ← loadImport file name with
      | none => return none
      | some next => searchBinding name fuel (file.path :: seen) next

/-- The binding of a name as seen from a file. -/
def resolveBinding (file : SourceFile) (name : Text) : Compile (Option (SourceFile × Declarator)) := do
  searchBinding name (chainBound (← read) (← get)) [] file

/-- Follow an expression in a file, given the bindings that are being followed already. -/
abbrev Follow := List BindingKey → SourceFile → Node → Compile (List Node)

/-- The literals of one member of a composition: an object built in place, or whatever a name is bound to. -/
def memberLiterals (follow : Follow) (active : List BindingKey) (file : SourceFile) (member : Node) :
    Compile (List Node) := do
  match ← liftM (Shape.ofNode member) with
  | .inlineObject literal => return [literal]
  | _ =>
    if member.kind == .identifier then
      let name ← liftM member.text
      match ← resolveBinding file name with
      | none => return []
      | some (owner, declarator) =>
        match declarator.value? with
        | none => return []
        | some value =>
          if (owner.path, name) ∈ active then return []
          else follow ((owner.path, name) :: active) owner value
    else return []

/-- The literals of an expression: its own, or those of its members in order. -/
def literalsWith (follow : Follow) (active : List BindingKey) (file : SourceFile) (expression : Node) :
    Compile (List Node) := do
  match ← liftM (Shape.ofNode expression) with
  | .inlineObject literal => return [literal]
  | .composeCall members => return (← members.mapM (memberLiterals follow active file)).flatten
  | _ => return []

/-- The object literals that an expression reduces to, following bindings down to a depth. -/
def objectLiterals : Nat → Follow
  | 0 => fun _ _ _ => throw .unfinished
  | depth + 1 => literalsWith (objectLiterals depth)

/-- The object literals of the value that a name is given in a file. -/
def valueLiterals (file : SourceFile) (name : Text) (value : Node) : Compile (List Node) := do
  objectLiterals (nestingBound (← read) (← get) file) [(file.path, name)] file value

/-- Add what one declarator declares, given how the literals of a named value are found. A name declared before keeps its
place, and is kept if the new declarator builds no object. -/
def indexDeclarator (literalsOf : Text → Node → Compile (List Node)) (file : SourceFile) (index : DeclarationIndex)
    (named : Text × Declarator) : Compile DeclarationIndex := do
  let (name, declarator) := named
  match declarator.value? with
  | none => return index
  | some value =>
    let objects ← literalsOf name value
    if objects.isEmpty then return index
    else return index.insert name ⟨name, objects, file, declarator.statement⟩

/-- Every declaration of a file, given how the literals of a named value are found. -/
def buildIndexWith (literalsOf : Text → Node → Compile (List Node)) (file : SourceFile) : Compile DeclarationIndex := do
  (← liftM file.declarators).foldlM (indexDeclarator literalsOf file) .empty

/-- Every declaration of a file. -/
def buildIndex (file : SourceFile) : Compile DeclarationIndex := buildIndexWith (valueLiterals file) file

/-- The index of a file, from this pass if it has built it already. -/
def indexDeclarations (file : SourceFile) : Compile DeclarationIndex := do
  match (← get).indexes.get? file.path with
  | some index => return index
  | none =>
    let index ← buildIndex file
    modify fun c => { c with indexes := c.indexes.insert file.path index }
    report (.indexed index.size file.path)
    return index

end Compilation
end SchemaTypes
