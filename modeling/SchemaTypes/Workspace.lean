import SchemaTypes.FileSystem
import SchemaTypes.SourceFile

/-!
Where a compilation takes place, and how the references in its sources become paths.
-/

namespace SchemaTypes

/-- The directories that `@/` references are looked up in, the second one if the first has no such file. -/
structure SourceRoots where
  primary : Text := "src"
  fallback : Text := "packages/workspace-store/src"
  deriving DecidableEq, Repr

structure Workspace where
  files : FileSystem
  /-- The working directory. -/
  directory : Path
  rooted : directory.isAbsolute = true
  roots : SourceRoots
  /-- How sources are parsed. -/
  parser : Syntax.TreeParser := .standard

/-- A path that ends in a suffix: `.ts` is added where there is none. -/
def Path.ensureSuffix (p : Path) : Except Error Path :=
  if !p.suffix.isEmpty then .ok p
  else if p.name.isEmpty then .error (.emptyName p)
  else .ok (p.withName (p.name ++ ".ts"))

namespace Workspace

def location (w : Workspace) : Location := w.directory.parts

def read (w : Workspace) (path : Path) : Except Error ByteArray := w.files.read w.location path

def parse (w : Workspace) (path : Path) (bytes : ByteArray) : SourceFile := .parse w.parser path bytes

def exists? (w : Workspace) (path : Path) : Bool := w.files.exists? w.location path

/-- The normal form of path texts joined one after the other onto the working directory. -/
def absolute (w : Workspace) (texts : List Text) : Path :=
  Path.normalized (texts.foldl Path.joinText w.directory.toText)

/-- The kinds of module reference. -/
inductive Reference where
  /-- A path below one of the source roots. -/
  | aliased (rest : Text)
  /-- A path relative to the directory of the referring file. -/
  | relative (text : Text)
  /-- A path of its own. -/
  | plain (text : Text)

def Reference.of (text : Text) : Reference :=
  match Text.dropStart? "@/" text with
  | some rest => .aliased rest
  | none =>
    if Text.startsWith "./" text || Text.startsWith "../" text then .relative text else .plain text

/-- The paths a reference is looked up at. Only the first path of an aliased reference has to exist to be taken. -/
def resolve (w : Workspace) (text : Text) (base : Option Path) : Except Error Path :=
  match Reference.of text with
  | .aliased rest => do
    let primary ← (w.absolute [w.roots.primary, rest]).ensureSuffix
    if w.exists? primary then return primary
    else (w.absolute [w.roots.fallback, rest]).ensureSuffix
  | .relative text => (w.absolute [(base.getD w.directory).toText, text]).ensureSuffix
  | .plain text => (w.absolute [text]).ensureSuffix

/-- The path whose presence decides what an aliased reference means. -/
def probe? (w : Workspace) (text : Text) : Option Path :=
  match Reference.of text with
  | .aliased rest => (w.absolute [w.roots.primary, rest]).ensureSuffix.toOption
  | _ => none

end Workspace
end SchemaTypes
