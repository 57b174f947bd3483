import SchemaTypes.Declaration
import SchemaTypes.Workspace

/-!
One compilation pass. Each file is read and parsed at most once, and each index is built at most once; both stay as they
are for the rest of the pass, also when a later step fails.
-/

namespace SchemaTypes

/-- What a pass reports while it runs. -/
inductive CompilationEvent where
  | parsed (path : Path)
  | indexed (declarations : Nat) (path : Path)
  | rendering (schema type : Text) (path : Path) (objects : Nat)

/-- The state of a pass. -/
structure Compilation where
  files : OrderedMap Path SourceFile := .empty
  indexes : OrderedMap Path DeclarationIndex := .empty
  /-- The reports so far, in order. -/
  events : List CompilationEvent := []
  /-- The paths whose presence or content was asked for, latest first. -/
  consulted : List Path := []

/-- A step of a pass. The state is kept when the step fails. -/
abbrev Compile := ReaderT Workspace (ExceptT Error (StateM Compilation))

namespace Compilation

def loadedPaths (c : Compilation) : List Path := c.files.keys

/-- Run a step in a workspace. -/
def run {α : Type} (step : Compile α) (w : Workspace) (c : Compilation) : Except Error α × Compilation :=
  ExceptT.run (ReaderT.run step w) c

def report (event : CompilationEvent) : Compile Unit := modify fun c => { c with events := c.events ++ [event] }

def consult (path : Path) : Compile Unit := modify fun c => { c with consulted := path :: c.consulted }

/-- The file at a path, from this pass if it has read it already. -/
def load (path : Path) : Compile SourceFile := do
  match (← get).files.get? path with
  | some file => return file
  | none =>
    consult path
    let w ← read
    let bytes ← w.read path
    let file := w.parse path bytes
    modify fun c => { c with files := c.files.insert path file }
    report (.parsed path)
    return file

/-- The file that a module reference stands for. -/
def loadReference (reference : Text) (base : Option Path) : Compile SourceFile := do
  let w ← read
  if let some probe := w.probe? reference then consult probe
  load (← liftM (w.resolve reference base))

/-- The file that a name is imported from, if it is imported in braces. -/
def loadImport (file : SourceFile) (name : Text) : Compile (Option SourceFile) := do
  match (← liftM file.namedImports).get? name with
  | none => return none
  | some reference => some <$> loadReference reference (some file.directory)

end Compilation
end SchemaTypes
