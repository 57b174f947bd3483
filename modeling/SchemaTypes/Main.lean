import SchemaTypes.CommandLine.Run

/-!
The program: it carries out the command on its command line in the working directory. Each step runs on a snapshot of
the files it asks for, and what it changes is written back afterwards.
-/

namespace SchemaTypes.Program

open CommandLine

/-- The text for the terminal; a surrogate is shown as the replacement character. -/
def toTerminal (t : Text) : String := String.ofList (t.map fun c => (CodePoint.toChar? c).getD (Char.ofNat 0xFFFD))

/-- Where the program runs. -/
structure Site where
  directory : Path
  rooted : directory.isAbsolute = true
  roots : SourceRoots

/-- The site that the process finds itself in. -/
def Site.current : IO Site := do
  let standard : SourceRoots := {}
  let primary := (← IO.getEnv "TYPEGEN_SOURCE_ROOT").map Text.ofString
  let fallback := (← IO.getEnv "TYPEGEN_FALLBACK_SOURCE_ROOT").map Text.ofString
  let directory := Path.ofText (← IO.currentDir).toString
  if rooted : directory.isAbsolute then
    return ⟨directory, rooted, ⟨primary.getD standard.primary, fallback.getD standard.fallback⟩⟩
  else throw (IO.userError "the working directory has no absolute path")

def Site.workspace (site : Site) (files : FileSystem) : Workspace :=
  { files, directory := site.directory, rooted := site.rooted, roots := site.roots }

/-- What is on disk at a path. -/
def entryOnDisk (path : Path) : IO (Option Entry) := do
  let place := (← IO.currentDir) / toTerminal path.toText
  if ← place.isDir then return some .directory
  else if ← place.pathExists then return some (.file (← IO.FS.readBinFile place))
  else return none

/-- Add a path to a snapshot, with everything on the way to it. -/
def Site.observe (site : Site) (files : FileSystem) (path : Path) : IO FileSystem := do
  let steps := (List.range (path.parts.length + 1)).map fun n => { path with parts := path.parts.take n }
  steps.foldlM (fun files step => do
    match ← entryOnDisk step with
    | some entry => return files.put ((site.workspace files).absolute [step.toText]).parts entry
    | none => return files) (files.put site.directory.parts .directory)

/-- Write back what differs from a snapshot. -/
def writeBack (before after : FileSystem) : IO Unit :=
  after.entries.entries.forM fun (location, entry) => do
    let name := toTerminal (Path.toText ⟨.slash, location⟩)
    match entry, before.lookup location with
    | .directory, none => IO.FS.createDirAll name
    | .file bytes, some (.file old) => if bytes != old then IO.FS.writeBinFile name bytes
    | .file bytes, _ => IO.FS.writeBinFile name bytes
    | .directory, some _ => return

def display (threshold : Log.Level) : Happening → IO Unit
  | .printed t => do
    IO.print (toTerminal t)
    (← IO.getStdout).flush
  | .logged record => do if record.isAt threshold then IO.eprintln (toTerminal record.toText)
  | .watching _ | .delivered _ _ => return

/-- Run a step on a snapshot in which some paths were looked at. It is tried on larger and larger snapshots, until it
asks for nothing else. -/
partial def performOn {α : Type} (site : Site) (threshold : Log.Level) (step : SessionM α) (files : FileSystem)
    (observed : List Path) : IO α := do
  let (result, session) := step.run { workspace := site.workspace files }
  let wanted := (Watch.distinct session.consulted).filter (· ∉ observed)
  if wanted.isEmpty then
    writeBack files session.workspace.files
    session.shown.forM (display threshold)
    return result
  else performOn site threshold step (← wanted.foldlM site.observe files) (wanted ++ observed)

/-- Run a step on a snapshot of its own. -/
def perform {α : Type} (site : Site) (threshold : Log.Level) (step : SessionM α) : IO α :=
  performOn site threshold step .empty []

/-- The files below some directories, with the times of their last changes. -/
def stamps (directories : List Path) : IO (List (String × Int × Nat)) := do
  let base ← IO.currentDir
  let found ← directories.mapM fun directory => do
    let place := base / toTerminal directory.toText
    if ← place.isDir then (← place.walkDir).toList.mapM fun file => do
      let modified := (← file.metadata).modified
      return (file.toString, modified.sec, modified.nsec.toNat)
    else return []
  return found.flatten

/-- The paths whose stamps are not the same in two observations. -/
def changedPaths (before after : List (String × Int × Nat)) : List Text :=
  let gone := before.filter (· ∉ after)
  let come := after.filter (· ∉ before)
  Watch.distinct ((gone ++ come).map fun (name, _) => Text.ofString name)

/-- Watch for ever, looking at the directories twice a second. -/
partial def watchForever (site : Site) (threshold : Log.Level) (job : Job) (loop : Watch.Loop)
    (seen : List (String × Int × Nat)) : IO Unit := do
  IO.sleep 500
  let now ← stamps loop.directories
  let changes := changedPaths seen now
  if changes.isEmpty then watchForever site threshold job loop now
  else
    let next ← perform site threshold (do (← loop.deliver job.emit changes).settle)
    watchForever site threshold job next (← stamps next.directories)

def conclude : Outcome → IO UInt32
  | .exited status => return status.toUInt32
  | .failed e => do
    IO.eprintln (toTerminal e.message)
    return 1
  | .misused e => do
    IO.eprintln (toTerminal ("Error: " ++ e.message))
    return 2

/-- Carry out a command until it ends; a watch does not end by itself. -/
def execute (site : Site) (command : Command) : IO UInt32 := do
  match command with
  | .generate options =>
    match ← perform site (threshold command) (generateOnce options) with
    | .inl outcome => conclude outcome
    | .inr plan =>
      let loop : Watch.Loop := { directories := Watch.directoriesOf plan.sources }
      perform site (threshold command) loop.begin
      watchForever site (threshold command) plan.job loop (← stamps loop.directories)
      return 0
  | .schemas entry => conclude (← perform site (threshold command) (runSchemas entry))

end SchemaTypes.Program

def main (arguments : List String) : IO UInt32 := do
  match SchemaTypes.CommandLine.Command.parse (arguments.map SchemaTypes.Text.ofString) with
  | .error e => SchemaTypes.Program.conclude (.misused e)
  | .ok command => SchemaTypes.Program.execute (← SchemaTypes.Program.Site.current) command
