import SchemaTypes.Job
import SchemaTypes.Watch.Batch

/-!
Watch mode: the output is generated again whenever a source changes. When that reads files from directories that are not
watched yet, the watch begins anew over more directories before anything else happens.
-/

namespace SchemaTypes.Watch

open Session

/-- The state of the loop between two batches. -/
structure Loop where
  directories : List Path
  /-- Directories to add before the next batch. -/
  pending : List Path := []

/-- A change of a file between two batches. -/
inductive Edit where
  | write (path : Path) (bytes : ByteArray)
  | delete (path : Path)

/-- Edits, and the batch of changed paths that is delivered after them. -/
structure Round where
  edits : List Edit
  changes : List Text

/-- How the stream of batches ends. -/
inductive Ending where
  | exhausted
  | interrupted
  deriving DecidableEq, Repr

/-- What is done on every change: a generation that tells which files it has read, or fails. -/
abbrev Generation := SessionM (Except Error (List Path))

/-- The directories that a generation shows to be missing from the watch. -/
def missingFrom (watched loaded : List Path) : List Path := (directoriesOf loaded).filter (· ∉ watched)

namespace Loop

/-- The loop after a generation that read some files, or after one that failed. -/
def after (loop : Loop) : Option (List Path) → Loop
  | some loaded => { loop with pending := loop.pending ++ missingFrom (loop.directories ++ loop.pending) loaded }
  | none => loop

/-- The loop with its pending directories under watch. -/
def grown (loop : Loop) : Loop := { directories := loop.directories ++ loop.pending }

/-- Begin a watch. -/
def begin (loop : Loop) : SessionM Unit := do
  log (Log.watcherStarted loop.directories)
  happen (.watching loop.directories)

/-- Begin anew if directories are to be added. -/
def settle (loop : Loop) : SessionM Loop := do
  if loop.pending.isEmpty then return loop
  log Log.watcherStopped
  log (Log.watchingMore loop.pending.length)
  loop.grown.begin
  return loop.grown

/-- Generate again. A reported error is shown and any other one logged; neither ends the loop. -/
def regenerate (generation : Generation) (loop : Loop) : SessionM Loop := do
  match ← generation with
  | .ok loaded => return loop.after (some loaded)
  | .error e =>
    if e.isReported then reportError e else log Log.callbackFailed
    return loop.after none

/-- Deal with a batch of changed paths. -/
def deliver (generation : Generation) (changes : List Text) (loop : Loop) : SessionM Loop := do
  let sources := changedSources changes
  if sources.isEmpty then return loop
  log (Log.changesDetected sources.length)
  regenerate generation loop

def applyEdit (edit : Edit) : SessionM Unit := do
  let w := (← get).workspace
  match edit with
  | .write path bytes => setFiles (w.files.put (w.absolute [path.toText]).parts (.file bytes))
  | .delete path => setFiles (w.files.erase (w.absolute [path.toText]).parts)

/-- The text of the output file, if there is one. -/
def readOutput : Option Path → SessionM (Option Text)
  | some path => readText path
  | none => pure none

/-- One round: edit, deliver, and begin anew if the batch has shown more directories. -/
def round (generation : Generation) (output : Option Path) (loop : Loop) (r : Round) : SessionM Loop := do
  r.edits.forM applyEdit
  let next ← loop.deliver generation r.changes
  happen (.delivered r.changes (← readOutput output))
  next.settle

/-- Watch over the directories of some files through rounds of changes, with a generation to repeat. -/
def watch (generation : Generation) (output : Option Path) (sources : List Path) (rounds : List Round)
    (ending : Ending) : SessionM Unit := do
  let first : Loop := { directories := directoriesOf sources }
  first.begin
  let _ ← rounds.foldlM (round generation output) first
  if ending = .exhausted then log Log.watcherStopped

/-- Watch over the directories of some files, and repeat a job. -/
def run (job : Job) (sources : List Path) (rounds : List Round) (ending : Ending) : SessionM Unit :=
  watch job.emit job.output sources rounds ending

end Loop
end SchemaTypes.Watch
