import SchemaTypes.Console
import SchemaTypes.Log

/-!
A run of the program in a workspace: the files it changes, and what it shows while it runs.
-/

namespace SchemaTypes

/-- What a run shows, one after the other. -/
inductive Happening where
  /-- Text on the terminal, with its line end. -/
  | printed (text : Text)
  | logged (record : Log.Record)
  /-- A watch over directories begins. -/
  | watching (directories : List Path)
  /-- A batch of changes has been dealt with, after which the output file holds a text. -/
  | delivered (changes : List Text) (output : Option Text)

structure Session where
  workspace : Workspace
  /-- What was shown so far, in order. -/
  shown : List Happening := []
  /-- The paths whose presence or content was asked for, latest first. -/
  consulted : List Path := []

abbrev SessionM := StateM Session

namespace Session

def happen (h : Happening) : SessionM Unit := modify fun s => { s with shown := s.shown ++ [h] }

/-- Print a text on lines of its own. A terminal that fails, and with it an error after the output was written, is left
out. -/
def print (t : Text) : SessionM Unit := happen (.printed (Console.shown t))

def log (record : Log.Record) : SessionM Unit := happen (.logged record)

def consult (path : Path) : SessionM Unit := modify fun s => { s with consulted := path :: s.consulted }

def setFiles (files : FileSystem) : SessionM Unit :=
  modify fun s => { s with workspace := { s.workspace with files } }

/-- Run one compilation pass of its own and log its reports. -/
def compile {α : Type} (step : Compile α) : SessionM (Except Error α × Compilation) := do
  let (result, compilation) := Compilation.run step (← get).workspace {}
  modify fun s => { s with consulted := compilation.consulted ++ s.consulted }
  compilation.events.forM fun event => log (Log.ofEvent event)
  return (result, compilation)

/-- Carry out a change of the file system, keeping what was done before a fault. -/
def change (act : FileSystem → Location → FileSystem × Except Error Unit) : SessionM (Except Error Unit) := do
  let w := (← get).workspace
  let (files, result) := act w.files w.location
  setFiles files
  return result

/-- Write a text to a file, in a directory that is made if it is missing. -/
def writeFile (path : Path) (t : Text) : SessionM (Except Error Unit) := do
  consult path.parent
  consult path
  match ← change (fun files cwd => files.makeDirectory cwd path.parent) with
  | .error e => return .error e
  | .ok () => change fun files cwd => files.write cwd path t

/-- The text of a file, if there is one. -/
def readText (path : Path) : SessionM (Option Text) := do
  match (← get).workspace.read path with
  | .error _ => return none
  | .ok bytes => return (Utf8.decode bytes.toList).toOption

end Session

/-- Printed text and log records between two larger happenings. -/
structure Passage where
  printed : Text := []
  records : List Log.Record := []

/-- A happening that is neither printed nor logged, with what led up to it. -/
structure Milestone where
  before : Passage
  happening : Happening

/-- The milestones of a run, and what came after the last of them. -/
def Happening.milestones (shown : List Happening) : List Milestone × Passage :=
  shown.foldl (fun (done, passage) h =>
    match h with
    | .printed t => (done, { passage with printed := passage.printed ++ t })
    | .logged r => (done, { passage with records := passage.records ++ [r] })
    | _ => (done ++ [⟨passage, h⟩], {})) ([], {})

end SchemaTypes
