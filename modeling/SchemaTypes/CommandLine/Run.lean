import SchemaTypes.CommandLine.Command
import SchemaTypes.Request
import SchemaTypes.Watch.Loop

/-!
Carrying out commands.
-/

namespace SchemaTypes.CommandLine

open Session

/-- How a run ends. -/
inductive Outcome where
  | exited (status : Nat)
  /-- An error that is not reported to the user ends the run. -/
  | failed (error : Error)
  | misused (error : UsageError)

/-- What to do after a first generation in watch mode. -/
structure WatchPlan where
  job : Job
  sources : List Path

/-- Report an error, or end the run with it. -/
def giveUp (isReported : Error → Bool) (e : Error) : SessionM Outcome := do
  if isReported e then
    reportError e
    return .exited 1
  else return .failed e

/-- The generating command up to the point where watching would begin. -/
def generateOnce (options : GenerateOptions) : SessionM (Outcome ⊕ WatchPlan) := do
  if options.watch && options.output.isNone then
    print "--watch requires --output."
    return .inl (.exited 1)
  match Request.parse options.schemas with
  | .error value => return .inl (.misused (.invalidPair value))
  | .ok request =>
    let job : Job := ⟨options.entry, request, options.output⟩
    match ← job.emit with
    | .error e => return .inl (← giveUp Error.isReported e)
    | .ok loaded =>
      if options.watch then
        print "Watching for changes (Ctrl+C to stop)..."
        return .inr ⟨job, loaded⟩
      else return .inl (.exited 0)

/-- The generating command, with the rounds of changes that a watch would see. -/
def runGenerate (options : GenerateOptions) (rounds : List Watch.Round) (ending : Watch.Ending) : SessionM Outcome := do
  match ← generateOnce options with
  | .inl outcome => return outcome
  | .inr plan =>
    Watch.Loop.run plan.job plan.sources rounds ending
    if ending = .interrupted then print "Stopped."
    return .exited 0

/-- The line a declaration is documented at, counted from one. -/
def statementLine (d : Declaration) : Text :=
  match d.statement with
  | some statement => Text.ofNat (statement.node.startRow + 1)
  | none => "-"

def declarationTable (index : DeclarationIndex) : Console.Table where
  header := ["name", "objects", "statement_line"]
  rows := index.entries.map fun (name, d) => [name, Text.ofNat d.objects.length, statementLine d]

def moduleTableOf (table : ModuleTable) : Console.Table where
  header := ["key", "definition"]
  rows := table.entries.map fun (key, target) => [key, target]

def printTable (table : Console.Table) : SessionM Unit := happen (.printed (Text.join "\n" table.lines ++ "\n"))

/-- Only the file system's refusals are reported here. -/
def isAccess : Error → Bool
  | .access _ _ => true
  | _ => false

def runSchemas (entry : Text) : SessionM Outcome := do
  let (result, _) ← compile (do
    let file ← Compilation.loadReference entry none
    return (file, ← Compilation.indexDeclarations file))
  match result with
  | .error e => giveUp isAccess e
  | .ok (file, index) =>
    printTable (declarationTable index)
    print ("(" ++ Text.ofNat index.size ++ " declarations)")
    match ModuleTable.find file with
    | .error e => return .failed e
    | .ok none => return .exited 0
    | .ok (some table) =>
      if !table.isEmpty then
        printTable (moduleTableOf table)
        print ("(" ++ Text.ofNat table.size ++ " module entries)")
      return .exited 0

/-- The least level that is logged. -/
def threshold : Command → Log.Level
  | .generate options => if options.verbose then .debug else .warning
  | .schemas _ => .warning

/-- Carry out a command, with the rounds of changes that a watch would see. -/
def run (command : Command) (rounds : List Watch.Round) (ending : Watch.Ending) : SessionM Outcome :=
  match command with
  | .generate options => runGenerate options rounds ending
  | .schemas entry => runSchemas entry

end SchemaTypes.CommandLine
