import SchemaTypes.Compilation.Basic

/-!
Log records: what is worth telling about a run, besides its output.
-/

namespace SchemaTypes.Log

inductive Level where
  | debug
  | info
  | warning
  | error
  deriving DecidableEq, Repr

/-- The parts of the program that keep a log. -/
inductive Source where
  | parsing
  | indexing
  | rendering
  | watcher
  | watchLoop
  deriving DecidableEq, Repr

structure Record where
  level : Level
  source : Source
  message : Text
  deriving DecidableEq, Repr

def Level.severity : Level → Nat
  | debug => 10
  | info => 20
  | warning => 30
  | error => 40

def Level.name : Level → String
  | debug => "DEBUG"
  | info => "INFO"
  | warning => "WARNING"
  | error => "ERROR"

def Source.name : Source → String
  | parsing => "typebox_typegen.core.source"
  | indexing => "typebox_typegen.core.declarations"
  | rendering => "typebox_typegen.core.emitter"
  | watcher => "typebox_typegen.watcher.watchfiles_adapter"
  | watchLoop => "typebox_typegen.cli.generate"

/-- Whether a record is at or above a level. -/
def Record.isAt (threshold : Level) (r : Record) : Bool := threshold.severity ≤ r.level.severity

/-- A record on one line: level, source and message between colons. -/
def Record.toText (r : Record) : Text :=
  Text.ofString r.level.name ++ ":" ++ Text.ofString r.source.name ++ ":" ++ r.message

/-- The record of a report of a compilation. -/
def ofEvent : CompilationEvent → Record
  | .parsed path => ⟨.debug, .parsing, "Parsed " ++ path.toText⟩
  | .indexed declarations path =>
    ⟨.debug, .indexing, "Indexed " ++ Text.ofNat declarations ++ " declaration(s) in " ++ path.toText⟩
  | .rendering schema type path objects =>
    ⟨.debug, .rendering, "Rendering " ++ schema ++ " as " ++ type ++ " from " ++ path.toText ++ " (" ++
      Text.ofNat objects ++ " object(s))"⟩

def watcherStarted (directories : List Path) : Record :=
  ⟨.info, .watcher, "Watcher started for " ++ Text.join ", " (directories.map Path.toText)⟩

def watcherStopped : Record := ⟨.info, .watcher, "Watcher stopped"⟩

def changesDetected (files : Nat) : Record :=
  ⟨.info, .watcher, "Detected changes in " ++ Text.ofNat files ++ " file(s)"⟩

def callbackFailed : Record := ⟨.error, .watcher, "Error in watcher callback"⟩

def watchingMore (directories : Nat) : Record :=
  ⟨.info, .watchLoop, "Watching " ++ Text.ofNat directories ++ " more director(ies)"⟩

end SchemaTypes.Log
