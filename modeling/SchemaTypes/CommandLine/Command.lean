import SchemaTypes.CommandLine.Options
import SchemaTypes.Path.Basic

/-!
The commands and their parameters.
-/

namespace SchemaTypes.CommandLine

/-- What an option of the generating command sets. -/
inductive GenerateSetting where
  | schema (pair : Text)
  | output (path : Text)
  | watch (on : Bool)
  | verbose

def generateOptions : OptionTable GenerateSetting :=
  [("--schema", .valued .schema), ("-s", .valued .schema), ("--output", .valued .output), ("-o", .valued .output),
    ("--watch", .flag (.watch true)), ("--no-watch", .flag (.watch false)), ("--verbose", .flag .verbose),
    ("-v", .flag .verbose)]

structure GenerateOptions where
  entry : Text
  /-- The pairs as they were written, in order. -/
  schemas : List Text := []
  output : Option Path := none
  watch : Bool := false
  verbose : Bool := false

inductive Command where
  | generate (options : GenerateOptions)
  /-- List the declarations of a file. -/
  | schemas (entry : Text)

/-- Of a setting that is given twice, the last one counts; schemas are collected. -/
def GenerateOptions.set (options : GenerateOptions) : GenerateSetting → GenerateOptions
  | .schema pair => { options with schemas := options.schemas ++ [pair] }
  | .output path => { options with output := some (Path.ofText path) }
  | .watch on => { options with watch := on }
  | .verbose => { options with verbose := true }

namespace Command

/-- The entry and nothing else. -/
def singleEntry : List Text → Except UsageError Text
  | [] => .error (.missingParameter .entry)
  | [entry] => .ok entry
  | _ :: extra => .error (.extraArguments extra)

def parseGenerate (arguments : List Text) : Except UsageError Command := do
  let (settings, others) ← generateOptions.parse arguments
  let options := settings.foldl GenerateOptions.set { entry := others.headD [] }
  if others.isEmpty then throw (.missingParameter .entry)
  if options.schemas.isEmpty then throw (.missingParameter .schema)
  let entry ← singleEntry others
  return .generate { options with entry }

def parseSchemas (arguments : List Text) : Except UsageError Command := do
  let noOptions : OptionTable Unit := []
  let (_, others) ← noOptions.parse arguments
  return .schemas (← singleEntry others)

def names : List Text := ["generate", "schemas"]

/-- The command of a list of arguments. No option stands before the name of the command. -/
def parse : List Text → Except UsageError Command
  | [] => .error .missingCommand
  | name :: rest =>
    if OptionTable.isEndMark name then named rest
    else if OptionTable.isOption name then
      match OptionTable.read ([] : OptionTable Unit) name with
      | .error e => .error e
      | .ok _ => .error .missingCommand
    else named (name :: rest)
where
  named : List Text → Except UsageError Command
    | [] => .error .missingCommand
    | name :: rest =>
      if name = Text.ofString "generate" then parseGenerate rest
      else if name = Text.ofString "schemas" then parseSchemas rest
      else .error (.unknownCommand name names)

end Command
end SchemaTypes.CommandLine
