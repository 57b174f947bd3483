import SchemaTypes.CommandLine.Usage

/-!
The syntax of command-line options: `--name value`, `--name=value`, `-n value`, `-nvalue`, clusters of one-letter flags,
and `--` before arguments that are no options.
-/

namespace SchemaTypes.CommandLine

/-- What an option means for settings of some type. -/
inductive OptionMeaning (α : Type) where
  | flag (setting : α)
  | valued (setting : Text → α)

/-- The options of a command, by their full spelling. -/
abbrev OptionTable (α : Type) := List (Text × OptionMeaning α)

/-- What one argument that starts with a dash says. -/
inductive OptionReading (α : Type) where
  | complete (settings : List α)
  /-- The value of the last option is the next argument. -/
  | awaiting (settings : List α) (option : Text) (setting : Text → α)

namespace OptionTable

variable {α : Type}

/-- An option is short if it is one letter after one dash. -/
def isShort (option : Text) : Bool := option.length = 2

/-- Read the letters of a cluster. A letter that takes a value takes the rest of the cluster, if there is one. -/
def readCluster (table : OptionTable α) : List α → Text → Except UsageError (OptionReading α)
  | settings, [] => .ok (.complete settings)
  | settings, letter :: rest =>
    let option : Text := [0x2D, letter]
    match table.lookup option with
    | none => .error (.unknownOption option)
    | some (.flag setting) => readCluster table (settings ++ [setting]) rest
    | some (.valued setting) =>
      if rest.isEmpty then .ok (.awaiting settings option setting)
      else .ok (.complete (settings ++ [setting rest]))

/-- The name before the first equals sign, and the value after it. -/
def splitValue : Text → Text × Option Text
  | [] => ([], none)
  | c :: rest =>
    if c = 0x3D then ([], some rest)
    else match splitValue rest with
      | (name, value) => (c :: name, value)

/-- Read an argument that starts with a dash. -/
def read (table : OptionTable α) (argument : Text) : Except UsageError (OptionReading α) :=
  let (name, value) := splitValue argument
  let long := if isShort name then none else table.lookup name
  match long, value with
  | some (.flag setting), none => .ok (.complete [setting])
  | some (.flag _), some _ => .error (.unwantedValue name)
  | some (.valued setting), some value => .ok (.complete [setting value])
  | some (.valued setting), none => .ok (.awaiting [] name setting)
  | none, _ =>
    if Text.startsWith "--" argument then .error (.unknownOption name) else readCluster table [] (argument.drop 1)

/-- A lone dash is an ordinary argument. -/
def isOption (argument : Text) : Bool := argument.head? = some 0x2D && 1 < argument.length

def isEndMark (argument : Text) : Bool := argument = ([0x2D, 0x2D] : Text)

/-- The settings and the other arguments of a command. -/
def parse (table : OptionTable α) : List Text → Except UsageError (List α × List Text)
  | [] => .ok ([], [])
  | argument :: rest =>
    if isEndMark argument then .ok ([], rest)
    else if isOption argument then do
      match ← table.read argument with
      | .complete settings =>
        let (more, others) ← parse table rest
        return (settings ++ more, others)
      | .awaiting settings option setting =>
        match rest with
        | [] => throw (.missingValue option)
        | value :: rest =>
          let (more, others) ← parse table rest
          return (settings ++ setting value :: more, others)
    else do
      let (settings, others) ← parse table rest
      return (settings, argument :: others)

end OptionTable
end SchemaTypes.CommandLine
