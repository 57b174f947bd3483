import SchemaTypes.CommandLine.Similarity
import SchemaTypes.Text.Quoted

/-!
Ways to misuse the command line, and how each is worded.
-/

namespace SchemaTypes.CommandLine

inductive Parameter where
  | entry
  | schema
  deriving DecidableEq, Repr

inductive UsageError where
  | missingCommand
  | unknownCommand (name : Text) (known : List Text)
  | unknownOption (option : Text)
  | missingValue (option : Text)
  | unwantedValue (option : Text)
  | missingParameter (parameter : Parameter)
  | extraArguments (arguments : List Text)
  /-- A value of `--schema` that is no pair. -/
  | invalidPair (value : Text)
  deriving DecidableEq, Repr

def Parameter.name : Parameter → String
  | entry => "entry"
  | schema => "schema"

/-- A hint at the commands that a mistyped one may stand for. -/
def suggestion (name : Text) (known : List Text) : Text :=
  match Similarity.closest name known with
  | [] => []
  | close => " Did you mean " ++ Text.join ", " (close.map Text.quoted) ++ "?"

def UsageError.message : UsageError → Text
  | missingCommand => "Missing command."
  | unknownCommand name known => "No such command " ++ name.quoted ++ "." ++ suggestion name known
  | unknownOption option => "No such option: " ++ option
  | missingValue option => "Option " ++ option.quoted ++ " requires an argument."
  | unwantedValue option => "Option " ++ option.quoted ++ " does not take a value."
  | missingParameter parameter => "Missing parameter: " ++ Text.ofString parameter.name
  | extraArguments arguments => "Got unexpected extra argument(s) (" ++ Text.join " " arguments ++ ")"
  | invalidPair value => "Expected SchemaName=TypeName, got " ++ value.quoted

end SchemaTypes.CommandLine
