import SchemaTypes.Path.Basic
import SchemaTypes.Text.Quoted
import SchemaTypes.Text.Utf8

/-!
What can go wrong, by cause, and how each cause is worded.
-/

namespace SchemaTypes

/-- Why the file system refuses an operation on a path. -/
inductive AccessFault where
  | notFound
  | alreadyExists
  | notDirectory
  | isDirectory
  deriving DecidableEq, Repr

/-- Why a number in braces names no code point. -/
inductive EscapeFault where
  | aboveUnicode
  | aboveInt
  deriving DecidableEq, Repr

/-- Why a schema name leads to no declaration. -/
inductive ResolutionCause where
  | notFound
  | keyNotString
  | noModuleTable (key : Text)
  | keyNotInTable (key : Text)
  | notImported (target : Text)
  | notAnObject (target : Text)
  deriving DecidableEq, Repr

/-- A schema that cannot be resolved, with the file in which the search ended. -/
structure ResolutionFailure where
  schema : Text
  path : Path
  cause : ResolutionCause
  deriving DecidableEq, Repr

inductive Error where
  | resolution (failure : ResolutionFailure)
  | access (fault : AccessFault) (path : Path)
  /-- A path without a last component, which cannot be given a suffix. -/
  | emptyName (path : Path)
  | escape (fault : EscapeFault)
  | undecodable (fault : Utf8.Fault)
  | unencodable (run : Utf8.Unencodable)
  /-- A path with a code point zero, where its bytes would end for the operating system. -/
  | embeddedNull
  /-- A search that was given up at its bound. The bounds are such that none is. -/
  | unfinished
  deriving DecidableEq, Repr

def AccessFault.number : AccessFault → Nat
  | notFound => 2
  | alreadyExists => 17
  | notDirectory => 20
  | isDirectory => 21

def AccessFault.phrase : AccessFault → String
  | notFound => "No such file or directory"
  | alreadyExists => "File exists"
  | notDirectory => "Not a directory"
  | isDirectory => "Is a directory"

def Utf8.Reason.phrase : Utf8.Reason → String
  | badStart => "invalid start byte"
  | badContinuation => "invalid continuation byte"
  | truncated => "unexpected end of data"

def EscapeFault.message : EscapeFault → Text
  | aboveUnicode => "chr() arg not in range(0x110000)"
  | aboveInt => "code point does not fit an int"

def ResolutionFailure.message (failure : ResolutionFailure) : Text :=
  let schema := failure.schema
  let path := failure.path.toText
  match failure.cause with
  | .notFound => "Schema " ++ schema ++ " not found or not a Type.Object in " ++ path
  | .keyNotString => "Schema " ++ schema ++ " is a module.Import but key is not a string in " ++ path
  | .noModuleTable key =>
    "Could not find Type.Module definition to resolve " ++ key ++ " for schema " ++ schema ++ " in " ++ path
  | .keyNotInTable key =>
    "Could not resolve definition for " ++ key ++ " from Type.Module for schema " ++ schema ++ " in " ++ path
  | .notImported target => "Could not find import path for " ++ target ++ " (schema " ++ schema ++ ") in " ++ path
  | .notAnObject target =>
    "Definition " ++ target ++ " for schema " ++ schema ++ " in " ++ path ++ " is not a Type.Object"

def Utf8.Fault.message (fault : Utf8.Fault) : Text :=
  let place :=
    if fault.length = 1 then " byte 0x" ++ Text.hex 2 fault.byte.toNat ++ " in position " ++ Text.ofNat fault.position
    else " bytes in position " ++ Text.ofNat fault.position ++ "-" ++ Text.ofNat (fault.position + fault.length - 1)
  "'utf-8' codec can't decode" ++ place ++ ": " ++ Text.ofString fault.reason.phrase

def Utf8.Unencodable.message (run : Utf8.Unencodable) : Text :=
  let place :=
    if run.length = 1 then
      " character '\\u" ++ Text.hex 4 run.first.val ++ "' in position " ++ Text.ofNat run.position
    else " characters in position " ++ Text.ofNat run.position ++ "-" ++ Text.ofNat (run.position + run.length - 1)
  "'utf-8' codec can't encode" ++ place ++ ": surrogates not allowed"

def Error.message : Error → Text
  | resolution failure => failure.message
  | access fault path =>
    "[Errno " ++ Text.ofNat fault.number ++ "] " ++ Text.ofString fault.phrase ++ ": " ++ path.toText.quoted
  | emptyName path => "PosixPath(" ++ path.toText.quoted ++ ") has an empty name"
  | escape fault => fault.message
  | undecodable fault => fault.message
  | unencodable run => run.message
  | embeddedNull => "embedded null byte"
  | unfinished => "search given up at its bound"

end SchemaTypes
