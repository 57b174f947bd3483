import SchemaTypes.Compilation.Generate
import SchemaTypes.Session

/-!
Generation jobs: one request against one entry file, printed or written to a file.
-/

namespace SchemaTypes

/-- What to generate, and the file it goes to, if any. -/
structure Job where
  entry : Text
  request : Request
  output : Option Path

/-- Whether an error is reported to the user, as opposed to ending the run. -/
def Error.isReported : Error → Bool
  | resolution _ | access _ _ => true
  | _ => false

namespace Job

open Session

/-- Generate in a pass of its own. The result is the list of files that were read. -/
def emit (job : Job) : SessionM (Except Error (List Path)) := do
  let (result, compilation) ← compile (Compilation.generate job.entry job.request)
  match result, job.output with
  | .error e, _ => return .error e
  | .ok types, none =>
    print types
    return .ok compilation.loadedPaths
  | .ok types, some output =>
    match ← writeFile output (types ++ "\n") with
    | .error e => return .error e
    | .ok () =>
      print ("Wrote " ++ Text.ofNat job.request.size ++ " type(s) to " ++ output.toText)
      return .ok compilation.loadedPaths

end Job

/-- Tell the user about an error. -/
def Session.reportError (e : Error) : SessionM Unit := Session.print ("Error: " ++ e.message)

end SchemaTypes
