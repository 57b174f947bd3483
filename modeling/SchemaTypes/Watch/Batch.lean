import SchemaTypes.SourceFile

/-!
Batches of changed paths, and the directories to watch for them.
-/

namespace SchemaTypes.Watch

/-- The elements of a list without repetitions, in the order of their first occurrence. -/
def distinct {α : Type} [DecidableEq α] (xs : List α) : List α :=
  xs.foldl (fun seen x => if x ∈ seen then seen else seen ++ [x]) []

/-- The directories that hold some files. -/
def directoriesOf (sources : List Path) : List Path := distinct (sources.map Path.parent)

/-- The source files among changed paths. -/
def changedSources (changes : List Text) : List Path := distinct ((changes.map Path.ofText).filter Path.isSource)

end SchemaTypes.Watch
