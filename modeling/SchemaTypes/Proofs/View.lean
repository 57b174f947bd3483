import Mathlib.Logic.Relation
import SchemaTypes.Proofs.Faults
import SchemaTypes.Proofs.OrderedMap
import SchemaTypes.Proofs.Outcomes
import SchemaTypes.Proofs.Running

/-!
What a pass sees of the files. A path that was read shows the file as it was read, and any other path shows what is on
disk. Loading only moves a path from the second kind to the first, so no step changes the view, however it ends.
`Ensures` says so together with the outcome of a step: a result of a certain kind, or an error that the workspace causes.
-/

namespace SchemaTypes.Compilation

variable {α β : Type}

/-- What loading a path gives, in the state that a pass has reached. -/
def view (w : Workspace) (c : Compilation) (path : Path) : Except Error SourceFile :=
  match c.files.get? path with
  | some file => .ok file
  | none => (w.read path).map (w.parse path)

theorem view_congr {w : Workspace} {c c' : Compilation} (same : c'.files = c.files) : view w c' = view w c := by
  funext path
  rw [view, view, same]

@[simp] theorem view_probing (w : Workspace) (c : Compilation) (reference : Text) :
    view w (c.probing w reference) = view w c := by
  unfold probing
  split <;> rfl

theorem view_reading {w : Workspace} {c : Compilation} {path : Path} {bytes : ByteArray}
    (absent : c.files.get? path = none) (success : w.read path = .ok bytes) :
    view w (c.reading path (w.parse path bytes)) = view w c := by
  funext queried
  by_cases same : path = queried
  · subst same
    simp [view, reading, absent, success, Except.map]
  · simp [view, reading, OrderedMap.get?_insert_of_ne _ _ same]

theorem load_result (w : Workspace) (c : Compilation) (path : Path) :
    (run (load path) w c).1 = view w c path ∧ view w (run (load path) w c).2 = view w c := by
  rw [run_load]
  cases cached : c.files.get? path with
  | some file => exact ⟨by simp [view, cached], rfl⟩
  | none =>
    cases success : w.read path with
    | ok bytes => exact ⟨by simp [view, cached, success, Except.map], view_reading cached success⟩
    | error e => exact ⟨by simp [view, cached, success, Except.map], rfl⟩

/-- The file that a name is imported from, as a view shows it. -/
def importedFile (w : Workspace) (shown : Path → Except Error SourceFile) (file : SourceFile) (name : Text) :
    Except Error (Option SourceFile) := do
  match (← file.namedImports).get? name with
  | none => return none
  | some reference => return some (← shown (← w.resolve reference (some file.directory)))

/-- One file imports some name from another. -/
def Imports (w : Workspace) (shown : Path → Except Error SourceFile) (file next : SourceFile) : Prop :=
  ∃ name, importedFile w shown file name = .ok (some next)

/-- A file is reached from another along imports. -/
abbrev Reaches (w : Workspace) (shown : Path → Except Error SourceFile) : SourceFile → SourceFile → Prop :=
  Relation.ReflTransGen (Imports w shown)

/-- An imported file stands at a path that a reference resolves to. -/
theorem Imports.resolved {w : Workspace} {shown : Path → Except Error SourceFile} {file next : SourceFile}
    (imported : Imports w shown file next) :
    ∃ reference path, w.resolve reference (some file.directory) = .ok path ∧ shown path = .ok next := by
  obtain ⟨name, found⟩ := imported
  obtain ⟨table, -, found⟩ := bind_eq_ok_iff.mp found
  split at found
  · cases found
  next reference _ =>
    obtain ⟨path, resolved, found⟩ := bind_eq_ok_iff.mp found
    obtain ⟨actual, seen, found⟩ := bind_eq_ok_iff.mp found
    cases found
    exact ⟨reference, path, resolved, seen⟩

/-- Under a view that it keeps, a step gives a result with a property or raises what the workspace causes. In particular
it does not give up a search. -/
def Ensures (w : Workspace) (shown : Path → Except Error SourceFile) (step : Compile α) (good : α → Prop) : Prop :=
  ∀ c, view w c = shown → view w (run step w c).2 = shown ∧
    ((∃ a, (run step w c).1 = .ok a ∧ good a) ∨ ∃ e, (run step w c).1 = .error e ∧ w.Raises e)

namespace Ensures

variable {w : Workspace} {shown : Path → Except Error SourceFile}

theorem pure {a : α} {good : α → Prop} (holds : good a) : Ensures w shown (Pure.pure a) good :=
  fun _ same => ⟨same, .inl ⟨a, rfl, holds⟩⟩

theorem lift {x : Except Error α} {good : α → Prop} (holds : ∀ a, x = .ok a → good a) (faults : DecodesOnly x) :
    Ensures w shown (liftM x) good := by
  intro c same
  refine ⟨same, ?_⟩
  cases x with
  | ok a => exact .inl ⟨a, rfl, holds a rfl⟩
  | error e => exact .inr ⟨e, rfl, .decoding (faults e rfl)⟩

theorem bind {step : Compile α} {next : α → Compile β} {good : α → Prop} {final : β → Prop}
    (first : Ensures w shown step good) (rest : ∀ a, good a → Ensures w shown (next a) final) :
    Ensures w shown (step >>= next) final := by
  intro c same
  obtain ⟨kept, ⟨a, result, holds⟩ | ⟨e, result, raised⟩⟩ := first c same
  · rw [run_bind_ok next result]
    exact rest a holds _ kept
  · rw [run_bind_error next result]
    exact ⟨kept, .inr ⟨e, rfl, raised⟩⟩

theorem weaken {step : Compile α} {good better : α → Prop} (ensured : Ensures w shown step better)
    (weaker : ∀ a, better a → good a) : Ensures w shown step good := by
  intro c same
  obtain ⟨kept, ⟨a, result, holds⟩ | raised⟩ := ensured c same
  · exact ⟨kept, .inl ⟨a, result, weaker a holds⟩⟩
  · exact ⟨kept, .inr raised⟩

theorem mapM {f : α → Compile β} {l : List α} (each : ∀ a ∈ l, Ensures w shown (f a) fun _ => True) :
    Ensures w shown (l.mapM f) fun _ => True := by
  induction l with
  | nil => exact pure trivial
  | cons a l ih =>
    rw [List.mapM_cons]
    refine bind (each a List.mem_cons_self) fun b _ => ?_
    exact bind (ih fun a' member => each a' (List.mem_cons_of_mem a member)) fun _ _ => pure trivial

theorem foldlM {f : β → α → Compile β} {l : List α} (each : ∀ b, ∀ a ∈ l, Ensures w shown (f b a) fun _ => True)
    (b : β) : Ensures w shown (l.foldlM f b) fun _ => True := by
  induction l generalizing b with
  | nil => exact pure trivial
  | cons a l ih =>
    rw [List.foldlM_cons]
    refine bind (each b a List.mem_cons_self) fun b' _ => ?_
    exact ih (fun b'' a' member => each b'' a' (List.mem_cons_of_mem a member)) b'

theorem load (path : Path) : Ensures w shown (load path) fun file => shown path = .ok file := by
  intro c same
  obtain ⟨result, kept⟩ := load_result w c path
  refine ⟨kept.trans same, ?_⟩
  rw [result, same]
  cases seen : shown path with
  | ok file => exact .inl ⟨file, rfl, rfl⟩
  | error e =>
    -- nothing that was read shows an error, so the error is one of reading the path now
    refine .inr ⟨e, rfl, ?_⟩
    rw [← same] at seen
    unfold view at seen
    split at seen
    · cases seen
    · cases failed : w.read path with
      | ok bytes => simp [failed, Except.map] at seen
      | error e' =>
        rw [failed] at seen
        cases seen
        exact .reading path failed

theorem loadReference (reference : Text) (base : Option Path) :
    Ensures w shown (loadReference reference base) fun file =>
      ∃ path, w.resolve reference base = .ok path ∧ shown path = .ok file := by
  intro c same
  rw [run_loadReference]
  have probed : view w (c.probing w reference) = shown := (view_probing w c reference).trans same
  cases resolved : w.resolve reference base with
  | error e => exact ⟨probed, .inr ⟨e, rfl, .resolving reference base resolved⟩⟩
  | ok path => exact (load path).weaken (fun file seen => ⟨path, rfl, seen⟩) _ probed

theorem loadImport (file : SourceFile) (name : Text) :
    Ensures w shown (loadImport file name) fun found => importedFile w shown file name = .ok found := by
  refine bind (lift (fun _ same => same) (.namedImports file)) fun table tabled => ?_
  split
  next absent => exact pure (by simp [importedFile, tabled, absent, Bind.bind, Except.bind, Pure.pure, Except.pure])
  next reference present =>
    refine bind (loadReference reference (some file.directory)) fun next => ?_
    rintro ⟨path, resolved, seen⟩
    exact pure (by simp [importedFile, tabled, present, resolved, seen, Bind.bind, Except.bind, Pure.pure, Except.pure])

end Ensures
end SchemaTypes.Compilation
