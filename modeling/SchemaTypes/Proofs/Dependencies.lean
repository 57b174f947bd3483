import SchemaTypes.Proofs.FileSystem
import SchemaTypes.Proofs.StepLaw

/-!
The loaded paths of a pass are all that its course depends on. Two workspaces that lead every path to the same place can
differ in the bytes of files only. A pass that loads no file in which they differ takes the same course in both: it ends
in the same result or error, and in the same state.
-/

namespace SchemaTypes

/-- The second workspace has the same directory, the same roots, the same parser and a file system of the same layout as
the first. -/
structure Workspace.SameSetting (w w' : Workspace) : Prop where
  directory : w'.directory = w.directory
  roots : w'.roots = w.roots
  parser : w'.parser = w.parser
  layout : FileSystem.SameLayout w.files w'.files

namespace Workspace.SameSetting

variable {w w' : Workspace}

theorem location (same : SameSetting w w') : w'.location = w.location := by
  rw [Workspace.location, Workspace.location, same.directory]

theorem absolute (same : SameSetting w w') (texts : List Text) : w'.absolute texts = w.absolute texts := by
  rw [Workspace.absolute, Workspace.absolute, same.directory]

theorem exists? (same : SameSetting w w') (path : Path) : w'.exists? path = w.exists? path := by
  rw [Workspace.exists?, Workspace.exists?, same.location, same.layout.exists?]

/-- Resolving asks only whether a path is there, so it cannot tell the workspaces apart. -/
theorem resolve (same : SameSetting w w') (reference : Text) (base : Option Path) :
    w'.resolve reference base = w.resolve reference base := by
  unfold Workspace.resolve
  simp only [same.absolute, same.roots, same.exists?, same.directory]

theorem probe? (same : SameSetting w w') (reference : Text) : w'.probe? reference = w.probe? reference := by
  unfold Workspace.probe?
  simp only [same.absolute, same.roots]

theorem parse (same : SameSetting w w') (path : Path) (bytes : ByteArray) : w'.parse path bytes = w.parse path bytes := by
  rw [Workspace.parse, Workspace.parse, same.parser]

theorem read_error (same : SameSetting w w') {path : Path} {e : Error} (failed : w.read path = .error e) :
    w'.read path = .error e := by
  rw [Workspace.read, same.location]
  exact same.layout.read_error failed

end Workspace.SameSetting

namespace Compilation

variable {α β : Type}

/-- A step with good results that only appends to the loaded paths, and that runs alike in two workspaces that agree on
the bytes of the paths it has loaded at its end. -/
def Determined (w w' : Workspace) (step : Compile α) (good : α → Prop) : Prop :=
  ∀ c, (∀ a, (run step w c).1 = .ok a → good a) ∧ c.loadedPaths <+: (run step w c).2.loadedPaths ∧
    ((∀ path ∈ (run step w c).2.loadedPaths, w'.read path = w.read path) → run step w' c = run step w c)

namespace Determined

variable {w w' : Workspace}

theorem bind {step : Compile α} {next : α → Compile β} {good : α → Prop} {final : β → Prop}
    (first : Determined w w' step good) (rest : ∀ a, good a → Determined w w' (next a) final) :
    Determined w w' (step >>= next) final := by
  intro c
  obtain ⟨holds, grown, alike⟩ := first c
  cases result : (run step w c).1 with
  | error e =>
    rw [run_bind_error next result]
    refine ⟨by simp, grown, fun agree => ?_⟩
    have runs := alike agree
    rw [← runs] at result ⊢
    exact run_bind_error next result
  | ok a =>
    obtain ⟨holdsNext, grownNext, alikeNext⟩ := rest a (holds a result) (run step w c).2
    rw [run_bind_ok next result]
    refine ⟨holdsNext, grown.trans grownNext, fun agree => ?_⟩
    -- the paths loaded by the first step are among those loaded at the end
    have runs := alike fun path member => agree path (grownNext.subset member)
    rw [run_bind_ok next (runs ▸ result), runs]
    exact alikeNext agree

theorem load (same : w.SameSetting w') (path : Path) : Determined w w' (load path) fun _ => True := by
  intro c
  refine ⟨fun _ _ => trivial, ?_⟩
  rw [run_load, run_load]
  cases cached : c.files.get? path with
  | some file => exact ⟨List.prefix_rfl, fun _ => rfl⟩
  | none =>
    cases success : w.read path with
    | error e =>
      rw [same.read_error success]
      exact ⟨List.prefix_rfl, fun _ => rfl⟩
    | ok bytes =>
      have appended : (c.reading path (w.parse path bytes)).loadedPaths = c.loadedPaths ++ [path] :=
        OrderedMap.keys_insert_of_get?_eq_none _ cached
      simp only [appended]
      refine ⟨List.prefix_append _ _, fun agree => ?_⟩
      have here := agree path (List.mem_append_right _ List.mem_cons_self)
      rw [here, success]
      simp only [same.parse]

theorem loadReference (same : w.SameSetting w') (reference : Text) (base : Option Path) :
    Determined w w' (loadReference reference base) fun _ => True := by
  intro c
  have probed : c.probing w' reference = c.probing w reference := by
    rw [probing, probing, same.probe?]
  have unloaded : (c.probing w reference).loadedPaths = c.loadedPaths := by
    unfold probing
    split <;> rfl
  refine ⟨fun _ _ => trivial, ?_⟩
  rw [run_loadReference, run_loadReference, same.resolve, probed]
  cases w.resolve reference base with
  | error e => exact ⟨unloaded ▸ List.prefix_rfl, fun _ => rfl⟩
  | ok path =>
    obtain ⟨-, grown, alike⟩ := load same path (c.probing w reference)
    exact ⟨unloaded ▸ grown, alike⟩

theorem settle {step : Compile α} {search : Nat → Compile α} {good : α → Prop}
    (each : ∀ bound, Determined w w' (search bound) good)
    (settles : ∀ w c, ∃ enough, ∀ bound, enough ≤ bound → run step w c = run (search bound) w c) :
    Determined w w' step good := by
  intro c
  obtain ⟨enough, settled⟩ := settles w c
  obtain ⟨enough', settled'⟩ := settles w' c
  -- the two runs may take different bounds, and one above both serves both
  rw [settled _ (Nat.le_max_left enough enough'), settled' _ (Nat.le_max_right enough enough')]
  exact each _ c

theorem remember {file : SourceFile} {good : DeclarationIndex → Prop} (always : ∀ index, good index)
    (built : Determined w w' (buildIndex file) good) : Determined w w' (indexDeclarations file) good := by
  intro c
  refine ⟨fun index _ => always index, ?_⟩
  rw [run_indexDeclarations, run_indexDeclarations]
  cases c.indexes.get? file.path with
  | some index => exact ⟨List.prefix_rfl, fun _ => rfl⟩
  | none =>
    obtain ⟨-, grown, alike⟩ := built c
    cases outcome : run (buildIndex file) w c with
    | mk result after =>
      rw [outcome] at grown alike
      cases result with
      | error e =>
        refine ⟨grown, fun agree => ?_⟩
        rw [alike agree]
      | ok index =>
        refine ⟨grown, fun agree => ?_⟩
        rw [alike agree]

end Determined

theorem determined_law {w w' : Workspace} (same : w.SameSetting w') :
    StepLaw (fun _ => True) (Determined w w') where
  lift := fun {_} _ {_} holds _ => ⟨holds, List.prefix_rfl, fun _ => rfl⟩
  bind := Determined.bind
  report := fun _ _ => ⟨fun _ _ => trivial, List.prefix_rfl, fun _ => rfl⟩
  loadReference := Determined.loadReference same
  settle := Determined.settle
  remember := fun _ built => built.remember fun _ _ _ _ => trivial

/-- The loaded paths are a complete set of dependencies. If a second workspace of the same setting has the same bytes at
every path that a generation loads, the generation there ends in the same output or error and loads the same paths in the
same order. -/
theorem generate_determined_by_loadedPaths (w w' : Workspace) (reference : Text) (request : Request)
    (same : w.SameSetting w')
    (agree : ∀ path ∈ (run (generate reference request) w {}).2.loadedPaths, w'.read path = w.read path) :
    (run (generate reference request) w' {}).1 = (run (generate reference request) w {}).1 ∧
      (run (generate reference request) w' {}).2.loadedPaths = (run (generate reference request) w {}).2.loadedPaths := by
  obtain ⟨-, -, alike⟩ := (determined_law same).generate reference request {}
  have runs := alike agree
  constructor
  · rw [runs]
  · rw [runs]

/-- An entry file whose declaration is composed in another file, and a file beside them that neither refers to. -/
def composedBeside (beside : Text) : Workspace :=
  .ofSources [("a.ts", "import \x7b B \x7d from './b'\nconst A = compose(B)"),
    ("b.ts", "const B = Type.Object(\x7b x: Type.String() \x7d)"), ("c.ts", beside)]

set_option maxRecDepth 100000 in
theorem loadedPaths_composedBeside :
    (run (generate "a.ts" (.ofList [("A", "T")])) (composedBeside "1") {}).2.loadedPaths =
      [.ofText "/w/a.ts", .ofText "/w/b.ts"] := by decide +kernel

set_option maxRecDepth 100000 in
theorem generate_determined_composedBeside :
    (composedBeside "1").read (.ofText "/w/c.ts") ≠ (composedBeside "2").read (.ofText "/w/c.ts") ∧
    (run (generate "a.ts" (.ofList [("A", "T")])) (composedBeside "2") {}).1 =
      (run (generate "a.ts" (.ofList [("A", "T")])) (composedBeside "1") {}).1 ∧
    (run (generate "a.ts" (.ofList [("A", "T")])) (composedBeside "2") {}).2.loadedPaths =
      (run (generate "a.ts" (.ofList [("A", "T")])) (composedBeside "1") {}).2.loadedPaths := by
  refine ⟨?_, generate_determined_by_loadedPaths _ _ _ _ ⟨rfl, rfl, rfl, .of_entries (by decide +kernel)⟩ ?_⟩
  · intro equal
    have differ : ((composedBeside "1").read (.ofText "/w/c.ts")).toOption.map ByteArray.toList ≠
      ((composedBeside "2").read (.ofText "/w/c.ts")).toOption.map ByteArray.toList := by decide +kernel
    exact differ (by rw [equal])
  · intro path member
    rw [loadedPaths_composedBeside, List.mem_cons, List.mem_singleton] at member
    rcases member with rfl | rfl
    · rfl
    · rfl

end Compilation
end SchemaTypes
