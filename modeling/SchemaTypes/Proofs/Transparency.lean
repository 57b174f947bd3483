import SchemaTypes.Proofs.StepLaw

/-!
Keeping files and indexes does not show in the results of a pass. In a workspace that stays as it is, a state that a
pass has reached holds only files that are on disk and indexes that building them anew gives. From every such state a
step has the outcome that it has at the start of a pass, whatever ran before it and however that ended.
-/

namespace SchemaTypes

/-- A file as a workspace has it: its bytes are those at its path, and the rest is read off them. -/
structure Workspace.Holds (w : Workspace) (file : SourceFile) : Prop where
  read : w.read file.path = .ok file.bytes
  parsed : w.parse file.path file.bytes = file

namespace Compilation

variable {α : Type}

/-- At the start of a pass, what a path shows is the file that the workspace has there. -/
theorem view_start_eq_ok {w : Workspace} {path : Path} {file : SourceFile} :
    view w {} path = .ok file ↔ w.Holds file ∧ file.path = path := by
  have onDisk : view w {} path = (w.read path).map (w.parse path) := rfl
  rw [onDisk]
  constructor
  · intro seen
    cases success : w.read path with
    | error e => simp [success, Except.map] at seen
    | ok bytes =>
      rw [success, Except.map, Except.ok.injEq] at seen
      have located : file.path = path := by rw [← seen, w.parse_path]
      have content : file.bytes = bytes := by rw [← seen, w.parse_bytes]
      refine ⟨⟨?_, ?_⟩, located⟩
      · rw [located, content, success]
      · rw [located, content, seen]
  · rintro ⟨held, rfl⟩
    rw [held.read, Except.map, held.parsed]

/-- A state that shows the files as they are on disk, with indexes that building them anew gives. -/
structure Sound (w : Workspace) (c : Compilation) : Prop where
  files : view w c = view w {}
  indexes : ∀ path index, c.indexes.get? path = some index →
    ∃ file, view w {} path = .ok file ∧ (run (buildIndex file) w {}).1 = .ok index

theorem Sound.start (w : Workspace) : Sound w {} where
  files := rfl
  indexes := by simp

theorem Sound.of_same_indexes {w : Workspace} {c c' : Compilation} (sound : Sound w c)
    (shown : view w c' = view w c) (same : c'.indexes = c.indexes) : Sound w c' :=
  ⟨shown.trans sound.files, fun path index found => sound.indexes path index (same ▸ found)⟩

/-- A step whose outcome does not depend on what a pass has done before, and whose results are good. -/
def Transparent (w : Workspace) (step : Compile α) (good : α → Prop) : Prop :=
  ∀ c, Sound w c → (run step w c).1 = (run step w {}).1 ∧ Sound w (run step w c).2 ∧
    ∀ a, (run step w c).1 = .ok a → good a

namespace Transparent

variable {β : Type} {w : Workspace}

theorem bind {step : Compile α} {next : α → Compile β} {good : α → Prop} {final : β → Prop}
    (first : Transparent w step good) (rest : ∀ a, good a → Transparent w (next a) final) :
    Transparent w (step >>= next) final := by
  intro c sound
  obtain ⟨same, kept, holds⟩ := first c sound
  obtain ⟨-, keptAtStart, -⟩ := first {} (Sound.start w)
  cases result : (run step w c).1 with
  | error e =>
    rw [run_bind_error next result, run_bind_error next (same ▸ result)]
    exact ⟨rfl, kept, by simp⟩
  | ok a =>
    rw [run_bind_ok next result, run_bind_ok next (same ▸ result)]
    -- what follows runs from two states, and from both it does what it does at the start
    obtain ⟨sameNext, keptNext, holdsNext⟩ := rest a (holds a result) _ kept
    obtain ⟨sameNextAtStart, -, -⟩ := rest a (holds a result) _ keptAtStart
    exact ⟨sameNext.trans sameNextAtStart.symm, keptNext, holdsNext⟩

theorem report (event : CompilationEvent) : Transparent w (report event) fun _ => True :=
  fun _ sound => ⟨rfl, sound.of_same_indexes (view_congr rfl) rfl, fun _ _ => trivial⟩

theorem indexes_load (c : Compilation) (path : Path) : (run (Compilation.load path) w c).2.indexes = c.indexes := by
  rw [run_load]
  cases c.files.get? path with
  | some file => rfl
  | none => cases w.read path <;> rfl

theorem load (path : Path) : Transparent w (load path) w.Holds := by
  intro c sound
  obtain ⟨result, kept⟩ := load_result w c path
  have fromDisk : (run (Compilation.load path) w c).1 = view w {} path := by rw [result, sound.files]
  refine ⟨fromDisk.trans (load_result w {} path).1.symm, sound.of_same_indexes kept (indexes_load c path), ?_⟩
  intro file success
  exact (view_start_eq_ok.mp (fromDisk ▸ success)).1

theorem indexes_probing (c : Compilation) (reference : Text) : (c.probing w reference).indexes = c.indexes := by
  unfold probing
  split <;> rfl

theorem loadReference (reference : Text) (base : Option Path) :
    Transparent w (loadReference reference base) w.Holds := by
  have probed : ∀ c, Sound w c → Sound w (c.probing w reference) := fun c sound =>
    sound.of_same_indexes (view_probing w c reference) (indexes_probing c reference)
  intro c sound
  rw [run_loadReference, run_loadReference]
  cases w.resolve reference base with
  | error e => exact ⟨rfl, probed c sound, by simp⟩
  | ok path =>
    obtain ⟨same, kept, holds⟩ := load path _ (probed c sound)
    obtain ⟨sameAtStart, -, -⟩ := load path _ (probed {} (Sound.start w))
    exact ⟨same.trans sameAtStart.symm, kept, holds⟩

theorem settle {step : Compile α} {search : Nat → Compile α} {good : α → Prop}
    (each : ∀ bound, Transparent w (search bound) good)
    (settles : ∀ w c, ∃ enough, ∀ bound, enough ≤ bound → run step w c = run (search bound) w c) :
    Transparent w step good := by
  intro c sound
  obtain ⟨enough, settled⟩ := settles w c
  obtain ⟨enoughAtStart, settledAtStart⟩ := settles w {}
  rw [settled _ (Nat.le_max_left enough enoughAtStart), settledAtStart _ (Nat.le_max_right enough enoughAtStart)]
  exact each _ c sound

/-- At the start of a pass an index is built. -/
theorem indexDeclarations_start (file : SourceFile) :
    (run (indexDeclarations file) w {}).1 = (run (buildIndex file) w {}).1 := by
  rw [run_indexDeclarations]
  have absent : (Compilation.indexes {}).get? file.path = none := rfl
  simp only [absent]
  cases run (buildIndex file) w {} with
  | mk result after => cases result <;> rfl

theorem remember {file : SourceFile} {good : DeclarationIndex → Prop} (held : w.Holds file)
    (built : Transparent w (buildIndex file) good) : Transparent w (indexDeclarations file) good := by
  have shown : view w {} file.path = .ok file := view_start_eq_ok.mpr ⟨held, rfl⟩
  intro c sound
  rw [indexDeclarations_start, run_indexDeclarations]
  cases cached : c.indexes.get? file.path with
  | some index =>
    obtain ⟨actual, seen, result⟩ := sound.indexes file.path index cached
    have same : actual = file := Except.ok.inj (seen.symm.trans shown)
    rw [same] at result
    refine ⟨result.symm, sound, fun a success => ?_⟩
    exact (built {} (Sound.start w)).2.2 a (result.trans success)
  | none =>
    obtain ⟨same, kept, holds⟩ := built c sound
    cases outcome : run (buildIndex file) w c with
    | mk result after =>
      rw [outcome] at same kept holds
      cases result with
      | error e => exact ⟨same, kept, holds⟩
      | ok index =>
        refine ⟨same, ⟨(view_congr rfl).trans kept.files, ?_⟩, holds⟩
        intro path stored found
        simp only [indexing, OrderedMap.get?_insert] at found
        split at found
        next located =>
          cases found
          exact ⟨file, located ▸ shown, same.symm⟩
        · exact kept.indexes path stored found

end Transparent

theorem transparent_law (w : Workspace) : StepLaw w.Holds (Transparent w) where
  lift := fun {_} _ {_} holds _ sound => ⟨rfl, sound, holds⟩
  bind := Transparent.bind
  report := Transparent.report
  loadReference := Transparent.loadReference
  settle := Transparent.settle
  remember := Transparent.remember

end Compilation

/-- A file of a workspace. -/
def Workspace.File (w : Workspace) : Type := { file : SourceFile // w.Holds file }

namespace Compilation

/-- What can be asked of one pass over and over. Files whose index or bindings are asked for are files of the
workspace. -/
inductive Operation (w : Workspace) where
  | load (path : Path)
  | loadReference (reference : Text) (base : Option Path)
  | loadImport (file : SourceFile) (name : Text)
  | resolveBinding (file : w.File) (name : Text)
  | indexDeclarations (file : w.File)
  | findModuleTable (file : SourceFile)
  | resolveDeclaration (file : w.File) (schema : Text)
  | renderDeclaration (declaration : Declaration) (type : Text) (aliases : AliasTable)
  | generate (reference : Text) (request : Request)

inductive Answer where
  | file (file : SourceFile)
  | importedFile (found : Option SourceFile)
  | binding (found : Option (SourceFile × Declarator))
  | index (index : DeclarationIndex)
  | moduleTable (found : Option ModuleTable)
  | declaration (declaration : Declaration)
  | block (lines : List Text)
  | output (text : Text)

/-- What holds of the files that an answer hands out. -/
def Answer.HandsOut (Held : SourceFile → Prop) : Answer → Prop
  | .file loaded => Held loaded
  | .importedFile found => ∀ loaded, found = some loaded → Held loaded
  | .binding found => ∀ owner declarator, found = some (owner, declarator) → Held owner
  | .index built => HoldsFiles Held built
  | .declaration declared => Held declared.file
  | .moduleTable _ | .block _ | .output _ => True

/-- Whether the files that an answer hands out are files of the workspace. -/
def Answer.Holds (w : Workspace) (answer : Answer) : Prop := answer.HandsOut w.Holds

def Operation.perform {w : Workspace} : Operation w → Compile Answer
  | .load path => return .file (← Compilation.load path)
  | .loadReference reference base => return .file (← Compilation.loadReference reference base)
  | .loadImport file name => return .importedFile (← Compilation.loadImport file name)
  | .resolveBinding file name => return .binding (← Compilation.resolveBinding file.val name)
  | .indexDeclarations file => return .index (← Compilation.indexDeclarations file.val)
  | .findModuleTable file => return .moduleTable (← liftM (ModuleTable.find file))
  | .resolveDeclaration file schema => return .declaration (← Compilation.resolveDeclaration file.val schema)
  | .renderDeclaration declaration type aliases => return .block (← liftM (declaration.blockLines type aliases))
  | .generate reference request => return .output (← Compilation.generate reference request)

/-- The outcomes of operations on one pass, one after the other. The state is handed on also from one that fails. -/
def performAll (w : Workspace) : List (Operation w) → Compilation → List (Except Error Answer)
  | [], _ => []
  | operation :: rest, c =>
    (run operation.perform w c).1 :: performAll w rest (run operation.perform w c).2

theorem Operation.transparent {w : Workspace} (operation : Operation w) :
    Transparent w operation.perform (Answer.Holds w) := by
  have law := transparent_law w
  cases operation with
  | load path => exact law.bind (Transparent.load path) fun _ held => law.pure held
  | loadReference reference base => exact law.bind (law.loadReference reference base) fun _ held => law.pure held
  | loadImport file name => exact law.bind (law.loadImport file name) fun _ held => law.pure held
  | resolveBinding file name => exact law.bind (law.resolveBinding file.property name) fun _ held => law.pure held
  | indexDeclarations file => exact law.bind (law.indexDeclarations file.property) fun _ held => law.pure held
  | findModuleTable file =>
    exact law.bind (law.lift (ModuleTable.find file) fun _ _ => trivial) fun _ _ => law.pure trivial
  | resolveDeclaration file schema =>
    exact law.bind (law.resolveDeclaration file.property schema) fun _ held => law.pure held
  | renderDeclaration declaration type aliases =>
    exact law.bind (law.lift (declaration.blockLines type aliases) fun _ _ => trivial) fun _ _ => law.pure trivial
  | generate reference request => exact law.bind (law.generate reference request) fun _ _ => law.pure trivial

theorem performAll_of_sound {w : Workspace} (operations : List (Operation w)) {c : Compilation} (sound : Sound w c) :
    performAll w operations c = operations.map fun operation => (run operation.perform w {}).1 := by
  induction operations generalizing c with
  | nil => rfl
  | cons operation rest ih =>
    obtain ⟨same, kept, -⟩ := operation.transparent c sound
    rw [performAll, List.map_cons, same, ih kept]

/-- On one shared pass every operation of a sequence ends, in a result or in an error, as it does alone on a new pass.
The files in its result are files of the workspace, so later operations may be asked of them. -/
theorem performAll_eq_alone (w : Workspace) (operations : List (Operation w)) :
    performAll w operations {} = operations.map (fun operation => (run operation.perform w {}).1) ∧
      ∀ answer, .ok answer ∈ performAll w operations {} → answer.Holds w := by
  have alone := performAll_of_sound operations (Sound.start w)
  refine ⟨alone, fun answer member => ?_⟩
  rw [alone, List.mem_map] at member
  obtain ⟨operation, -, result⟩ := member
  exact (operation.transparent {} (Sound.start w)).2.2 answer result

end Compilation
end SchemaTypes
