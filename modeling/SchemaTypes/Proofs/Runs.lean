import SchemaTypes.Proofs.Growth

/-!
Whole runs of a pass, in which operations and changes of the files on disk take turns. In a run that starts with nothing,
the files that operations are about come from the pass itself, and what is true of its state after any of them is put
together in one theorem. Where only the state is asked for, operations may be about files from anywhere.
-/

namespace SchemaTypes.Compilation

/-! ### Runs on files from anywhere -/

theorem Operation.obeys {Obeys : ∀ {α : Type}, Compile α → (α → Prop) → Prop} (law : StepLaw (fun _ => True) Obeys)
    (loads : ∀ path, Obeys (Compilation.load path) fun _ => True) {seen : Workspace} (operation : Operation seen) :
    Obeys operation.perform fun _ => True := by
  cases operation with
  | load path => exact law.bind (loads path) fun _ _ => law.pure trivial
  | loadReference reference base => exact law.bind (law.loadReference reference base) fun _ _ => law.pure trivial
  | loadImport file name => exact law.bind (law.loadImport file name) fun _ _ => law.pure trivial
  | resolveBinding file name => exact law.bind (law.resolveBinding trivial name) fun _ _ => law.pure trivial
  | indexDeclarations file => exact law.bind (law.indexDeclarations trivial) fun _ _ => law.pure trivial
  | findModuleTable file =>
    exact law.bind (law.lift (ModuleTable.find file) fun _ _ => trivial) fun _ _ => law.pure trivial
  | resolveDeclaration file schema => exact law.bind (law.resolveDeclaration trivial schema) fun _ _ => law.pure trivial
  | renderDeclaration declaration type aliases =>
    exact law.bind (law.lift (declaration.blockLines type aliases) fun _ _ => trivial) fun _ _ => law.pure trivial
  | generate reference request => exact law.bind (law.generate reference request) fun _ _ => law.pure trivial

/-- A pass, and the workspace as it is now. -/
structure Scene where
  workspace : Workspace
  pass : Compilation

/-- A run on a new pass. -/
def Scene.start (w : Workspace) : Scene := ⟨w, {}⟩

/-- One turn of a run: an operation is asked of the pass, or the files on disk change. The files that an operation is
about were seen in some workspace, which may be an earlier one. -/
inductive Turn where
  | ask {seen : Workspace} (operation : Operation seen)
  | change (files : FileSystem)

def Turn.play : Turn → Scene → Scene
  | ask operation, scene => { scene with pass := (run operation.perform scene.workspace scene.pass).2 }
  | change files, scene => { scene with workspace := { scene.workspace with files } }

/-- Where turns lead to, one after the other. -/
def Scene.after (scene : Scene) (turns : List Turn) : Scene := turns.foldl (fun scene turn => turn.play scene) scene

/-- What is true of a new pass and kept by every operation is true after any turns. -/
theorem Scene.holds_after {holds : Compilation → Prop} (w : Workspace) (turns : List Turn) (start : holds {})
    (keeps : ∀ {seen : Workspace} (operation : Operation seen) w c, holds c → holds (run operation.perform w c).2) :
    holds ((Scene.start w).after turns).pass := by
  have kept (scene : Scene) (now : holds scene.pass) : holds (scene.after turns).pass := by
    induction turns generalizing scene with
    | nil => exact now
    | cons turn rest ih =>
      apply ih
      cases turn with
      | ask operation => exact keeps operation scene.workspace scene.pass now
      | change files => exact now
  exact kept (Scene.start w) start

/-! ### Runs on the pass's own files -/

/-- What can be asked about a file of a pass. -/
inductive Question where
  | loadImport (name : Text)
  | resolveBinding (name : Text)
  | indexDeclarations
  | findModuleTable
  | resolveDeclaration (schema : Text)
  | renderDeclaration (schema type : Text) (aliases : AliasTable)

def Question.ask (file : SourceFile) : Question → Compile Answer
  | loadImport name => return .importedFile (← Compilation.loadImport file name)
  | resolveBinding name => return .binding (← Compilation.resolveBinding file name)
  | indexDeclarations => return .index (← Compilation.indexDeclarations file)
  | findModuleTable => return .moduleTable (← liftM (ModuleTable.find file))
  | resolveDeclaration schema => return .declaration (← Compilation.resolveDeclaration file schema)
  | renderDeclaration schema type aliases => do
    let declaration ← Compilation.resolveDeclaration file schema
    return .block (← liftM (declaration.blockLines type aliases))

/-- An operation of a run that starts with nothing. Such a run has its files from the pass alone, so what is asked about a
file is asked of the one that the pass has, or loads, at its path. A file from elsewhere can be asked about in a `Turn`; its
index is kept under its path, whether or not anything is loaded there. -/
inductive Call where
  | load (path : Path)
  | loadReference (reference : Text) (base : Option Path)
  | about (path : Path) (question : Question)
  | generate (reference : Text) (request : Request)

def Call.perform : Call → Compile Answer
  | load path => return .file (← Compilation.load path)
  | loadReference reference base => return .file (← Compilation.loadReference reference base)
  | about path question => do question.ask (← Compilation.load path)
  | generate reference request => return .output (← Compilation.generate reference request)

theorem Question.obeys {Obeys : ∀ {α : Type}, Compile α → (α → Prop) → Prop} (law : StepLaw (fun _ => True) Obeys)
    (file : SourceFile) (question : Question) : Obeys (question.ask file) fun _ => True := by
  cases question with
  | loadImport name => exact law.bind (law.loadImport file name) fun _ _ => law.pure trivial
  | resolveBinding name => exact law.bind (law.resolveBinding trivial name) fun _ _ => law.pure trivial
  | indexDeclarations => exact law.bind (law.indexDeclarations trivial) fun _ _ => law.pure trivial
  | findModuleTable =>
    exact law.bind (law.lift (ModuleTable.find file) fun _ _ => trivial) fun _ _ => law.pure trivial
  | resolveDeclaration schema => exact law.bind (law.resolveDeclaration trivial schema) fun _ _ => law.pure trivial
  | renderDeclaration schema type aliases =>
    refine law.bind (law.resolveDeclaration trivial schema) fun declaration _ => ?_
    exact law.bind (law.lift (declaration.blockLines type aliases) fun _ _ => trivial) fun _ _ => law.pure trivial

theorem Question.roots (file : SourceFile) (question : Question) :
    Roots (Owns · file) (question.ask file) fun answer c => answer.HandsOut c.Owns := by
  cases question with
  | loadImport name => exact (Roots.loadImport file name).bind fun _ => Roots.pure fun _ owned => owned
  | resolveBinding name => exact (Roots.resolveBinding file name).bind fun _ => Roots.pure fun _ owned => owned
  | indexDeclarations => exact (Roots.indexDeclarations file).bind fun _ => Roots.pure fun _ owned => owned.2
  | findModuleTable => exact (Roots.lift (ModuleTable.find file)).bind fun _ => Roots.pure fun _ _ => trivial
  | resolveDeclaration schema =>
    exact (Roots.resolveDeclaration file schema).bind fun _ => Roots.pure fun _ owned => owned
  | renderDeclaration schema type aliases =>
    refine (Roots.resolveDeclaration file schema).bind fun declaration => ?_
    exact (Roots.lift (declaration.blockLines type aliases)).bind fun _ => Roots.pure fun _ _ => trivial

namespace Call

theorem grows (call : Call) (w : Workspace) (c : Compilation) : Grows w c (run call.perform w c).2 := by
  have loads (path : Path) : Moves Grows (Compilation.load path) fun _ => True :=
    grows_allowed.load Grows.reading path
  have moves : Moves Grows call.perform fun _ => True := by
    cases call with
    | load path => exact growth_law.bind (loads path) fun _ _ => growth_law.pure trivial
    | loadReference reference base =>
      exact growth_law.bind (growth_law.loadReference reference base) fun _ _ => growth_law.pure trivial
    | about path question => exact growth_law.bind (loads path) fun file _ => question.obeys growth_law file
    | generate reference request =>
      exact growth_law.bind (growth_law.generate reference request) fun _ _ => growth_law.pure trivial
  exact (moves w c).1

theorem roots (call : Call) : Roots (fun _ => True) call.perform fun answer c => answer.HandsOut c.Owns := by
  cases call with
  | load path => exact (Roots.load path).bind fun _ => Roots.pure fun _ owned => owned
  | loadReference reference base =>
    exact (Roots.loadReference reference base).bind fun _ => Roots.pure fun _ owned => owned
  | about path question => exact (Roots.load path).bind fun file => question.roots file
  | generate reference request =>
    exact (Roots.generate reference request).bind fun _ => Roots.pure fun _ _ => trivial

end Call

/-- One act of a run: an operation of the pass, or a change of the files on disk. -/
inductive Act where
  | call (made : Call)
  | change (files : FileSystem)

def Act.play : Act → Scene → Scene
  | call made, scene => { scene with pass := (run made.perform scene.workspace scene.pass).2 }
  | change files, scene => { scene with workspace := { scene.workspace with files } }

theorem Act.continues (act : Act) (scene : Scene) : Continues scene.pass (act.play scene).pass := by
  cases act with
  | call made => exact (made.grows scene.workspace scene.pass).continues
  | change files => exact .refl scene.pass

namespace Scene

/-- Where acts lead to, one after the other. -/
def through (scene : Scene) (acts : List Act) : Scene := acts.foldl (fun scene act => act.play scene) scene

theorem through_append (scene : Scene) (before rest : List Act) :
    scene.through (before ++ rest) = (scene.through before).through rest := List.foldl_append

theorem continues (scene : Scene) (acts : List Act) : Continues scene.pass (scene.through acts).pass := by
  induction acts generalizing scene with
  | nil => exact .refl scene.pass
  | cons act rest ih => exact (act.continues scene).trans (ih (act.play scene))

theorem rooted {scene : Scene} (acts : List Act) (rooted : Rooted scene.pass) : Rooted (scene.through acts).pass := by
  induction acts generalizing scene with
  | nil => exact rooted
  | cons act rest ih =>
    apply ih
    cases act with
    | call made => exact (made.roots scene.workspace scene.pass rooted trivial).1
    | change files => exact rooted

/-- One of the acts is an operation that loads a path which was not loaded before, and the file is the one that the
workspace of that time has there. -/
def FirstLoads (w : Workspace) (acts : List Act) (path : Path) (file : SourceFile) : Prop :=
  ∃ before call rest, acts = before ++ .call call :: rest ∧
    path ∉ ((start w).through before).pass.loadedPaths ∧
    ((start w).through (before ++ [.call call])).pass.files.get? path = some file ∧
    file.path = path ∧ ((start w).through before).workspace.Holds file

theorem FirstLoads.append {w : Workspace} {acts : List Act} {path : Path} {file : SourceFile}
    (loads : FirstLoads w acts path file) (more : List Act) : FirstLoads w (acts ++ more) path file := by
  obtain ⟨before, call, rest, split, first⟩ := loads
  exact ⟨before, call, rest ++ more, by rw [split, List.append_assoc, List.cons_append], first⟩

/-- What a single operation loads is there when it starts. -/
theorem FirstLoads.holds {w : Workspace} {call : Call} {path : Path} {file : SourceFile}
    (loads : FirstLoads w [.call call] path file) : w.Holds file := by
  obtain ⟨before, other, rest, split, -, -, -, holds⟩ := loads
  cases before with
  | nil => exact holds
  | cons act more => simp at split

end Scene

end SchemaTypes.Compilation
