import SchemaTypes.Compilation.Generate

/-!
How the steps of a pass run: sequencing, and the exact outcome of each step that looks at the state of the pass.
-/

namespace SchemaTypes.Compilation

variable {α β : Type}

@[simp] theorem run_pure (w : Workspace) (c : Compilation) (a : α) : run (pure a) w c = (.ok a, c) := rfl

@[simp] theorem run_throw (w : Workspace) (c : Compilation) (e : Error) :
    run (throw e : Compile α) w c = (.error e, c) := rfl

@[simp] theorem run_liftM (w : Workspace) (c : Compilation) (x : Except Error α) :
    run (liftM x) w c = (x, c) := rfl

@[simp] theorem run_consult (w : Workspace) (c : Compilation) (path : Path) :
    run (consult path) w c = (.ok (), { c with consulted := path :: c.consulted }) := rfl

@[simp] theorem run_read (w : Workspace) (c : Compilation) : run read w c = (.ok w, c) := rfl

@[simp] theorem run_get (w : Workspace) (c : Compilation) : run get w c = (.ok c, c) := rfl

/-- A step that fails keeps the state it has reached, and what follows it is not run. -/
theorem run_bind (w : Workspace) (c : Compilation) (step : Compile α) (next : α → Compile β) :
    run (step >>= next) w c =
      match run step w c with
      | (.ok a, after) => run (next a) w after
      | (.error e, after) => (.error e, after) := by
  cases outcome : run step w c with
  | mk result after =>
    cases result with
    | ok a =>
      simp only [run, ReaderT.run, ExceptT.run] at outcome ⊢
      simp only [bind, ReaderT.bind, ExceptT.bind, ExceptT.mk, ExceptT.bindCont, StateT.bind, outcome]
    | error e =>
      simp only [run, ReaderT.run, ExceptT.run] at outcome ⊢
      simp only [bind, ReaderT.bind, ExceptT.bind, ExceptT.mk, ExceptT.bindCont, StateT.bind, outcome]
      rfl

theorem run_bind_ok {w : Workspace} {c : Compilation} {step : Compile α} {a : α} (next : α → Compile β)
    (first : (run step w c).1 = .ok a) : run (step >>= next) w c = run (next a) w (run step w c).2 := by
  have outcome : run step w c = (.ok a, (run step w c).2) := Prod.ext first rfl
  rw [run_bind, outcome]

theorem run_bind_error {w : Workspace} {c : Compilation} {step : Compile α} {e : Error} (next : α → Compile β)
    (first : (run step w c).1 = .error e) : run (step >>= next) w c = (.error e, (run step w c).2) := by
  have outcome : run step w c = (.error e, (run step w c).2) := Prod.ext first rfl
  rw [run_bind, outcome]

theorem run_map (w : Workspace) (c : Compilation) (f : α → β) (step : Compile α) :
    run (f <$> step) w c = (f <$> (run step w c).1, (run step w c).2) := by
  rw [map_eq_pure_bind, run_bind]
  cases run step w c with
  | mk result after => cases result <;> rfl

/-- The state of a pass that has asked for a path. -/
def consulting (c : Compilation) (path : Path) : Compilation := { c with consulted := path :: c.consulted }

/-- The state of a pass that has asked what a reference stands for. Only an aliased one consults a path. -/
def probing (c : Compilation) (w : Workspace) (reference : Text) : Compilation :=
  match w.probe? reference with
  | some probe => c.consulting probe
  | none => c

/-- The state of a pass that has read a file. -/
def reading (c : Compilation) (path : Path) (file : SourceFile) : Compilation :=
  { c.consulting path with files := c.files.insert path file, events := c.events ++ [.parsed path] }

/-- The state of a pass that has built the index of a file. -/
def indexing (c : Compilation) (path : Path) (index : DeclarationIndex) : Compilation :=
  { c with indexes := c.indexes.insert path index, events := c.events ++ [.indexed index.size path] }

theorem run_load (w : Workspace) (c : Compilation) (path : Path) :
    run (load path) w c =
      match c.files.get? path with
      | some file => (.ok file, c)
      | none =>
        match w.read path with
        | .ok bytes => (.ok (w.parse path bytes), c.reading path (w.parse path bytes))
        | .error e => (.error e, c.consulting path) := by
  simp only [load, run_bind, run_get]
  cases c.files.get? path with
  | some file => rfl
  | none =>
    simp only [run_bind, run_consult, run_read, run_liftM]
    cases w.read path <;> rfl

/-- Which path a reference stands for is settled before the file is loaded. -/
theorem run_loadReference (w : Workspace) (c : Compilation) (reference : Text) (base : Option Path) :
    run (loadReference reference base) w c =
      match w.resolve reference base with
      | .ok path => run (load path) w (c.probing w reference)
      | .error e => (.error e, c.probing w reference) := by
  simp only [loadReference, run_bind, run_read, probing]
  cases w.probe? reference with
  | none =>
    simp only [run_bind, run_liftM]
    cases w.resolve reference base <;> rfl
  | some probe =>
    simp only [run_bind, run_consult, run_liftM]
    cases w.resolve reference base <;> rfl

theorem run_resolveBinding (w : Workspace) (c : Compilation) (file : SourceFile) (name : Text) :
    run (resolveBinding file name) w c = run (searchBinding name (chainBound w c) [] file) w c := by
  simp only [resolveBinding, run_bind, run_read, run_get]

theorem run_valueLiterals (w : Workspace) (c : Compilation) (file : SourceFile) (name : Text) (value : Syntax.Node) :
    run (valueLiterals file name value) w c =
      run (objectLiterals (nestingBound w c file) [(file.path, name)] file value) w c := by
  simp only [valueLiterals, run_bind, run_read, run_get]

theorem run_indexDeclarations (w : Workspace) (c : Compilation) (file : SourceFile) :
    run (indexDeclarations file) w c =
      match c.indexes.get? file.path with
      | some index => (.ok index, c)
      | none =>
        match run (buildIndex file) w c with
        | (.ok index, after) => (.ok index, after.indexing file.path index)
        | (.error e, after) => (.error e, after) := by
  simp only [indexDeclarations, run_bind, run_get]
  cases c.indexes.get? file.path with
  | some index => rfl
  | none =>
    simp only [run_bind]
    cases run (buildIndex file) w c with
    | mk result after => cases result <;> rfl

end SchemaTypes.Compilation
