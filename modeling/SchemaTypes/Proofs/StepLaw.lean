import SchemaTypes.Proofs.Bounds

/-!
Laws of all steps of a pass. A property of steps that holds of the parts they are made of, and that sequencing keeps,
holds of every search, down to the literals that the index of a file is built from. If it also survives the keeping of an
index, it holds of every step up to a whole generation. Each step is taken apart here once, for every such property.
-/

namespace SchemaTypes.Compilation

open Syntax

variable {α β : Type}

/-- The declarations of an index stand in files that are held. -/
def HoldsFiles (Held : SourceFile → Prop) (index : DeclarationIndex) : Prop :=
  ∀ name declaration, index.get? name = some declaration → Held declaration.file

/-- A property of steps that every search of a pass has. `Obeys step good` is about a step whose results are `good`. What
holds of every loaded file is `Held`, and only of such files is anything but their own syntax asked. -/
structure SearchLaw (Held : SourceFile → Prop) (Obeys : ∀ {α : Type}, Compile α → (α → Prop) → Prop) : Prop where
  /-- What is read off values that are already there. -/
  lift : ∀ {α : Type} (x : Except Error α) {good : α → Prop}, (∀ a, x = .ok a → good a) → Obeys (liftM x) good
  bind : ∀ {α β : Type} {step : Compile α} {next : α → Compile β} {good : α → Prop} {final : β → Prop},
    Obeys step good → (∀ a, good a → Obeys (next a) final) → Obeys (step >>= next) final
  report : ∀ event, Obeys (report event) fun _ => True
  loadReference : ∀ reference base, Obeys (loadReference reference base) Held
  /-- A search that settles, whatever its bound is taken from. -/
  settle : ∀ {α : Type} {step : Compile α} {search : Nat → Compile α} {good : α → Prop},
    (∀ bound, Obeys (search bound) good) →
    (∀ w c, ∃ enough, ∀ bound, enough ≤ bound → run step w c = run (search bound) w c) → Obeys step good

/-- A property of steps that every step of a pass has, also those that keep an index. -/
structure StepLaw (Held : SourceFile → Prop) (Obeys : ∀ {α : Type}, Compile α → (α → Prop) → Prop) : Prop
    extends SearchLaw Held Obeys where
  /-- An index that is kept once it is built. -/
  remember : ∀ {file : SourceFile}, Held file → Obeys (buildIndex file) (HoldsFiles Held) →
    Obeys (indexDeclarations file) (HoldsFiles Held)

namespace SearchLaw

variable {Held : SourceFile → Prop} {Obeys : ∀ {α : Type}, Compile α → (α → Prop) → Prop}

theorem pure (law : SearchLaw Held Obeys) {a : α} {good : α → Prop} (holds : good a) : Obeys (Pure.pure a) good :=
  law.lift (.ok a) fun _ same => Except.ok.inj same ▸ holds

theorem raise (law : SearchLaw Held Obeys) (e : Error) {good : α → Prop} : Obeys (throw e) good := by
  apply law.lift (.error e)
  intro a impossible
  cases impossible

theorem mapM (law : SearchLaw Held Obeys) {f : α → Compile β} (each : ∀ a, Obeys (f a) fun _ => True) (l : List α) :
    Obeys (l.mapM f) fun _ => True := by
  induction l with
  | nil => exact law.pure trivial
  | cons a l ih =>
    rw [List.mapM_cons]
    exact law.bind (each a) fun b _ => law.bind ih fun bs _ => law.pure trivial

theorem foldlM (law : SearchLaw Held Obeys) {f : β → α → Compile β} {good : β → Prop}
    (each : ∀ b a, good b → Obeys (f b a) good) (l : List α) {b : β} (start : good b) : Obeys (l.foldlM f b) good := by
  induction l generalizing b with
  | nil => exact law.pure start
  | cons a l ih =>
    rw [List.foldlM_cons]
    exact law.bind (each b a start) fun b' kept => ih kept

theorem loadImport (law : SearchLaw Held Obeys) (file : SourceFile) (name : Text) :
    Obeys (loadImport file name) fun found => ∀ next, found = some next → Held next := by
  refine law.bind (law.lift file.namedImports fun _ _ => trivial) fun table _ => ?_
  cases table.get? name with
  | none => exact law.pure (by simp)
  | some reference =>
    refine law.bind (law.loadReference reference (some file.directory)) fun next held => ?_
    exact law.pure fun _ same => Option.some.inj same ▸ held

theorem searchBinding (law : SearchLaw Held Obeys) (name : Text) (bound : Nat) (seen : List Path) {file : SourceFile}
    (held : Held file) :
    Obeys (searchBinding name bound seen file) fun found => ∀ owner d, found = some (owner, d) → Held owner := by
  induction bound generalizing seen file with
  | zero => exact law.raise .unfinished
  | succ bound ih =>
    simp only [Compilation.searchBinding]
    split
    · exact law.pure (by simp)
    · refine law.bind (law.lift (file.binding? name) fun _ _ => trivial) fun found _ => ?_
      cases found with
      | some declarator =>
        refine law.pure fun owner d same => ?_
        cases same
        exact held
      | none =>
        refine law.bind (law.loadImport file name) fun imported heldNext => ?_
        cases imported with
        | none => exact law.pure (by simp)
        | some next => exact ih _ (heldNext next rfl)

theorem resolveBinding (law : SearchLaw Held Obeys) {file : SourceFile} (held : Held file) (name : Text) :
    Obeys (resolveBinding file name) fun found => ∀ owner d, found = some (owner, d) → Held owner :=
  law.settle (fun bound => law.searchBinding name bound [] held) fun w c =>
    ⟨chainBound w c, fun _ enough => resolveBinding_settles w c file name enough⟩

theorem memberLiterals (law : SearchLaw Held Obeys) {follow : Follow}
    (each : ∀ active file value, Held file → Obeys (follow active file value) fun _ => True)
    (active : List BindingKey) {file : SourceFile} (held : Held file) (member : Node) :
    Obeys (memberLiterals follow active file member) fun _ => True := by
  unfold Compilation.memberLiterals
  refine law.bind (law.lift (Shape.ofNode member) fun _ _ => trivial) fun shape _ => ?_
  split
  · exact law.pure trivial
  · split
    · refine law.bind (law.lift member.text fun _ _ => trivial) fun name _ => ?_
      refine law.bind (law.resolveBinding held name) fun found heldOwner => ?_
      split
      · exact law.pure trivial
      next owner declarator =>
        split
        · exact law.pure trivial
        · split
          · exact law.pure trivial
          · exact each _ owner _ (heldOwner owner declarator rfl)
    · exact law.pure trivial

theorem literalsWith (law : SearchLaw Held Obeys) {follow : Follow}
    (each : ∀ active file value, Held file → Obeys (follow active file value) fun _ => True)
    (active : List BindingKey) {file : SourceFile} (held : Held file) (expression : Node) :
    Obeys (literalsWith follow active file expression) fun _ => True := by
  unfold Compilation.literalsWith
  refine law.bind (law.lift (Shape.ofNode expression) fun _ _ => trivial) fun shape _ => ?_
  split
  · exact law.pure trivial
  · exact law.bind (law.mapM (law.memberLiterals each active held) _) fun _ _ => law.pure trivial
  · exact law.pure trivial

theorem objectLiterals (law : SearchLaw Held Obeys) (depth : Nat) (active : List BindingKey) (file : SourceFile)
    (expression : Node) (held : Held file) : Obeys (objectLiterals depth active file expression) fun _ => True := by
  induction depth generalizing active file expression with
  | zero => exact law.raise .unfinished
  | succ depth ih => exact law.literalsWith ih active held expression

theorem valueLiterals (law : SearchLaw Held Obeys) {file : SourceFile} (held : Held file) (name : Text) (value : Node) :
    Obeys (valueLiterals file name value) fun _ => True :=
  law.settle (fun depth => law.objectLiterals depth [(file.path, name)] file value held) fun w c =>
    ⟨nestingBound w c file, fun _ enough => valueLiterals_settles w c file name value enough⟩

/-- A declarator leaves an index as it is, or puts a declaration with objects into it. -/
theorem indexDeclarator (law : SearchLaw Held Obeys) {file : SourceFile} (held : Held file) {good : DeclarationIndex → Prop}
    {index : DeclarationIndex} (kept : good index) (named : Text × Declarator)
    (put : ∀ objects, objects ≠ [] → good (index.insert named.1 ⟨named.1, objects, file, named.2.statement⟩)) :
    Obeys (indexDeclarator (Compilation.valueLiterals file) file index named) good := by
  obtain ⟨name, declarator⟩ := named
  simp only [Compilation.indexDeclarator]
  cases declarator.value? with
  | none => exact law.pure kept
  | some value =>
    refine law.bind (law.valueLiterals held name value) fun objects _ => ?_
    split
    · exact law.pure kept
    next some => exact law.pure (put objects (by simpa using some))

/-- The declarations of an index all stand in the file that it is built of. -/
theorem buildIndex (law : SearchLaw Held Obeys) {file : SourceFile} (held : Held file) {Named : SourceFile → Prop}
    (named : Named file) : Obeys (buildIndex file) (HoldsFiles Named) := by
  refine law.bind (law.lift file.declarators fun _ _ => trivial) fun declarators _ => ?_
  have start : HoldsFiles Named OrderedMap.empty := by simp [HoldsFiles]
  refine law.foldlM (fun index declared kept => law.indexDeclarator held kept declared fun objects _ => ?_) declarators
    start
  intro queried declaration found
  rw [OrderedMap.get?_insert] at found
  split at found
  · cases found
    exact named
  · exact kept queried declaration found

end SearchLaw

namespace StepLaw

variable {Held : SourceFile → Prop} {Obeys : ∀ {α : Type}, Compile α → (α → Prop) → Prop}

theorem indexDeclarations (law : StepLaw Held Obeys) {file : SourceFile} (held : Held file) :
    Obeys (indexDeclarations file) (HoldsFiles Held) := law.remember held (law.buildIndex held held)

theorem failure (law : StepLaw Held Obeys) (schema : Text) (file : SourceFile) (cause : ResolutionCause)
    {good : α → Prop} : Obeys (fail schema file cause) good := law.raise (.resolution ⟨schema, file.path, cause⟩)

theorem resolveKey (law : StepLaw Held Obeys) {file : SourceFile} (held : Held file) (schema : Text) (keyNode : Node) :
    Obeys (resolveKey file schema keyNode) fun declaration => Held declaration.file := by
  unfold Compilation.resolveKey
  dsimp only
  split
  · exact law.bind (law.failure schema file .keyNotString) fun _ impossible => False.elim impossible
  · refine law.bind (law.lift keyNode.stringValue fun _ _ => trivial) fun key _ => ?_
    refine law.bind (law.lift (ModuleTable.find file) fun _ _ => trivial) fun table _ => ?_
    split
    next table =>
      split
      next target _ =>
        refine law.bind (law.indexDeclarations held) fun index heldFiles => ?_
        split
        next declaration found => exact law.pure (heldFiles target declaration found)
        · refine law.bind (law.loadImport file target) fun imported heldNext => ?_
          split
          next next =>
            refine law.bind (law.indexDeclarations (heldNext next rfl)) fun index heldFiles => ?_
            split
            next declaration found => exact law.pure (heldFiles target declaration found)
            · exact law.failure schema next (.notAnObject target)
          · exact law.failure schema file (.notImported target)
      · exact law.failure schema file (.keyNotInTable key)
    · exact law.failure schema file (.noModuleTable key)

theorem resolveDeclaration (law : StepLaw Held Obeys) {file : SourceFile} (held : Held file) (schema : Text) :
    Obeys (resolveDeclaration file schema) fun declaration => Held declaration.file := by
  refine law.bind (law.indexDeclarations held) fun index heldFiles => ?_
  split
  next declaration found => exact law.pure (heldFiles schema declaration found)
  · refine law.bind (law.lift (importKey? file schema) fun _ _ => trivial) fun key _ => ?_
    split
    next keyNode => exact law.resolveKey held schema keyNode
    · exact law.failure schema file .notFound

theorem renderEntry (law : StepLaw Held Obeys) {entry : SourceFile} (held : Held entry) (aliases : AliasTable)
    (wanted : Text × Text) : Obeys (renderEntry entry aliases wanted) fun _ => True := by
  obtain ⟨schema, type⟩ := wanted
  refine law.bind (law.resolveDeclaration held schema) fun declaration _ => ?_
  refine law.bind (law.report _) fun _ _ => ?_
  exact law.lift (declaration.blockLines type aliases) fun _ _ => trivial

theorem generate (law : StepLaw Held Obeys) (reference : Text) (request : Request) :
    Obeys (generate reference request) fun _ => True := by
  refine law.bind (law.loadReference reference none) fun entry held => ?_
  exact law.bind (law.mapM (law.renderEntry held _) _) fun _ _ => law.pure trivial

end StepLaw
end SchemaTypes.Compilation
