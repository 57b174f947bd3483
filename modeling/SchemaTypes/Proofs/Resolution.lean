import SchemaTypes.Proofs.ModuleTables
import SchemaTypes.Proofs.Runs
import SchemaTypes.Proofs.Termination
import SchemaTypes.Proofs.Unfolding

/-!
Which declaration a schema name stands for. A name stands for the entry that the index of its file has under it. A name
without an entry may be redirected through the module table of the file, and then stands for the entry of the target, in
the same file or in the one that the target is imported from. A search for a name ends in that declaration, or it fails in
the file in which it had to stop.
-/

namespace SchemaTypes.Compilation

open Syntax

variable {w : Workspace} {c : Compilation} {file : SourceFile} {schema : Text}

/-! ### Asking for an index -/

/-- The index that a pass has for a file, or builds for it. -/
def indexOf (w : Workspace) (c : Compilation) (file : SourceFile) : Except Error DeclarationIndex :=
  (run (indexDeclarations file) w c).1

/-- The state of a pass after it was asked for the index of a file. -/
def afterIndexing (w : Workspace) (c : Compilation) (file : SourceFile) : Compilation :=
  (run (indexDeclarations file) w c).2

theorem Ensures.indexDeclarations {w : Workspace} {shown : Path → Except Error SourceFile} (file : SourceFile) :
    Ensures w shown (indexDeclarations file) fun _ => True := by
  intro c same
  rw [run_indexDeclarations]
  cases c.indexes.get? file.path with
  | some index => exact ⟨same, .inl ⟨index, rfl, trivial⟩⟩
  | none =>
    obtain ⟨kept, outcome⟩ := Ensures.buildIndex file c same
    cases ran : run (Compilation.buildIndex file) w c with
    | mk result after =>
      rw [ran] at kept outcome
      rcases outcome with ⟨index, rfl, -⟩ | ⟨e, rfl, raised⟩
      · exact ⟨(view_congr rfl).trans kept, .inl ⟨index, rfl, trivial⟩⟩
      · exact ⟨kept, .inr ⟨e, rfl, raised⟩⟩

theorem view_afterIndexing (w : Workspace) (c : Compilation) (file : SourceFile) :
    view w (afterIndexing w c file) = view w c := (Ensures.indexDeclarations file c rfl).1

theorem raises_of_indexOf {w : Workspace} {c : Compilation} {file : SourceFile} {e : Error}
    (failed : indexOf w c file = .error e) : w.Raises e := by
  obtain ⟨-, ⟨index, result, -⟩ | ⟨e', result, raised⟩⟩ := Ensures.indexDeclarations file c (rfl : view w c = view w c)
  · cases failed.symm.trans result
  · cases failed.symm.trans result
    exact raised

/-- An index that was found or built once is at hand from then on. -/
theorem run_indexDeclarations_again {w : Workspace} {c : Compilation} {file : SourceFile} {index : DeclarationIndex}
    (built : indexOf w c file = .ok index) :
    run (indexDeclarations file) w (afterIndexing w c file) = (.ok index, afterIndexing w c file) := by
  have stored : (afterIndexing w c file).indexes.get? file.path = some index := by
    unfold indexOf at built
    unfold afterIndexing
    rw [run_indexDeclarations] at built ⊢
    cases kept : c.indexes.get? file.path with
    | some old =>
      rw [kept] at built
      cases built
      exact kept
    | none =>
      simp only [kept] at built ⊢
      cases ran : run (buildIndex file) w c with
      | mk result after =>
        rw [ran] at built
        cases result with
        | error e => cases built
        | ok fresh =>
          cases built
          exact OrderedMap.get?_insert_self _ _ _
  rw [run_indexDeclarations, stored]

/-- What a pass has for a file depends on what it sees and on the indexes that it has. -/
theorem indexOf_congr {w : Workspace} {c c' : Compilation} (same : view w c' = view w c) (kept : c'.indexes = c.indexes)
    (file : SourceFile) : indexOf w c' file = indexOf w c file := by
  unfold indexOf
  rw [run_indexDeclarations, run_indexDeclarations, kept]
  cases c.indexes.get? file.path with
  | some index => rfl
  | none =>
    have viewed : Viewed w (buildIndex file) (HoldsFiles fun _ => True) := (viewed_law w).buildIndex trivial trivial
    have alike := (viewed c).2.2 c' same
    cases ran : run (buildIndex file) w c with
    | mk result after =>
      cases ran' : run (buildIndex file) w c' with
      | mk result' after' =>
        rw [ran, ran'] at alike
        simp only at alike
        subst alike
        cases result' <;> rfl

/-! ### Where a name leads -/

/-- The declarations that a name stands for in a file. The index of the file is asked for first, and that of the imported
file, if it comes to it, after that. -/
inductive Resolves (w : Workspace) (c : Compilation) (file : SourceFile) (schema : Text) : Declaration → Prop
  | listed {index : DeclarationIndex} {declaration : Declaration} (built : indexOf w c file = .ok index)
    (entry : index.get? schema = some declaration) : Resolves w c file schema declaration
  | redirected {index : DeclarationIndex} {target : Text} {declaration : Declaration}
    (built : indexOf w c file = .ok index) (missing : index.get? schema = none)
    (redirects : file.Redirects schema target) (entry : index.get? target = some declaration) :
    Resolves w c file schema declaration
  | imported {index index' : DeclarationIndex} {target : Text} {next : SourceFile} {declaration : Declaration}
    (built : indexOf w c file = .ok index) (missing : index.get? schema = none)
    (redirects : file.Redirects schema target) (absent : index.get? target = none)
    (imports : importedFile w (view w c) file target = .ok (some next))
    (built' : indexOf w (afterIndexing w c file) next = .ok index') (entry : index'.get? target = some declaration) :
    Resolves w c file schema declaration

/-- A name is redirected to a target that is imported, and the file it is imported from declares no such object. -/
structure Stranded (w : Workspace) (c : Compilation) (file : SourceFile) (schema target : Text) (next : SourceFile) :
    Prop where
  redirects : file.Redirects schema target
  own : ∃ index, indexOf w c file = .ok index ∧ index.get? schema = none ∧ index.get? target = none
  imports : importedFile w (view w c) file target = .ok (some next)
  lacks : ∃ index, indexOf w (afterIndexing w c file) next = .ok index ∧ index.get? target = none

/-- An outcome that says that a file could not be found, read or decoded. -/
def Unreadable {α : Type} (w : Workspace) (outcome : Except Error α) : Prop := ∃ e, outcome = .error e ∧ w.Raises e

/-- How a search for a name may end. -/
inductive Ends (w : Workspace) (c : Compilation) (file : SourceFile) (schema : Text) : Except Error Declaration → Prop
  | unreadable {outcome : Except Error Declaration} (failed : Unreadable w outcome) : Ends w c file schema outcome
  | found {declaration : Declaration} (resolves : Resolves w c file schema declaration) :
    Ends w c file schema (.ok declaration)
  | stranded {target : Text} {next : SourceFile} (stranded : Stranded w c file schema target next) :
    Ends w c file schema (.error (.resolution ⟨schema, next.path, .notAnObject target⟩))
  | stopped (cause : ResolutionCause) : Ends w c file schema (.error (.resolution ⟨schema, file.path, cause⟩))

/-! ### The search for a target -/

/-- The declaration of a target in the file that it is imported from. -/
def resolveImported (file : SourceFile) (schema target : Text) : Compile Declaration := do
  let some imported ← loadImport file target | fail schema file (.notImported target)
  let some declaration := (← indexDeclarations imported).get? target | fail schema imported (.notAnObject target)
  return declaration

/-- The declaration of a target, in the file itself or in the one that it is imported from. -/
def resolveTarget (file : SourceFile) (schema target : Text) : Compile Declaration := do
  if let some declaration := (← indexDeclarations file).get? target then return declaration
  resolveImported file schema target

/-- How the search for an imported target can end. -/
theorem resolveImported_cases (w : Workspace) (c : Compilation) (file : SourceFile) (schema target : Text) :
    let outcome := (run (resolveImported file schema target) w c).1
    Unreadable w outcome ∨
    importedFile w (view w c) file target = .ok none ∧
      outcome = .error (.resolution ⟨schema, file.path, .notImported target⟩) ∨
    ∃ next index, importedFile w (view w c) file target = .ok (some next) ∧ indexOf w c next = .ok index ∧
      ((∃ declaration, index.get? target = some declaration ∧ outcome = .ok declaration) ∨
        index.get? target = none ∧ outcome = .error (.resolution ⟨schema, next.path, .notAnObject target⟩)) := by
  intro outcome
  obtain ⟨shown, ⟨found, loaded, imports⟩ | ⟨e, failed, raised⟩⟩ := Ensures.loadImport file target c (rfl : view w c = _)
  · have kept := (keepsIndexes.search_law.loadImport file target w c).1
    cases found with
    | none => exact .inr (.inl ⟨imports, congrArg Prod.fst (run_bind_ok _ loaded)⟩)
    | some next =>
      have goes : outcome = (run (indexDeclarations next >>= _) w _).1 := congrArg Prod.fst (run_bind_ok _ loaded)
      -- loading the file has changed neither what is seen nor the indexes, so its index can be asked for beforehand
      have asked := indexOf_congr shown kept next
      cases built : indexOf w c next with
      | error e =>
        rw [built] at asked
        rw [run_bind_error _ asked] at goes
        exact .inl ⟨e, goes, raises_of_indexOf built⟩
      | ok index =>
        rw [built] at asked
        rw [run_bind_ok _ asked] at goes
        refine .inr (.inr ⟨next, index, imports, built, ?_⟩)
        cases entry : index.get? target with
        | some declaration =>
          rw [entry] at goes
          exact .inl ⟨declaration, rfl, goes⟩
        | none =>
          rw [entry] at goes
          exact .inr ⟨rfl, goes⟩
  · exact .inl ⟨e, congrArg Prod.fst (run_bind_error _ failed), raised⟩

/-- The target is found without a look at the state of the pass. -/
theorem run_resolveKey (w : Workspace) (c : Compilation) (file : SourceFile) (schema : Text) (keyNode : Node) :
    run (resolveKey file schema keyNode) w c =
      if keyNode.kind = .string then
        match keyNode.stringValue with
        | .error e => (.error e, c)
        | .ok key =>
          match ModuleTable.find file with
          | .error e => (.error e, c)
          | .ok none => (.error (.resolution ⟨schema, file.path, .noModuleTable key⟩), c)
          | .ok (some table) =>
            match table.get? key with
            | none => (.error (.resolution ⟨schema, file.path, .keyNotInTable key⟩), c)
            | some target => run (resolveTarget file schema target) w c
      else (.error (.resolution ⟨schema, file.path, .keyNotString⟩), c) := by
  unfold resolveKey
  by_cases string : keyNode.kind = .string
  · simp only [string, bne_self_eq_false, Bool.false_eq_true, if_false, if_true, run_bind, run_liftM]
    cases keyNode.stringValue with
    | error e => rfl
    | ok key =>
      rcases ModuleTable.find file with e | _ | table
      · rfl
      · rfl
      · simp only
        cases table.get? key with
        | none => rfl
        | some target =>
          simp only [resolveTarget, run_bind]
          rfl
  · have other : (keyNode.kind != .string) = true := bne_iff_ne.mpr string
    simp only [other, string, if_true, if_false, run_bind]
    rfl

theorem run_resolveTarget_listed {index : DeclarationIndex} {target : Text} {declaration : Declaration}
    (built : indexOf w c file = .ok index) (entry : index.get? target = some declaration) :
    run (resolveTarget file schema target) w (afterIndexing w c file) = (.ok declaration, afterIndexing w c file) := by
  simp only [resolveTarget, run_bind, run_indexDeclarations_again built, entry, run_pure]

theorem run_resolveTarget_absent {index : DeclarationIndex} {target : Text} (built : indexOf w c file = .ok index)
    (absent : index.get? target = none) :
    run (resolveTarget file schema target) w (afterIndexing w c file) =
      run (resolveImported file schema target) w (afterIndexing w c file) := by
  simp only [resolveTarget, run_bind, run_indexDeclarations_again built, absent]

/-! ### The search for a name -/

theorem run_resolveDeclaration_listed {index : DeclarationIndex} {declaration : Declaration}
    (built : indexOf w c file = .ok index) (entry : index.get? schema = some declaration) :
    (run (resolveDeclaration file schema) w c).1 = .ok declaration := by
  unfold resolveDeclaration
  rw [run_bind_ok _ built, entry]
  rfl

theorem run_resolveDeclaration_missing {index : DeclarationIndex} (built : indexOf w c file = .ok index)
    (missing : index.get? schema = none) :
    run (resolveDeclaration file schema) w c =
      match importKey? file schema with
      | .error e => (.error e, afterIndexing w c file)
      | .ok none => (.error (.resolution ⟨schema, file.path, .notFound⟩), afterIndexing w c file)
      | .ok (some keyNode) => run (resolveKey file schema keyNode) w (afterIndexing w c file) := by
  unfold resolveDeclaration
  rw [run_bind_ok _ built, missing]
  simp only [run_bind, run_liftM]
  rcases importKey? file schema with e | _ | keyNode <;> rfl

theorem run_resolveDeclaration_redirected {index : DeclarationIndex} {target : Text}
    (built : indexOf w c file = .ok index) (missing : index.get? schema = none) (redirects : file.Redirects schema target) :
    Unreadable w (run (resolveDeclaration file schema) w c).1 ∨
      run (resolveDeclaration file schema) w c = run (resolveTarget file schema target) w (afterIndexing w c file) := by
  obtain ⟨keyNode, key, imports, string, value, leads⟩ := redirects.read
  rw [run_resolveDeclaration_missing built missing, imports]
  simp only [run_resolveKey, string, value, if_true]
  -- another member of the table may have a key that cannot be decoded, and then there is no table
  cases found : ModuleTable.find file with
  | error e => exact .inl ⟨e, rfl, .decoding (DecodesOnly.moduleTable file e found)⟩
  | ok read =>
    obtain ⟨table, rfl, entry⟩ := leads read found
    right
    simp only [entry]

theorem resolveTarget_ends {index : DeclarationIndex} {target : Text} (built : indexOf w c file = .ok index)
    (missing : index.get? schema = none) (redirects : file.Redirects schema target) :
    Ends w c file schema (run (resolveTarget file schema target) w (afterIndexing w c file)).1 := by
  cases entry : index.get? target with
  | some declaration =>
    rw [run_resolveTarget_listed built entry]
    exact .found (.redirected built missing redirects entry)
  | none =>
    rw [run_resolveTarget_absent built entry]
    have ends := resolveImported_cases w (afterIndexing w c file) file schema target
    simp only [view_afterIndexing] at ends
    obtain failed | ⟨-, ends⟩ | ⟨next, index', imports, built', ⟨declaration, entry', ends⟩ | ⟨lacks, ends⟩⟩ := ends
    · exact .unreadable failed
    · exact ends ▸ .stopped _
    · exact ends ▸ .found (.imported built missing redirects entry imports built' entry')
    · exact ends ▸ .stranded ⟨redirects, ⟨index, built, missing, entry⟩, imports, index', built', lacks⟩

theorem resolveKey_ends {index : DeclarationIndex} {keyNode : Node} (built : indexOf w c file = .ok index)
    (missing : index.get? schema = none) (imports : importKey? file schema = .ok (some keyNode)) :
    Ends w c file schema (run (resolveKey file schema keyNode) w (afterIndexing w c file)).1 := by
  rw [run_resolveKey]
  by_cases string : keyNode.kind = .string
  · rw [if_pos string]
    cases value : keyNode.stringValue with
    | error e => exact .unreadable ⟨e, rfl, .decoding (DecodesOnly.stringValue keyNode e value)⟩
    | ok key =>
      rcases found : ModuleTable.find file with e | _ | table
      · exact .unreadable ⟨e, rfl, .decoding (DecodesOnly.moduleTable file e found)⟩
      · exact .stopped (.noModuleTable key)
      · simp only
        cases leads : table.get? key with
        | none => exact .stopped (.keyNotInTable key)
        | some target =>
          exact resolveTarget_ends built missing (SourceFile.redirects_of_read imports string value found leads)
  · rw [if_neg string]
    exact .stopped .keyNotString

theorem resolveDeclaration_ends (w : Workspace) (c : Compilation) (file : SourceFile) (schema : Text) :
    Ends w c file schema (run (resolveDeclaration file schema) w c).1 := by
  cases built : indexOf w c file with
  | error e => exact .unreadable ⟨e, congrArg Prod.fst (run_bind_error _ built), raises_of_indexOf built⟩
  | ok index =>
    cases entry : index.get? schema with
    | some declaration =>
      rw [run_resolveDeclaration_listed built entry]
      exact .found (.listed built entry)
    | none =>
      rw [run_resolveDeclaration_missing built entry]
      rcases read : importKey? file schema with e | _ | keyNode
      · exact .unreadable ⟨e, rfl, .decoding (DecodesOnly.importKey? file schema e read)⟩
      · exact .stopped .notFound
      · exact resolveKey_ends built entry read

/-- With the file at hand that a target is imported from, the search ends in its index. -/
theorem run_resolveDeclaration_imported {index index' : DeclarationIndex} {target : Text} {next : SourceFile}
    (built : indexOf w c file = .ok index) (missing : index.get? schema = none) (redirects : file.Redirects schema target)
    (absent : index.get? target = none) (imports : importedFile w (view w c) file target = .ok (some next))
    (built' : indexOf w (afterIndexing w c file) next = .ok index') :
    let outcome := (run (resolveDeclaration file schema) w c).1
    Unreadable w outcome ∨ (∃ declaration, index'.get? target = some declaration ∧ outcome = .ok declaration) ∨
      index'.get? target = none ∧ outcome = .error (.resolution ⟨schema, next.path, .notAnObject target⟩) := by
  intro outcome
  rcases run_resolveDeclaration_redirected built missing redirects with unreadable | goes
  · exact .inl unreadable
  · rw [run_resolveTarget_absent built absent] at goes
    have ends := resolveImported_cases w (afterIndexing w c file) file schema target
    simp only [← goes, view_afterIndexing, imports] at ends
    obtain unreadable | ⟨impossible, -⟩ | ⟨other, index'', same, built'', ends⟩ := ends
    · exact .inl unreadable
    · cases impossible
    · cases same
      cases built'.symm.trans built''
      exact .inr ends

/-- The declaration that a name stands for is what the search for it finds. -/
theorem Resolves.found {declaration : Declaration} (resolves : Resolves w c file schema declaration) :
    Unreadable w (run (resolveDeclaration file schema) w c).1 ∨
      (run (resolveDeclaration file schema) w c).1 = .ok declaration := by
  cases resolves with
  | listed built entry => exact .inr (run_resolveDeclaration_listed built entry)
  | redirected built missing redirects entry =>
    rcases run_resolveDeclaration_redirected built missing redirects with unreadable | goes
    · exact .inl unreadable
    · rw [goes, run_resolveTarget_listed built entry]
      exact .inr rfl
  | imported built missing redirects absent imports built' entry =>
    obtain unreadable | ⟨other, entry', ends⟩ | ⟨lacks, -⟩ :=
      run_resolveDeclaration_imported built missing redirects absent imports built'
    · exact .inl unreadable
    · cases entry.symm.trans entry'
      exact .inr ends
    · cases entry.symm.trans lacks

/-- A search that is stranded fails in the file that it was led to. -/
theorem Stranded.fails {target : Text} {next : SourceFile} (stranded : Stranded w c file schema target next) :
    Unreadable w (run (resolveDeclaration file schema) w c).1 ∨
      (run (resolveDeclaration file schema) w c).1 = .error (.resolution ⟨schema, next.path, .notAnObject target⟩) := by
  obtain ⟨redirects, ⟨index, built, missing, absent⟩, imports, index', built', lacks⟩ := stranded
  obtain unreadable | ⟨declaration, entry, -⟩ | ⟨-, ends⟩ :=
    run_resolveDeclaration_imported built missing redirects absent imports built'
  · exact .inl unreadable
  · cases lacks.symm.trans entry
  · exact .inr ends

/-! ### Declarations build objects -/

def BuildsObjects (index : DeclarationIndex) : Prop :=
  ∀ name declaration, index.get? name = some declaration → declaration.objects ≠ []

/-- A pass that keeps no declaration without an object. -/
def Filled (c : Compilation) : Prop := ∀ path index, c.indexes.get? path = some index → BuildsObjects index

theorem keepsFilled : Allows fun _ c c' => Filled c → Filled c' where
  refl := fun _ _ filled => filled
  trans := fun first second filled => second (first filled)
  reporting := fun _ _ _ filled => filled
  consulting := fun _ _ _ filled => filled
  reading := fun _ _ _ filled => filled

/-- A declarator that builds no object is left out of an index. -/
theorem buildIndex_buildsObjects (file : SourceFile) :
    Moves (fun _ c c' => Filled c → Filled c') (buildIndex file) BuildsObjects := by
  have law := keepsFilled.search_law
  refine law.bind (law.lift file.declarators fun _ _ => trivial) fun named _ => ?_
  have start : BuildsObjects OrderedMap.empty := by simp [BuildsObjects]
  refine law.foldlM (fun index declared kept => law.indexDeclarator trivial kept declared fun objects some => ?_) named start
  intro queried declaration found
  rw [OrderedMap.get?_insert] at found
  split at found
  · cases found
    exact some
  · exact kept queried declaration found

theorem indexDeclarations_buildsObjects (w : Workspace) {c : Compilation} (filled : Filled c) (file : SourceFile) :
    Filled (afterIndexing w c file) ∧ ∀ index, indexOf w c file = .ok index → BuildsObjects index := by
  unfold afterIndexing indexOf
  rw [run_indexDeclarations]
  cases kept : c.indexes.get? file.path with
  | some index =>
    refine ⟨filled, fun found same => ?_⟩
    cases same
    exact filled file.path index kept
  | none =>
    obtain ⟨filled', builds⟩ := buildIndex_buildsObjects file w c
    cases ran : run (buildIndex file) w c with
    | mk result after =>
      rw [ran] at filled' builds
      cases result with
      | error e => exact ⟨filled' filled, by simp⟩
      | ok index =>
        -- the new index is the only one that is not an old one
        refine ⟨fun path other found => ?_, fun found same => ?_⟩
        · simp only [indexing, OrderedMap.get?_insert] at found
          split at found
          · cases found
            exact builds index rfl
          · exact filled' filled path other found
        · cases same
          exact builds index rfl

theorem filled_law : StepLaw (fun _ => True) (Moves fun _ c c' => Filled c → Filled c') where
  toSearchLaw := keepsFilled.search_law
  remember := fun {file} _ _ w _ =>
    ⟨fun filled => (indexDeclarations_buildsObjects w filled file).1, fun _ _ _ _ _ => trivial⟩

theorem Scene.filled (w : Workspace) (turns : List Turn) : Filled ((Scene.start w).after turns).pass := by
  have loads := keepsFilled.load fun _ _ filled => filled
  exact Scene.holds_after w turns (by simp [Filled]) fun operation w c => (operation.obeys filled_law loads w c).1

theorem Resolves.buildsObjects (filled : Filled c) {declaration : Declaration}
    (resolves : Resolves w c file schema declaration) : declaration.objects ≠ [] := by
  obtain ⟨filled', builds⟩ := indexDeclarations_buildsObjects w filled file
  cases resolves with
  | listed built entry => exact builds _ built _ _ entry
  | redirected built missing redirects entry => exact builds _ built _ _ entry
  | imported built missing redirects absent imports built' entry =>
    exact (indexDeclarations_buildsObjects w filled' _).2 _ built' _ _ entry

/-! ### Exactness -/

/-- Resolution is exact, whatever the pass has done before. Where all that the search needs can be found, read and decoded,
it returns a declaration just when the name stands for it, and the declaration builds an object. If the name is redirected
to a target that an imported file does not declare, the search fails with the path of that file. It fails with the path of
the file it began in whenever else the name stands for nothing. -/
theorem resolveDeclaration_exact (w : Workspace) (turns : List Turn) (file : SourceFile) (schema : Text) :
    let scene := (Scene.start w).after turns
    let outcome := (run (resolveDeclaration file schema) scene.workspace scene.pass).1
    ¬ Unreadable scene.workspace outcome →
      (∀ declaration, outcome = .ok declaration ↔ Resolves scene.workspace scene.pass file schema declaration) ∧
      (∀ declaration, outcome = .ok declaration → declaration.objects ≠ []) ∧
      (∀ target next, Stranded scene.workspace scene.pass file schema target next →
        outcome = .error (.resolution ⟨schema, next.path, .notAnObject target⟩)) ∧
      ((∀ declaration, ¬ Resolves scene.workspace scene.pass file schema declaration) →
        (∀ target next, ¬ Stranded scene.workspace scene.pass file schema target next) →
        ∃ cause, outcome = .error (.resolution ⟨schema, file.path, cause⟩)) := by
  intro scene outcome readable
  have ends : Ends scene.workspace scene.pass file schema outcome := resolveDeclaration_ends ..
  have sound {declaration : Declaration} (found : outcome = .ok declaration) :
      Resolves scene.workspace scene.pass file schema declaration := by
    rw [found] at ends readable
    cases ends with
    | unreadable failed => exact absurd failed readable
    | found resolves => exact resolves
  refine ⟨fun declaration => ⟨sound, fun resolves => resolves.found.resolve_left readable⟩, ?_, ?_, ?_⟩
  · exact fun declaration found => (sound found).buildsObjects (Scene.filled w turns)
  · exact fun target next stranded => stranded.fails.resolve_left readable
  · intro unresolved afloat
    clear_value outcome
    cases ends with
    | unreadable failed => exact absurd failed readable
    | found resolves => exact absurd resolves (unresolved _)
    | stranded stranded => exact absurd stranded (afloat _ _)
    | stopped cause => exact ⟨cause, rfl⟩

/-- A file that publishes an imported object under a key and imports it back under another name. -/
def redirectedSource : Workspace :=
  .ofSources [("a.ts", "import \x7bB\x7d from './b'\nconst module=Type.Module(\x7bk:B\x7d)\nconst S=module.Import('k')"),
    ("b.ts", "const B=Type.Object(\x7b\x7d)")]

/-- A pass that has been asked for the file by its name. -/
def redirectedScene : Scene :=
  (Scene.start redirectedSource).after [.ask (.loadReference "a.ts" none : Operation redirectedSource)]

def redirectedFile : SourceFile :=
  redirectedSource.parse (.ofText "/w/a.ts") ((redirectedSource.read (.ofText "/w/a.ts")).toOption.getD .empty)

set_option maxRecDepth 100000 in
theorem resolveDeclaration_exact_redirectedSource :
    ∃ declaration, declaration.file.path = .ofText "/w/b.ts" ∧
      (run (resolveDeclaration redirectedFile "S") redirectedScene.workspace redirectedScene.pass).1 = .ok declaration ∧
      Resolves redirectedScene.workspace redirectedScene.pass redirectedFile "S" declaration ∧
      declaration.objects ≠ [] := by
  have placed : ((run (resolveDeclaration redirectedFile "S") redirectedScene.workspace redirectedScene.pass).1.map
      fun declaration => declaration.file.path).toOption = some (.ofText "/w/b.ts") := by
    decide +kernel
  have exact := resolveDeclaration_exact redirectedSource
    [.ask (.loadReference "a.ts" none : Operation redirectedSource)] redirectedFile "S"
  cases outcome : (run (resolveDeclaration redirectedFile "S") redirectedScene.workspace redirectedScene.pass).1 with
  | error e =>
    rw [outcome] at placed
    cases placed
  | ok declaration =>
    rw [outcome] at placed
    have readable : ¬ Unreadable redirectedScene.workspace (.ok declaration) := by simp [Unreadable]
    obtain ⟨found, builds, -⟩ := exact (outcome ▸ readable)
    exact ⟨declaration, Option.some.inj placed, rfl, (found declaration).mp outcome, builds declaration outcome⟩

end SchemaTypes.Compilation
