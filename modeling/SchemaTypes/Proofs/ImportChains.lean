import SchemaTypes.Proofs.ModuleTables
import SchemaTypes.Proofs.Runs

/-!
Where a name is bound, seen from a file. The chain of imports of a name begins with the file, and goes on from each file
that does not bind the name with the one that the first import of the name in braces leads to. A chain can end in four
ways: its last file binds the name, or neither binds nor imports it, or has a path that was passed already, or cannot be
read any further. Every file begins exactly one chain that has ended, and the search for a binding goes along it: it gives
what the end of the chain says, and reads the files of the chain and no others.
-/

namespace SchemaTypes

open Syntax

/-! ### First imports -/

namespace SourceFile

/-- The imports in braces of a statement, in source order: each specifier with the string that is its source. -/
def statementPairs (statement : Node) : List (Node × Node) :=
  ((statement.child? .source).filter (·.kind == .string)).elim [] fun source =>
    (specifiers statement).map fun specifier => (specifier, source)

/-- The imports in braces at the top of a file, in source order. -/
def importPairs (file : SourceFile) : List (Node × Node) :=
  (file.root.children.filter (·.kind == .importStatement)).flatMap statementPairs

/-- Of imports in braces, the first one of a name is from a module reference. -/
def ImportsFirst (pairs : List (Node × Node)) (name reference : Text) : Prop :=
  ∃ before specifier source after, pairs = before ++ (specifier, source) :: after ∧
    (∀ earlier ∈ before, importedName earlier.1 ≠ .ok (some name)) ∧
    importedName specifier = .ok (some name) ∧ source.stringValue = .ok reference

/-- Put one import into the table of those before it. -/
def addImport (table : OrderedMap Text Text) (pair : Node × Node) : Except Error (OrderedMap Text Text) := do
  match ← importedName pair.1 with
  | none => return table
  | some name => return table.insertNew name (← pair.2.stringValue)

theorem importStep_eq_foldlM (table : OrderedMap Text Text) (statement : Node) :
    importStep table statement = (statementPairs statement).foldlM addImport table := by
  unfold importStep statementPairs
  cases statement.child? .source with
  | none => rfl
  | some source =>
    dsimp only
    split
    next quoted =>
      rw [Option.filter_some, if_pos quoted, Option.elim_some, List.foldlM_map]
      rfl
    next bare =>
      rw [Option.filter_some, if_neg bare]
      rfl

theorem namedImports_eq_foldlM (file : SourceFile) : file.namedImports = file.importPairs.foldlM addImport .empty := by
  unfold namedImports importPairs
  generalize file.root.children.filter (·.kind == .importStatement) = statements
  generalize OrderedMap.empty = table
  induction statements generalizing table with
  | nil => rfl
  | cons statement rest ih =>
    rw [List.foldlM_cons, List.flatMap_cons, List.foldlM_append, importStep_eq_foldlM]
    congr 1
    funext next
    exact ih next

theorem addImport_eq_ok {table table' : OrderedMap Text Text} {pair : Node × Node}
    (added : addImport table pair = .ok table') :
    (∃ name reference, importedName pair.1 = .ok (some name) ∧ pair.2.stringValue = .ok reference ∧
      table' = table.insertNew name reference) ∨ importedName pair.1 = .ok none ∧ table' = table := by
  obtain ⟨found, named, added⟩ := bind_eq_ok_iff.mp added
  cases found with
  | none =>
    cases added
    exact .inr ⟨named, rfl⟩
  | some name =>
    obtain ⟨reference, read, added⟩ := bind_eq_ok_iff.mp added
    cases added
    exact .inl ⟨name, reference, named, read, rfl⟩

theorem importsFirst_cons_of_eq {pair : Node × Node} {rest : List (Node × Node)} {name reference : Text}
    (here : importedName pair.1 = .ok (some name)) :
    ImportsFirst (pair :: rest) name reference ↔ pair.2.stringValue = .ok reference := by
  constructor
  · rintro ⟨before, specifier, source, after, split, earlier, -, read⟩
    cases before with
    | nil =>
      cases split
      exact read
    | cons first before =>
      cases split
      exact absurd here (earlier pair List.mem_cons_self)
  · intro read
    exact ⟨[], pair.1, pair.2, rest, rfl, by simp, here, read⟩

theorem importsFirst_cons_of_ne {pair : Node × Node} {rest : List (Node × Node)} {name reference : Text}
    (other : importedName pair.1 ≠ .ok (some name)) :
    ImportsFirst (pair :: rest) name reference ↔ ImportsFirst rest name reference := by
  constructor
  · rintro ⟨before, specifier, source, after, split, earlier, here, read⟩
    cases before with
    | nil =>
      cases split
      exact absurd here other
    | cons first before =>
      cases split
      exact ⟨before, specifier, source, after, rfl, fun pair member => earlier pair (List.mem_cons_of_mem _ member), here,
        read⟩
  · rintro ⟨before, specifier, source, after, rfl, earlier, here, read⟩
    refine ⟨pair :: before, specifier, source, after, rfl, fun early member => ?_, here, read⟩
    rcases List.mem_cons.mp member with rfl | member
    · exact other
    · exact earlier early member

/-- A table of imports has a name from before, or else from the first import of it. -/
theorem get?_foldlM_addImport {pairs : List (Node × Node)} {table table' : OrderedMap Text Text} {name reference : Text}
    (read : pairs.foldlM addImport table = .ok table') :
    table'.get? name = some reference ↔
      table.get? name = some reference ∨ table.get? name = none ∧ ImportsFirst pairs name reference := by
  induction pairs generalizing table with
  | nil =>
    cases read
    simp [ImportsFirst]
  | cons pair rest ih =>
    rw [List.foldlM_cons] at read
    obtain ⟨middle, added, read⟩ := bind_eq_ok_iff.mp read
    rw [ih read]
    rcases addImport_eq_ok added with ⟨name', reference', here, source, rfl⟩ | ⟨unnamed, rfl⟩
    · rw [OrderedMap.get?_insertNew]
      by_cases same : name' = name
      · subst same
        rw [importsFirst_cons_of_eq here, source]
        cases table.get? name' <;> simp
      · have other : importedName pair.1 ≠ .ok (some name) := by simp [here, same]
        rw [importsFirst_cons_of_ne other, if_neg same, Option.or_none]
    · rw [importsFirst_cons_of_ne (by simp [unnamed])]

theorem get?_foldlM_addImport_eq_none {pairs : List (Node × Node)} {table table' : OrderedMap Text Text} {name : Text}
    (read : pairs.foldlM addImport table = .ok table') :
    table'.get? name = none ↔ table.get? name = none ∧ ∀ pair ∈ pairs, importedName pair.1 ≠ .ok (some name) := by
  induction pairs generalizing table with
  | nil =>
    cases read
    simp
  | cons pair rest ih =>
    rw [List.foldlM_cons] at read
    obtain ⟨middle, added, read⟩ := bind_eq_ok_iff.mp read
    rw [ih read, List.forall_mem_cons]
    rcases addImport_eq_ok added with ⟨name', reference', here, source, rfl⟩ | ⟨unnamed, rfl⟩
    · rw [OrderedMap.get?_insertNew, Option.or_eq_none_iff]
      simp [here, and_assoc]
    · simp [unnamed]

/-- A file binds a name by none of its declarators. -/
def Unbound (file : SourceFile) (name : Text) : Prop :=
  ∃ named, file.declarators = .ok named ∧ ∀ declared ∈ named, declared.1 ≠ name

/-- A file whose imports can be read has none of a name. -/
def Unimported (file : SourceFile) (name : Text) : Prop :=
  (∃ table, file.namedImports = .ok table) ∧ ∀ pair ∈ file.importPairs, importedName pair.1 ≠ .ok (some name)

theorem binding?_eq_none_iff {file : SourceFile} {name : Text} : file.binding? name = .ok none ↔ file.Unbound name := by
  cases listed : file.declarators with
  | error e => simp [binding?, Unbound, listed, bind, Except.bind]
  | ok named =>
    have looked : file.binding? name = .ok (named.reverse.lookup name) := by
      simp [binding?, listed, bind, Except.bind, pure, Except.pure]
    rw [looked, Except.ok.injEq, List.lookup_eq_none_iff]
    constructor
    · intro absent
      refine ⟨named, listed, fun declared member same => ?_⟩
      have different := absent declared (List.mem_reverse.mpr member)
      simp [same] at different
    · rintro ⟨named', listed', absent⟩ declared member
      rw [listed, Except.ok.injEq] at listed'
      subst listed'
      simpa using (absent declared (List.mem_reverse.mp member)).symm

theorem binding?_eq_error_iff {file : SourceFile} {name : Text} {e : Error} :
    file.binding? name = .error e ↔ file.declarators = .error e := by
  cases listed : file.declarators <;> simp [binding?, listed, bind, Except.bind, pure, Except.pure]

theorem get?_namedImports {file : SourceFile} {table : OrderedMap Text Text} {name reference : Text}
    (read : file.namedImports = .ok table) :
    table.get? name = some reference ↔ ImportsFirst file.importPairs name reference := by
  rw [namedImports_eq_foldlM] at read
  rw [get?_foldlM_addImport read]
  simp

theorem get?_namedImports_eq_none {file : SourceFile} {table : OrderedMap Text Text} {name : Text}
    (read : file.namedImports = .ok table) :
    table.get? name = none ↔ ∀ pair ∈ file.importPairs, importedName pair.1 ≠ .ok (some name) := by
  rw [namedImports_eq_foldlM] at read
  rw [get?_foldlM_addImport_eq_none read]
  simp

end SourceFile

namespace Compilation

variable {w : Workspace} {shown : Path → Except Error SourceFile} {name : Text} {file next : SourceFile}

/-! ### One link -/

/-- The first import of a name in a file leads to another file. -/
def LeadsTo (w : Workspace) (shown : Path → Except Error SourceFile) (name : Text) (file next : SourceFile) : Prop :=
  (∃ table, file.namedImports = .ok table) ∧ ∃ reference path,
    SourceFile.ImportsFirst file.importPairs name reference ∧ w.resolve reference (some file.directory) = .ok path ∧
    shown path = .ok next

/-- The imports of a file cannot be followed for a name: they cannot be read, the reference of the first import of the
name does not resolve, or the file it resolves to cannot be read. -/
inductive Strays (w : Workspace) (shown : Path → Except Error SourceFile) (name : Text) (file : SourceFile) (e : Error) :
    Prop
  | unreadable (failed : file.namedImports = .error e)
  | unresolved {table : OrderedMap Text Text} {reference : Text} (read : file.namedImports = .ok table)
      (first : SourceFile.ImportsFirst file.importPairs name reference)
      (failed : w.resolve reference (some file.directory) = .error e)
  | unshown {table : OrderedMap Text Text} {reference : Text} {path : Path} (read : file.namedImports = .ok table)
      (first : SourceFile.ImportsFirst file.importPairs name reference)
      (resolved : w.resolve reference (some file.directory) = .ok path) (failed : shown path = .error e)

theorem importedFile_of_namedImports {table : OrderedMap Text Text} (read : file.namedImports = .ok table) :
    importedFile w shown file name = (table.get? name).elim (.ok none) fun reference =>
      w.resolve reference (some file.directory) >>= fun path => some <$> shown path := by
  simp only [importedFile, read]
  cases found : table.get? name with
  | none => simp [found, bind, Except.bind, pure, Except.pure]
  | some reference => simp [found, bind, Except.bind, pure, Except.pure, Functor.map, Except.map]

theorem importedFile_of_unreadable {e : Error} (failed : file.namedImports = .error e) :
    importedFile w shown file name = .error e := by
  simp [importedFile, failed, bind, Except.bind]

theorem importedFile_of_importsFirst {table : OrderedMap Text Text} {reference : Text}
    (read : file.namedImports = .ok table) (first : SourceFile.ImportsFirst file.importPairs name reference) :
    importedFile w shown file name =
      w.resolve reference (some file.directory) >>= fun path => some <$> shown path := by
  rw [importedFile_of_namedImports read, (SourceFile.get?_namedImports read).mpr first, Option.elim_some]

theorem importedFile_of_resolved {table : OrderedMap Text Text} {reference : Text} {path : Path}
    (read : file.namedImports = .ok table) (first : SourceFile.ImportsFirst file.importPairs name reference)
    (resolved : w.resolve reference (some file.directory) = .ok path) :
    importedFile w shown file name = some <$> shown path := by
  rw [importedFile_of_importsFirst read first, resolved]
  rfl

theorem LeadsTo.importedFile (leads : LeadsTo w shown name file next) :
    importedFile w shown file name = .ok (some next) := by
  obtain ⟨⟨table, read⟩, reference, path, first, resolved, seen⟩ := leads
  rw [importedFile_of_resolved read first resolved, seen]
  rfl

theorem importedFile_of_unimported (unimported : file.Unimported name) : importedFile w shown file name = .ok none := by
  obtain ⟨⟨table, read⟩, absent⟩ := unimported
  rw [importedFile_of_namedImports read, (SourceFile.get?_namedImports_eq_none read).mpr absent, Option.elim_none]

theorem Strays.importedFile {e : Error} (strays : Strays w shown name file e) :
    importedFile w shown file name = .error e := by
  cases strays with
  | unreadable failed => exact importedFile_of_unreadable failed
  | unresolved read first failed =>
    rw [importedFile_of_importsFirst read first, failed]
    rfl
  | unshown read first resolved failed =>
    rw [importedFile_of_resolved read first resolved, failed]
    rfl

/-- What can come of following the imports of a file for a name. -/
theorem leadsTo_cases (w : Workspace) (shown : Path → Except Error SourceFile) (name : Text) (file : SourceFile) :
    (∃ next, LeadsTo w shown name file next) ∨ file.Unimported name ∨ ∃ e, Strays w shown name file e := by
  cases read : file.namedImports with
  | error e => exact .inr (.inr ⟨e, .unreadable read⟩)
  | ok table =>
    cases found : table.get? name with
    | none => exact .inr (.inl ⟨⟨table, read⟩, (SourceFile.get?_namedImports_eq_none read).mp found⟩)
    | some reference =>
      have first := (SourceFile.get?_namedImports read).mp found
      cases resolved : w.resolve reference (some file.directory) with
      | error e => exact .inr (.inr ⟨e, .unresolved read first resolved⟩)
      | ok path =>
        cases seen : shown path with
        | error e => exact .inr (.inr ⟨e, .unshown read first resolved seen⟩)
        | ok next => exact .inl ⟨next, ⟨table, read⟩, reference, path, first, resolved, seen⟩

/-! ### Loading along links -/

theorem run_loadImport (w : Workspace) (c : Compilation) (file : SourceFile) (name : Text) :
    run (loadImport file name) w c =
      match file.namedImports with
      | .error e => (.error e, c)
      | .ok table =>
        match table.get? name with
        | none => (.ok none, c)
        | some reference =>
          (some <$> (run (loadReference reference (some file.directory)) w c).1,
            (run (loadReference reference (some file.directory)) w c).2) := by
  simp only [loadImport, run_bind, run_liftM]
  cases file.namedImports with
  | error e => rfl
  | ok table =>
    dsimp only
    cases table.get? name with
    | none => rfl
    | some reference => exact run_map w c some (loadReference reference (some file.directory))

theorem loadImport_result (w : Workspace) (c : Compilation) (file : SourceFile) (name : Text) :
    (run (loadImport file name) w c).1 = importedFile w (view w c) file name := by
  rw [run_loadImport]
  cases read : file.namedImports with
  | error e => rw [importedFile_of_unreadable read]
  | ok table =>
    rw [importedFile_of_namedImports read]
    dsimp only
    cases table.get? name with
    | none => rfl
    | some reference =>
      dsimp only [Option.elim_some]
      rw [run_loadReference]
      cases w.resolve reference (some file.directory) with
      | error e => rfl
      | ok path =>
        change some <$> (run (load path) w (c.probing w reference)).1 = some <$> view w c path
        rw [(load_result w (c.probing w reference) path).1, view_probing]

/-- Every file that is shown is shown at its own path. -/
def Keyed (shown : Path → Except Error SourceFile) : Prop := ∀ path file, shown path = .ok file → file.path = path

theorem files_load {c : Compilation} (keyed : Keyed (view w c)) {path : Path}
    (loaded : (run (load path) w c).1 = .ok file) :
    (run (load path) w c).2.files = c.files.insertNew file.path file := by
  have placed : file.path = path := keyed path file ((load_result w c path).1 ▸ loaded)
  rw [run_load] at loaded ⊢
  rw [placed]
  cases cached : c.files.get? path with
  | some kept => rw [OrderedMap.insertNew_of_get?_eq_some _ cached]
  | none =>
    cases success : w.read path with
    | error e =>
      rw [cached, success] at loaded
      cases loaded
    | ok bytes =>
      rw [cached, success] at loaded
      cases loaded
      rw [OrderedMap.insertNew_of_get?_eq_none _ cached]
      rfl

theorem files_probing (w : Workspace) (c : Compilation) (reference : Text) :
    (c.probing w reference).files = c.files := by
  unfold probing
  split <;> rfl

theorem files_loadImport {c : Compilation} (keyed : Keyed (view w c))
    (loaded : (run (loadImport file name) w c).1 = .ok (some next)) :
    (run (loadImport file name) w c).2.files = c.files.insertNew next.path next := by
  rw [run_loadImport] at loaded ⊢
  cases read : file.namedImports with
  | error e =>
    rw [read] at loaded
    cases loaded
  | ok table =>
    rw [read] at loaded
    dsimp only at loaded ⊢
    cases found : table.get? name with
    | none =>
      rw [found] at loaded
      cases loaded
    | some reference =>
      rw [found] at loaded
      dsimp only at loaded ⊢
      rw [run_loadReference] at loaded ⊢
      cases resolved : w.resolve reference (some file.directory) with
      | error e =>
        rw [resolved] at loaded
        cases loaded
      | ok path =>
        rw [resolved] at loaded
        dsimp only at loaded ⊢
        rw [← files_probing w c reference]
        refine files_load (by rwa [view_probing]) ?_
        cases outcome : (run (load path) w (c.probing w reference)).1 with
        | error e =>
          rw [outcome] at loaded
          cases loaded
        | ok actual =>
          rw [outcome] at loaded
          cases loaded
          rfl

/-- A name that is not imported makes nothing be read. -/
theorem files_loadImport_none {c : Compilation} (absent : (run (loadImport file name) w c).1 = .ok none) :
    (run (loadImport file name) w c).2.files = c.files := by
  rw [run_loadImport] at absent ⊢
  cases read : file.namedImports with
  | error e => rfl
  | ok table =>
    rw [read] at absent
    dsimp only at absent ⊢
    cases found : table.get? name with
    | none => rfl
    | some reference =>
      rw [found] at absent
      dsimp only at absent
      cases outcome : (run (loadReference reference (some file.directory)) w c).1 <;> rw [outcome] at absent <;>
        cases absent

/-- What loading the file that a name is imported from can do. -/
theorem loadImport_cases {c : Compilation} (same : view w c = shown) (keyed : Keyed shown) (file : SourceFile)
    (name : Text) :
    (∃ next, (run (loadImport file name) w c).1 = .ok (some next) ∧ LeadsTo w shown name file next ∧
      (run (loadImport file name) w c).2.files = c.files.insertNew next.path next) ∨
      ((run (loadImport file name) w c).1 = .ok none ∧ file.Unimported name ∧
        (run (loadImport file name) w c).2.files = c.files) ∨
      ∃ e, (run (loadImport file name) w c).1 = .error e ∧ Strays w shown name file e ∧
        (run (loadImport file name) w c).2.files = c.files := by
  subst same
  have result := loadImport_result w c file name
  rcases leadsTo_cases w (view w c) name file with ⟨next, leads⟩ | unimported | ⟨e, strays⟩
  · have found := result.trans leads.importedFile
    exact .inl ⟨next, found, leads, files_loadImport keyed found⟩
  · have absent := result.trans (importedFile_of_unimported unimported)
    exact .inr (.inl ⟨absent, unimported, files_loadImport_none absent⟩)
  · have failed := result.trans strays.importedFile
    exact .inr (.inr ⟨e, failed, strays, (FailsClean.loadImport file name w c e failed).1⟩)

/-! ### Chains -/

/-- A chain of imports of a name goes on from a file: the file does not bind the name, and imports it. -/
def GoesOn (w : Workspace) (shown : Path → Except Error SourceFile) (name : Text) (file next : SourceFile) : Prop :=
  file.Unbound name ∧ LeadsTo w shown name file next

/-- A chain of imports of a name from one file to another, through files with paths of their own. -/
structure ImportChain (w : Workspace) (shown : Path → Except Error SourceFile) (name : Text) (start : SourceFile)
    (passed : List SourceFile) (last : SourceFile) : Prop where
  begins : (passed ++ [last]).head? = some start
  linked : (passed ++ [last]).IsChain (GoesOn w shown name)
  distinct : (passed.map SourceFile.path).Nodup

/-- What a search finds where a chain of imports has ended: nothing at a path that was passed, and elsewhere what the
last file binds, nothing if it neither binds nor imports the name, or an error. -/
inductive ChainEnds (w : Workspace) (shown : Path → Except Error SourceFile) (name : Text) (passed : List SourceFile)
    (last : SourceFile) : Except Error (Option (SourceFile × Declarator)) → Prop
  | circular (again : last.path ∈ passed.map SourceFile.path) : ChainEnds w shown name passed last (.ok none)
  | bound {declarator : Declarator} (fresh : last.path ∉ passed.map SourceFile.path)
      (binds : last.Binds name declarator) : ChainEnds w shown name passed last (.ok (some (last, declarator)))
  | absent (fresh : last.path ∉ passed.map SourceFile.path) (unbound : last.Unbound name)
      (unimported : last.Unimported name) : ChainEnds w shown name passed last (.ok none)
  | unlisted {e : Error} (fresh : last.path ∉ passed.map SourceFile.path) (failed : last.declarators = .error e) :
      ChainEnds w shown name passed last (.error e)
  | astray {e : Error} (fresh : last.path ∉ passed.map SourceFile.path) (unbound : last.Unbound name)
      (strays : Strays w shown name last e) : ChainEnds w shown name passed last (.error e)

namespace ImportChain

variable {start last : SourceFile} {passed : List SourceFile}

theorem single (start : SourceFile) : ImportChain w shown name start [] start :=
  ⟨rfl, List.isChain_singleton start, List.nodup_nil⟩

theorem nodup_paths (chain : ImportChain w shown name start passed last)
    (fresh : last.path ∉ passed.map SourceFile.path) : ((passed ++ [last]).map SourceFile.path).Nodup := by
  rw [List.map_append, List.nodup_append]
  refine ⟨chain.distinct, List.nodup_singleton _, fun path old path' new same => ?_⟩
  rw [List.map_singleton, List.mem_singleton] at new
  exact fresh (new ▸ same ▸ old)

/-- A chain goes on from its last file, unless that has a path that was passed. -/
theorem snoc (chain : ImportChain w shown name start passed last) (fresh : last.path ∉ passed.map SourceFile.path)
    (onward : GoesOn w shown name last next) : ImportChain w shown name start (passed ++ [last]) next where
  begins := by
    rw [List.head?_append, chain.begins, Option.some_or]
  linked := by
    refine List.isChain_append.mpr ⟨chain.linked, List.isChain_singleton next, ?_⟩
    intro file isLast next' isNext
    simp only [List.getLast?_append, List.getLast?_singleton, Option.some_or, Option.mem_some_iff] at isLast
    simp only [List.head?_cons, Option.mem_some_iff] at isNext
    exact isLast ▸ isNext ▸ onward
  distinct := chain.nodup_paths fresh

end ImportChain

theorem GoesOn.unique {next' : SourceFile} (onward : GoesOn w shown name file next)
    (onward' : GoesOn w shown name file next') : next = next' := by
  have same := onward.2.importedFile.symm.trans onward'.2.importedFile
  simpa using same

/-- Where a chain has ended at a path that was not passed, it does not go on. -/
theorem ChainEnds.not_goesOn {passed : List SourceFile} {outcome : Except Error (Option (SourceFile × Declarator))}
    (ends : ChainEnds w shown name passed file outcome) (fresh : file.path ∉ passed.map SourceFile.path) :
    ¬ GoesOn w shown name file next := by
  rintro ⟨unbound, leads⟩
  have unbinding := SourceFile.binding?_eq_none_iff.mpr unbound
  have led := leads.importedFile
  cases ends with
  | circular again => exact fresh again
  | bound _ binds =>
    rw [SourceFile.binding?_eq_some_iff.mpr binds] at unbinding
    cases unbinding
  | absent _ _ unimported =>
    rw [importedFile_of_unimported unimported] at led
    cases led
  | unlisted _ failed =>
    rw [SourceFile.binding?_eq_error_iff.mpr failed] at unbinding
    cases unbinding
  | astray _ _ strays =>
    rw [strays.importedFile] at led
    cases led

/-- What a search finds where a chain has ended, read off the last file. -/
theorem ChainEnds.outcome_eq {passed : List SourceFile} {outcome : Except Error (Option (SourceFile × Declarator))}
    (ends : ChainEnds w shown name passed file outcome) :
    outcome = if file.path ∈ passed.map SourceFile.path then .ok none else
      (file.binding? name).bind fun found => found.elim ((importedFile w shown file name).map fun _ => none)
        fun declarator => .ok (some (file, declarator)) := by
  cases ends with
  | circular again => rw [if_pos again]
  | bound fresh binds =>
    rw [if_neg fresh, SourceFile.binding?_eq_some_iff.mpr binds]
    rfl
  | absent fresh unbound unimported =>
    rw [if_neg fresh, SourceFile.binding?_eq_none_iff.mpr unbound, importedFile_of_unimported unimported]
    rfl
  | unlisted fresh failed =>
    rw [if_neg fresh, SourceFile.binding?_eq_error_iff.mpr failed]
    rfl
  | astray fresh unbound strays =>
    rw [if_neg fresh, SourceFile.binding?_eq_none_iff.mpr unbound, strays.importedFile]
    rfl

theorem isChain_prefix {α : Type} {r : α → α → Prop} (functional : ∀ a b b', r a b → r a b' → b = b') {l l' : List α}
    (chain : l.IsChain r) (chain' : l'.IsChain r) (heads : l.head? = l'.head?) : l <+: l' ∨ l' <+: l := by
  induction l generalizing l' with
  | nil => exact .inl (List.nil_prefix)
  | cons a rest ih =>
    cases l' with
    | nil => exact .inr (List.nil_prefix)
    | cons a' rest' =>
      cases heads
      cases rest with
      | nil => exact .inl ⟨rest', rfl⟩
      | cons b rest =>
        cases rest' with
        | nil => exact .inr ⟨b :: rest, rfl⟩
        | cons b' rest' =>
          obtain ⟨first, chain⟩ := List.isChain_cons_cons.mp chain
          obtain ⟨first', chain'⟩ := List.isChain_cons_cons.mp chain'
          have same : (b :: rest).head? = (b' :: rest').head? := by simp [functional _ _ _ first first']
          rcases ih chain chain' same with short | long
          · exact .inl (List.prefix_cons_inj a |>.mpr short)
          · exact .inr (List.prefix_cons_inj a |>.mpr long)

namespace ImportChain

variable {start last last' : SourceFile} {passed passed' : List SourceFile}
  {outcome : Except Error (Option (SourceFile × Declarator))}

/-- A chain that has ended is not continued by another one. -/
theorem eq_of_prefix (chain' : ImportChain w shown name start passed' last')
    (ends : ChainEnds w shown name passed last outcome) (further : passed ++ [last] <+: passed' ++ [last']) :
    passed = passed' ∧ last = last' := by
  obtain ⟨rest, split⟩ := further
  cases rest with
  | nil =>
    rw [List.append_nil] at split
    exact List.append_inj' split rfl |>.imp_right (by simp)
  | cons next rest =>
    exfalso
    -- the last file of the one was passed by the other, which went on from it
    have onward : GoesOn w shown name last next := by
      have linked := chain'.linked
      rw [← split, List.append_assoc, List.singleton_append] at linked
      exact (List.isChain_cons_cons.mp (List.isChain_append.mp linked).2.1).1
    have within : passed ++ [last] <+: passed' := by
      refine List.prefix_of_prefix_length_le ⟨next :: rest, split⟩ (List.prefix_append passed' [last']) ?_
      have lengths := congrArg List.length split
      simp only [List.length_append, List.length_cons, List.length_nil] at lengths ⊢
      omega
    have distinct := chain'.distinct.sublist (within.map SourceFile.path).sublist
    rw [List.map_append, List.nodup_append] at distinct
    refine ends.not_goesOn (fun again => ?_) onward
    exact distinct.2.2 last.path again last.path (by simp) rfl

/-- From one file, at most one chain has ended. -/
theorem unique {outcome' : Except Error (Option (SourceFile × Declarator))}
    (chain : ImportChain w shown name start passed last) (ends : ChainEnds w shown name passed last outcome)
    (chain' : ImportChain w shown name start passed' last') (ends' : ChainEnds w shown name passed' last' outcome') :
    passed = passed' ∧ last = last' ∧ outcome = outcome' := by
  have same : passed = passed' ∧ last = last' := by
    have heads := chain.begins.trans chain'.begins.symm
    have functional : ∀ file next next', GoesOn w shown name file next → GoesOn w shown name file next' → next = next' :=
      fun _ _ _ onward onward' => onward.unique onward'
    rcases isChain_prefix functional chain.linked chain'.linked heads with short | long
    · exact chain'.eq_of_prefix ends short
    · exact (chain.eq_of_prefix ends' long).imp Eq.symm Eq.symm
  obtain ⟨rfl, rfl⟩ := same
  exact ⟨rfl, rfl, ends.outcome_eq.trans ends'.outcome_eq.symm⟩

end ImportChain

/-! ### The search -/

/-- The files of a pass after some more were loaded. One whose path was loaded before is not loaded again. -/
def loadingAll (files : OrderedMap Path SourceFile) (more : List SourceFile) : OrderedMap Path SourceFile :=
  more.foldl (fun files file => files.insertNew file.path file) files

/-- A search that stands at the last file of a chain gives up, or goes along the chain to where it ends. By then it has
loaded the files of the chain after the first. -/
theorem searchBinding_follows {start : SourceFile} {files : OrderedMap Path SourceFile} (keyed : Keyed shown)
    (bound : Nat) {passed : List SourceFile} {file : SourceFile} {c : Compilation}
    (chain : ImportChain w shown name start passed file) (same : view w c = shown)
    (loaded : c.files = loadingAll files (passed ++ [file]).tail) :
    (run (searchBinding name bound (passed.map SourceFile.path).reverse file) w c).1 = .error .unfinished ∨
      ∃ passed' last, ImportChain w shown name start passed' last ∧
        ChainEnds w shown name passed' last
          (run (searchBinding name bound (passed.map SourceFile.path).reverse file) w c).1 ∧
        (run (searchBinding name bound (passed.map SourceFile.path).reverse file) w c).2.files =
          loadingAll files (passed' ++ [last]).tail := by
  induction bound generalizing passed file c with
  | zero => exact .inl rfl
  | succ bound ih =>
    simp only [searchBinding, List.mem_reverse]
    by_cases again : file.path ∈ passed.map SourceFile.path
    · rw [if_pos again]
      exact .inr ⟨passed, file, chain, .circular again, loaded⟩
    rw [if_neg again, run_bind, run_liftM]
    cases bound? : file.binding? name with
    | error e =>
      have failed := SourceFile.binding?_eq_error_iff.mp bound?
      exact .inr ⟨passed, file, chain, .unlisted again failed, loaded⟩
    | ok found =>
      cases found with
      | some declarator =>
        have binds := SourceFile.binding?_eq_some_iff.mp bound?
        exact .inr ⟨passed, file, chain, .bound again binds, loaded⟩
      | none =>
        have unbound := SourceFile.binding?_eq_none_iff.mp bound?
        dsimp only
        rcases loadImport_cases same keyed file name with
          ⟨next, result, leads, read⟩ | ⟨result, unimported, read⟩ | ⟨e, result, strays, read⟩
        · rw [run_bind_ok _ result]
          have further := chain.snoc again ⟨unbound, leads⟩
          have seen : file.path :: (passed.map SourceFile.path).reverse =
              ((passed ++ [file]).map SourceFile.path).reverse := by simp
          rw [seen]
          have grown : (passed ++ [file] ++ [next]).tail = (passed ++ [file]).tail ++ [next] :=
            List.tail_append_of_ne_nil (by simp)
          refine ih further (Ensures.loadImport file name c same).1 ?_
          rw [read, loaded, grown, loadingAll, loadingAll, List.foldl_append]
          rfl
        · rw [run_bind_ok _ result]
          exact .inr ⟨passed, file, chain, .absent again unbound unimported, read.trans loaded⟩
        · rw [run_bind_error _ result]
          exact .inr ⟨passed, file, chain, .astray again unbound strays, read.trans loaded⟩

/-- From every file, some chain ends, and the search for a binding goes along it. -/
theorem resolveBinding_follows {c : Compilation} (keyed : Keyed (view w c)) (file : SourceFile) (name : Text) :
    ∃ passed last, ImportChain w (view w c) name file passed last ∧
      ChainEnds w (view w c) name passed last (run (resolveBinding file name) w c).1 ∧
      (run (resolveBinding file name) w c).2.files = loadingAll c.files (passed ++ [last]).tail := by
  have finished := (Ensures.resolveBinding file name : Ensures w (view w c) _ _).finished
  rw [run_resolveBinding] at finished ⊢
  exact (searchBinding_follows keyed (chainBound w c) (.single file) rfl rfl).resolve_left finished

theorem resolveBinding_eq_iff {c : Compilation} (keyed : Keyed (view w c))
    {outcome : Except Error (Option (SourceFile × Declarator))} :
    (run (resolveBinding file name) w c).1 = outcome ↔
      ∃ passed last, ImportChain w (view w c) name file passed last ∧
        ChainEnds w (view w c) name passed last outcome := by
  obtain ⟨passed, last, chain, ends, -⟩ := resolveBinding_follows keyed file name
  constructor
  · rintro rfl
    exact ⟨passed, last, chain, ends⟩
  · rintro ⟨passed', last', chain', ends'⟩
    exact (chain.unique ends chain' ends').2.2

/-- The files on a chain to one that it has not passed have paths of their own, so those that were not loaded before are
loaded once each. -/
theorem entries_loadingAll {files : OrderedMap Path SourceFile} {start last : SourceFile} {passed : List SourceFile}
    (chain : ImportChain w shown name start passed last) (fresh : last.path ∉ passed.map SourceFile.path) :
    (loadingAll files (passed ++ [last]).tail).entries = files.entries ++
      ((passed ++ [last]).tail.filter fun file => file.path ∉ files.keys).map fun file => (file.path, file) := by
  have unrepeated := (chain.nodup_paths fresh).sublist ((List.tail_sublist (passed ++ [last])).map SourceFile.path)
  have told (file : SourceFile) : (files.get? file.path).isNone = decide (file.path ∉ files.keys) := by
    have listed := OrderedMap.mem_keys_iff (m := files) (k := file.path)
    cases found : files.get? file.path <;> simpa [found] using listed
  have appended := OrderedMap.entries_foldl_insertNew SourceFile.path id unrepeated files
  simp only [id_eq, told] at appended
  exact appended

theorem resolveBinding_eq_some_iff {c : Compilation} (keyed : Keyed (view w c)) {owner : SourceFile}
    {declarator : Declarator} :
    (run (resolveBinding file name) w c).1 = .ok (some (owner, declarator)) ↔
      ∃ passed, ImportChain w (view w c) name file passed owner ∧ owner.path ∉ passed.map SourceFile.path ∧
        owner.Binds name declarator := by
  rw [resolveBinding_eq_iff keyed]
  constructor
  · rintro ⟨passed, last, chain, ends⟩
    cases ends with
    | bound fresh binds => exact ⟨passed, chain, fresh, binds⟩
  · rintro ⟨passed, chain, fresh, binds⟩
    exact ⟨passed, owner, chain, .bound fresh binds⟩

theorem resolveBinding_eq_none_iff {c : Compilation} (keyed : Keyed (view w c)) :
    (run (resolveBinding file name) w c).1 = .ok none ↔
      ∃ passed last, ImportChain w (view w c) name file passed last ∧
        (last.path ∈ passed.map SourceFile.path ∨ last.Unbound name ∧ last.Unimported name) := by
  rw [resolveBinding_eq_iff keyed]
  constructor
  · rintro ⟨passed, last, chain, ends⟩
    cases ends with
    | circular again => exact ⟨passed, last, chain, .inl again⟩
    | absent fresh unbound unimported => exact ⟨passed, last, chain, .inr ⟨unbound, unimported⟩⟩
  · rintro ⟨passed, last, chain, ended⟩
    refine ⟨passed, last, chain, ?_⟩
    by_cases again : last.path ∈ passed.map SourceFile.path
    · exact .circular again
    · obtain ⟨unbound, unimported⟩ := ended.resolve_left again
      exact .absent again unbound unimported

theorem resolveBinding_eq_error_iff {c : Compilation} (keyed : Keyed (view w c)) {e : Error} :
    (run (resolveBinding file name) w c).1 = .error e ↔
      ∃ passed last, ImportChain w (view w c) name file passed last ∧ last.path ∉ passed.map SourceFile.path ∧
        (last.declarators = .error e ∨ last.Unbound name ∧ Strays w (view w c) name last e) := by
  rw [resolveBinding_eq_iff keyed]
  constructor
  · rintro ⟨passed, last, chain, ends⟩
    cases ends with
    | unlisted fresh failed => exact ⟨passed, last, chain, fresh, .inl failed⟩
    | astray fresh unbound strays => exact ⟨passed, last, chain, fresh, .inr ⟨unbound, strays⟩⟩
  · rintro ⟨passed, last, chain, fresh, failed | ⟨unbound, strays⟩⟩
    · exact ⟨passed, last, chain, .unlisted fresh failed⟩
    · exact ⟨passed, last, chain, .astray fresh unbound strays⟩

/-- The search for a binding loads the files of the chain up to the one that binds the name. -/
theorem entries_resolveBinding {c : Compilation} (keyed : Keyed (view w c)) {passed : List SourceFile}
    {owner : SourceFile} {declarator : Declarator} (chain : ImportChain w (view w c) name file passed owner)
    (fresh : owner.path ∉ passed.map SourceFile.path) (binds : owner.Binds name declarator) :
    (run (resolveBinding file name) w c).2.files.entries = c.files.entries ++
      ((passed ++ [owner]).tail.filter fun loaded => loaded.path ∉ c.loadedPaths).map
        fun loaded => (loaded.path, loaded) := by
  obtain ⟨passed', last', chain', ends', read⟩ := resolveBinding_follows keyed file name
  obtain ⟨rfl, rfl, -⟩ := chain.unique (.bound fresh binds) chain' ends'
  rw [read]
  exact entries_loadingAll chain fresh

theorem Scene.keyed (w : Workspace) (turns : List Turn) :
    Keyed (view ((Scene.start w).after turns).workspace ((Scene.start w).after turns).pass) := by
  intro path file seen
  unfold view at seen
  split at seen
  next kept found =>
    cases seen
    have loads := grows_allowed.load Grows.reading
    have placed : Placed ((Scene.start w).after turns).pass :=
      Scene.holds_after w turns (by simp [Placed]) fun operation w c => (operation.obeys growth_law loads w c).1.placed
    exact placed path file found
  next =>
    cases read : ((Scene.start w).after turns).workspace.read path with
    | error e =>
      rw [read] at seen
      cases seen
    | ok bytes =>
      rw [read] at seen
      cases seen
      exact Workspace.parse_path _ path bytes

/-- The binding of a name seen from a file, in any state of a pass, also after the files on disk have changed. It is the
last one of the nearest file that binds the name on the chain of imports, and the files of the chain up to that one are
loaded, in order, unless they were loaded before; no other files are, and no index is. There is no binding just if the
chain comes back to a path, or to a file that neither binds nor imports the name. An error is raised just if the chain
breaks before that: the declarators of a file or its imports cannot be read, or the import of the name does not resolve or
leads to what cannot be read. The search always ends, and any larger bound on its length gives the same. -/
theorem resolveBinding_nearest (w : Workspace) (turns : List Turn) (file : SourceFile) (name : Text) :
    let scene := (Scene.start w).after turns
    let outcome := run (resolveBinding file name) scene.workspace scene.pass
    let Chain := ImportChain scene.workspace (view scene.workspace scene.pass) name file
    (∀ owner declarator, outcome.1 = .ok (some (owner, declarator)) ↔
      ∃ passed, Chain passed owner ∧ owner.path ∉ passed.map SourceFile.path ∧ owner.Binds name declarator) ∧
    (∀ passed owner declarator, Chain passed owner → owner.path ∉ passed.map SourceFile.path →
      owner.Binds name declarator →
      outcome.2.files.entries = scene.pass.files.entries ++
        ((passed ++ [owner]).tail.filter fun loaded => loaded.path ∉ scene.pass.loadedPaths).map
          fun loaded => (loaded.path, loaded)) ∧
    (outcome.1 = .ok none ↔ ∃ passed last, Chain passed last ∧
      (last.path ∈ passed.map SourceFile.path ∨ last.Unbound name ∧ last.Unimported name)) ∧
    (∀ e, outcome.1 = .error e ↔ ∃ passed last, Chain passed last ∧ last.path ∉ passed.map SourceFile.path ∧
      (last.declarators = .error e ∨
        last.Unbound name ∧ Strays scene.workspace (view scene.workspace scene.pass) name last e)) ∧
    outcome.2.indexes = scene.pass.indexes ∧
    outcome.1 ≠ .error .unfinished ∧
    ∀ bound, chainBound scene.workspace scene.pass ≤ bound →
      run (searchBinding name bound [] file) scene.workspace scene.pass = outcome := by
  intro scene outcome Chain
  have keyed : Keyed (view scene.workspace scene.pass) := Scene.keyed w turns
  have ensured : Ensures scene.workspace (view scene.workspace scene.pass) (resolveBinding file name) _ :=
    .resolveBinding file name
  have kept : outcome.2.indexes = scene.pass.indexes :=
    (keepsIndexes.search_law.resolveBinding trivial name scene.workspace scene.pass).1
  exact ⟨fun _ _ => resolveBinding_eq_some_iff keyed,
    fun _ _ _ chain fresh binds => entries_resolveBinding keyed chain fresh binds,
    resolveBinding_eq_none_iff keyed, fun _ => resolveBinding_eq_error_iff keyed, kept, ensured.finished,
    fun _ enough => (resolveBinding_settles _ _ file name enough).symm⟩

/-- A name that is imported from a file which binds it twice, and imports it as well, from a file that is missing. -/
def reboundImport : Workspace :=
  .ofSources [("a.ts", "import \x7bN\x7d from './b'"), ("b.ts", "import \x7bN\x7d from './c'\nlet N=1,N=2")]

/-- A pass that has loaded the file which the search starts in. -/
def reboundScene : Scene :=
  (Scene.start reboundImport).after [.ask (.load (.ofText "/w/a.ts") : Operation reboundImport)]

def reboundUser : SourceFile :=
  reboundImport.parse (.ofText "/w/a.ts") ((reboundImport.read (.ofText "/w/a.ts")).toOption.getD .empty)

set_option maxRecDepth 100000 in
theorem resolveBinding_nearest_reboundImport :
    let outcome := run (resolveBinding reboundUser "N") reboundScene.workspace reboundScene.pass
    ∃ passed owner declarator, outcome.1 = .ok (some (owner, declarator)) ∧
      owner.path = .ofText "/w/b.ts" ∧ declarator.node.bytes = "N=2".toUTF8.toList ∧
      ImportChain reboundScene.workspace (view reboundScene.workspace reboundScene.pass) "N" reboundUser passed owner ∧
      outcome.2.loadedPaths = [.ofText "/w/a.ts", .ofText "/w/b.ts"] ∧
      outcome.2.files.entries = reboundScene.pass.files.entries ++
        ((passed ++ [owner]).tail.filter fun loaded => loaded.path ∉ reboundScene.pass.loadedPaths).map
          fun loaded => (loaded.path, loaded) := by
  intro outcome
  have found : outcome.1.toOption.join.map (fun found => (found.1.path, found.2.node.bytes)) =
      some (.ofText "/w/b.ts", "N=2".toUTF8.toList) := by decide +kernel
  have loaded : outcome.2.loadedPaths = [.ofText "/w/a.ts", .ofText "/w/b.ts"] := by decide +kernel
  obtain ⟨⟨owner, declarator⟩, result, seen⟩ := exists_eq_ok_some found
  obtain ⟨placed, spelled⟩ := Prod.mk.inj seen
  obtain ⟨nearest, loads, -⟩ := resolveBinding_nearest reboundImport
    [.ask (.load (.ofText "/w/a.ts") : Operation reboundImport)] reboundUser "N"
  obtain ⟨passed, chain, fresh, binds⟩ := (nearest owner declarator).mp result
  have entries := loads passed owner declarator chain fresh binds
  exact ⟨passed, owner, declarator, result, placed, spelled, chain, loaded, entries⟩

end Compilation
end SchemaTypes
