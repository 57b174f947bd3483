import SchemaTypes.Proofs.Transparency

/-!
How the state of a pass grows while the files on disk change. Every step appends to what the pass has read and indexed:
the files that it reads, and the indexes that it has built to the end. Nothing is replaced or taken away, whether the step
succeeds or fails, so the pass keeps each file as it was when it was first read.
-/

namespace SchemaTypes.Compilation

open Syntax

variable {α β : Type}

/-! ### Steps as moves between states -/

/-- A step that takes each state to one that is related to it, and whose results are good. -/
def Moves (related : Workspace → Compilation → Compilation → Prop) (step : Compile α) (good : α → Prop) : Prop :=
  ∀ w c, related w c (run step w c).2 ∧ ∀ a, (run step w c).1 = .ok a → good a

/-- What a relation of states has to allow so that every search is a move in it. A search reads files at no other paths
than those that references resolve to. -/
structure Allows (related : Workspace → Compilation → Compilation → Prop) : Prop where
  refl : ∀ w c, related w c c
  trans : ∀ {w c c' c''}, related w c c' → related w c' c'' → related w c c''
  reporting : ∀ w c event, related w c { c with events := c.events ++ [event] }
  consulting : ∀ w c path, related w c (c.consulting path)
  reading : ∀ {w c reference base path bytes}, w.resolve reference base = .ok path → c.files.get? path = none →
    w.read path = .ok bytes → related w c (c.reading path (w.parse path bytes))

namespace Allows

variable {related : Workspace → Compilation → Compilation → Prop}

theorem bind (allows : Allows related) {step : Compile α} {next : α → Compile β} {good : α → Prop} {final : β → Prop}
    (first : Moves related step good) (rest : ∀ a, good a → Moves related (next a) final) :
    Moves related (step >>= next) final := by
  intro w c
  obtain ⟨moved, holds⟩ := first w c
  cases result : (run step w c).1 with
  | error e =>
    rw [run_bind_error next result]
    exact ⟨moved, by simp⟩
  | ok a =>
    rw [run_bind_ok next result]
    obtain ⟨further, holdsNext⟩ := rest a (holds a result) w (run step w c).2
    exact ⟨allows.trans moved further, holdsNext⟩

theorem related_load (allows : Allows related) {w : Workspace} {c : Compilation} {path : Path}
    (reading : ∀ bytes, c.files.get? path = none → w.read path = .ok bytes →
      related w c (c.reading path (w.parse path bytes))) : related w c (run (load path) w c).2 := by
  rw [run_load]
  cases cached : c.files.get? path with
  | some file => exact allows.refl w c
  | none =>
    cases success : w.read path with
    | ok bytes => exact reading bytes cached success
    | error e => exact allows.consulting w c path

/-- Files are loaded at any path if the relation allows to read there. -/
theorem load (allows : Allows related)
    (reading : ∀ {w c path bytes}, c.files.get? path = none → w.read path = .ok bytes →
      related w c (c.reading path (w.parse path bytes))) (path : Path) : Moves related (load path) fun _ => True :=
  fun _ _ => ⟨allows.related_load fun _ => reading, fun _ _ => trivial⟩

theorem probing (allows : Allows related) (w : Workspace) (c : Compilation) (reference : Text) :
    related w c (c.probing w reference) := by
  unfold Compilation.probing
  split
  · exact allows.consulting w c _
  · exact allows.refl w c

theorem loadReference (allows : Allows related) (reference : Text) (base : Option Path) :
    Moves related (loadReference reference base) fun _ => True := by
  intro w c
  refine ⟨?_, fun _ _ => trivial⟩
  rw [run_loadReference]
  cases resolved : w.resolve reference base with
  | error e => exact allows.probing w c reference
  | ok path =>
    exact allows.trans (allows.probing w c reference) (allows.related_load fun _ => allows.reading resolved)

theorem settle {step : Compile α} {search : Nat → Compile α} {good : α → Prop}
    (each : ∀ bound, Moves related (search bound) good)
    (settles : ∀ w c, ∃ enough, ∀ bound, enough ≤ bound → run step w c = run (search bound) w c) :
    Moves related step good := by
  intro w c
  obtain ⟨enough, settled⟩ := settles w c
  rw [settled enough (Nat.le_refl enough)]
  exact each enough w c

theorem search_law (allows : Allows related) : SearchLaw (fun _ => True) (Moves related) where
  lift := fun {_} _ {_} holds w c => ⟨allows.refl w c, holds⟩
  bind := allows.bind
  report := fun event w c => ⟨allows.reporting w c event, fun _ _ => trivial⟩
  loadReference := allows.loadReference
  settle := settle

end Allows

/-! ### Growing states -/

theorem keepsIndexes : Allows fun _ c c' => c'.indexes = c.indexes where
  refl := fun _ _ => rfl
  trans := fun first second => second.trans first
  reporting := fun _ _ _ => rfl
  consulting := fun _ _ _ => rfl
  reading := fun _ _ _ => rfl

/-- No index is kept before it is built to the end. -/
theorem indexes_buildIndex (w : Workspace) (c : Compilation) (file : SourceFile) :
    (run (buildIndex file) w c).2.indexes = c.indexes := by
  have searched : Moves _ (buildIndex file) (HoldsFiles (· = file)) := keepsIndexes.search_law.buildIndex trivial rfl
  exact (searched w c).1

/-- What asking for an index can do: hand out a kept one, fail in building it, or keep the one that it has built. -/
theorem indexDeclarations_cases (w : Workspace) (c : Compilation) (file : SourceFile) :
    (∃ index, run (indexDeclarations file) w c = (.ok index, c)) ∨
      c.indexes.get? file.path = none ∧ ∃ after, (run (buildIndex file) w c).2 = after ∧ after.indexes = c.indexes ∧
        ((∃ e, run (indexDeclarations file) w c = (.error e, after)) ∨
          ∃ index, run (indexDeclarations file) w c = (.ok index, after.indexing file.path index)) := by
  rw [run_indexDeclarations]
  cases c.indexes.get? file.path with
  | some index => exact .inl ⟨index, rfl⟩
  | none =>
    refine .inr ⟨rfl, _, rfl, indexes_buildIndex w c file, ?_⟩
    cases run (buildIndex file) w c with
    | mk result after =>
      cases result with
      | error e => exact .inl ⟨e, rfl⟩
      | ok index => exact .inr ⟨index, rfl⟩

/-- The later of two states of a pass in one workspace: files that the workspace has were put after the earlier ones, and
indexes after the earlier ones. -/
structure Grows (w : Workspace) (c c' : Compilation) : Prop where
  files : ∃ more, c'.files.entries = c.files.entries ++ more ∧
    ∀ entry ∈ more, entry.2.path = entry.1 ∧ w.Holds entry.2
  indexes : c.indexes.entries <+: c'.indexes.entries

theorem Grows.refl (w : Workspace) (c : Compilation) : Grows w c c :=
  ⟨⟨[], by simp⟩, List.prefix_refl _⟩

theorem Grows.trans {w : Workspace} {c c' c'' : Compilation} (first : Grows w c c') (second : Grows w c' c'') :
    Grows w c c'' := by
  obtain ⟨more, appended, held⟩ := first.files
  obtain ⟨more', appended', held'⟩ := second.files
  refine ⟨⟨more ++ more', ?_, fun entry member => ?_⟩, first.indexes.trans second.indexes⟩
  · rw [appended', appended, List.append_assoc]
  · rcases List.mem_append.mp member with early | late
    · exact held entry early
    · exact held' entry late

theorem Grows.reading {w : Workspace} {c : Compilation} {path : Path} {bytes : ByteArray}
    (absent : c.files.get? path = none) (success : w.read path = .ok bytes) :
    Grows w c (c.reading path (w.parse path bytes)) := by
  refine ⟨⟨[(path, w.parse path bytes)], OrderedMap.entries_insert_of_get?_eq_none _ absent, ?_⟩, List.prefix_refl _⟩
  intro entry member
  rw [List.mem_singleton.mp member]
  refine ⟨w.parse_path path bytes, ?_, ?_⟩
  · rw [w.parse_path, w.parse_bytes, success]
  · rw [w.parse_path, w.parse_bytes]

theorem grows_allowed : Allows Grows where
  refl := Grows.refl
  trans := Grows.trans
  reporting := fun w c _ => ⟨(Grows.refl w c).files, List.prefix_refl _⟩
  consulting := fun w c _ => ⟨(Grows.refl w c).files, List.prefix_refl _⟩
  reading := fun _ => Grows.reading

/-- Every step of a pass lets its state grow. -/
theorem growth_law : StepLaw (fun _ => True) (Moves Grows) where
  toSearchLaw := grows_allowed.search_law
  remember := by
    intro file _ built w c
    refine ⟨?_, fun _ _ _ _ _ => trivial⟩
    have grown := (built w c).1
    obtain ⟨index, ran⟩ | ⟨absent, after, rfl, kept, ⟨e, ran⟩ | ⟨index, ran⟩⟩ := indexDeclarations_cases w c file
    · rw [ran]
      exact Grows.refl w c
    · rw [ran]
      exact grown
    · -- building has not touched the indexes, so the new one goes to their end
      rw [← kept] at absent
      rw [ran]
      refine grown.trans ⟨(Grows.refl w _).files, ?_⟩
      change _ <+: OrderedMap.entries (OrderedMap.insert _ file.path index)
      rw [OrderedMap.entries_insert_of_get?_eq_none index absent]
      exact List.prefix_append _ _

/-! ### Steps that fail -/

/-- A step that adds nothing if it fails. -/
def FailsClean (step : Compile α) : Prop :=
  ∀ w c e, (run step w c).1 = .error e → (run step w c).2.files = c.files ∧ (run step w c).2.indexes = c.indexes

namespace FailsClean

theorem load (path : Path) : FailsClean (load path) := by
  intro w c e failed
  rw [run_load] at failed ⊢
  cases cached : c.files.get? path with
  | some file => exact ⟨rfl, rfl⟩
  | none =>
    cases outcome : w.read path with
    | ok bytes =>
      rw [cached, outcome] at failed
      cases failed
    | error e => exact ⟨rfl, rfl⟩

theorem loadReference (reference : Text) (base : Option Path) : FailsClean (loadReference reference base) := by
  intro w c e failed
  have probed : (c.probing w reference).files = c.files ∧ (c.probing w reference).indexes = c.indexes := by
    unfold probing
    split <;> exact ⟨rfl, rfl⟩
  rw [run_loadReference] at failed ⊢
  cases resolved : w.resolve reference base with
  | error e => exact probed
  | ok path =>
    rw [resolved] at failed
    obtain ⟨files, indexes⟩ := load path w _ e failed
    exact ⟨files.trans probed.1, indexes.trans probed.2⟩

/-- What is read off values beforehand adds nothing. -/
theorem after_lift {x : Except Error α} {next : α → Compile β} (rest : ∀ a, FailsClean (next a)) :
    FailsClean (liftM x >>= next) := by
  intro w c e failed
  cases x with
  | error e => exact ⟨rfl, rfl⟩
  | ok a => exact rest a w c e failed

/-- A step whose result is only wrapped up fails where the step itself does. -/
theorem wrapped {step : Compile α} {f : α → β} (clean : FailsClean step) :
    FailsClean (step >>= fun a => pure (f a)) := by
  intro w c e failed
  cases result : (run step w c).1 with
  | error e =>
    rw [run_bind_error _ result]
    exact clean w c e result
  | ok a =>
    rw [run_bind_ok _ result] at failed
    cases failed

theorem loadImport (file : SourceFile) (name : Text) : FailsClean (loadImport file name) := by
  refine after_lift fun table => ?_
  split
  · intro w c e failed
    cases failed
  next reference _ => exact (loadReference reference (some file.directory)).wrapped

end FailsClean

/-- A step that raises while the index of a file is being built. The index is asked for and that raises, which only its
building can do, and this is all of the step or a part of it, after parts that have succeeded. -/
inductive RaisesBuilding (w : Workspace) (file : SourceFile) : ∀ {α : Type}, Compile α → Compilation → Prop
  | index {c : Compilation} {e : Error} (failed : (run (indexDeclarations file) w c).1 = .error e) :
    RaisesBuilding w file (indexDeclarations file) c
  | first {α β : Type} {step : Compile α} {next : α → Compile β} {c : Compilation}
    (raises : RaisesBuilding w file step c) : RaisesBuilding w file (step >>= next) c
  | later {α β : Type} {step : Compile α} {next : α → Compile β} {c : Compilation} {a : α}
    (result : (run step w c).1 = .ok a) (raises : RaisesBuilding w file (next a) (run step w c).2) :
    RaisesBuilding w file (step >>= next) c

/-- The error ends the step, and there is no index for the file. -/
theorem RaisesBuilding.ends {w : Workspace} {file : SourceFile} {step : Compile α} {c : Compilation}
    (raises : RaisesBuilding w file step c) :
    (∃ e, (run step w c).1 = .error e) ∧ (run step w c).2.indexes.get? file.path = none := by
  induction raises with
  | @index c e failed =>
    refine ⟨⟨e, failed⟩, ?_⟩
    obtain ⟨index, ran⟩ | ⟨absent, after, -, kept, ⟨e, ran⟩ | ⟨index, ran⟩⟩ := indexDeclarations_cases w c file
    · rw [ran] at failed
      cases failed
    · rw [ran, kept, absent]
    · rw [ran] at failed
      cases failed
  | first raises ih =>
    obtain ⟨⟨e, failed⟩, absent⟩ := ih
    rw [run_bind_error _ failed]
    exact ⟨⟨e, rfl⟩, absent⟩
  | later result raises ih =>
    rw [run_bind_ok _ result]
    exact ih

/-! ### Later states -/

/-- The later of two states of a pass: paths are only appended to the loaded ones and never repeated, and every loaded
path keeps its file and every kept index stays. -/
structure Continues (c c' : Compilation) : Prop where
  nodup : c'.loadedPaths.Nodup
  appended : c.loadedPaths <+: c'.loadedPaths
  files : ∀ path file, c.files.get? path = some file → c'.files.get? path = some file
  indexes : ∀ path index, c.indexes.get? path = some index → c'.indexes.get? path = some index

theorem Continues.refl (c : Compilation) : Continues c c :=
  ⟨c.files.nodup, List.prefix_refl _, fun _ _ found => found, fun _ _ found => found⟩

theorem Continues.trans {c c' c'' : Compilation} (first : Continues c c') (second : Continues c' c'') :
    Continues c c'' where
  nodup := second.nodup
  appended := first.appended.trans second.appended
  files := fun path file found => second.files path file (first.files path file found)
  indexes := fun path index found => second.indexes path index (first.indexes path index found)

theorem Grows.continues {w : Workspace} {c c' : Compilation} (grows : Grows w c c') : Continues c c' := by
  obtain ⟨more, appended, -⟩ := grows.files
  have longer : c.files.entries <+: c'.files.entries := ⟨more, appended.symm⟩
  exact ⟨c'.files.nodup, longer.map Prod.fst, fun _ _ => OrderedMap.get?_of_entries_prefix longer,
    fun _ _ => OrderedMap.get?_of_entries_prefix grows.indexes⟩

/-- Every file is kept under its own path. -/
def Placed (c : Compilation) : Prop := ∀ path file, c.files.get? path = some file → file.path = path

theorem Grows.placed {w : Workspace} {c c' : Compilation} (grows : Grows w c c') (placed : Placed c) : Placed c' := by
  obtain ⟨more, appended, held⟩ := grows.files
  intro path file found
  have member := OrderedMap.mem_entries_of_get? found
  rw [appended] at member
  rcases List.mem_append.mp member with early | late
  · exact placed path file (OrderedMap.get?_of_mem_entries early)
  · exact (held _ late).1

/-! ### Indexes belong to loaded files -/

theorem get?_of_load {w : Workspace} {c : Compilation} {path : Path} {file : SourceFile}
    (success : (run (load path) w c).1 = .ok file) : (run (load path) w c).2.files.get? path = some file := by
  rw [run_load] at success ⊢
  cases cached : c.files.get? path with
  | some stored =>
    rw [cached] at success
    cases success
    exact cached
  | none =>
    rw [cached] at success
    cases read : w.read path with
    | error e =>
      rw [read] at success
      cases success
    | ok bytes =>
      rw [read] at success
      cases success
      exact OrderedMap.get?_insert_self _ _ _

/-- A file of the pass, which is kept under its path. -/
def Owns (c : Compilation) (file : SourceFile) : Prop := c.files.get? file.path = some file

theorem Owns.mem_loadedPaths {c : Compilation} {file : SourceFile} (owned : c.Owns file) : file.path ∈ c.loadedPaths :=
  OrderedMap.mem_keys_iff.mpr ⟨file, owned⟩

theorem Grows.owns {w : Workspace} {c c' : Compilation} (grows : Grows w c c') {file : SourceFile}
    (owned : c.Owns file) : c'.Owns file := grows.continues.files _ _ owned

theorem Placed.owns {c : Compilation} (placed : Placed c) {path : Path} {file : SourceFile}
    (found : c.files.get? path = some file) : c.Owns file := by
  rwa [Owns, placed path file found]

/-- A state in which every file is kept under its own path, every index under the path of a file, and what is declared
in an index stands in files that are kept. -/
structure Rooted (c : Compilation) : Prop where
  placed : Placed c
  indexed : ∀ path index, c.indexes.get? path = some index → path ∈ c.loadedPaths ∧ HoldsFiles c.Owns index

theorem Rooted.start : Rooted {} where
  placed := by simp [Placed]
  indexed := by simp

theorem Grows.rooted {w : Workspace} {c c' : Compilation} (grows : Grows w c c') (same : c'.indexes = c.indexes)
    (rooted : Rooted c) : Rooted c' := by
  refine ⟨grows.placed rooted.placed, fun path index found => ?_⟩
  rw [same] at found
  obtain ⟨loaded, owned⟩ := rooted.indexed path index found
  exact ⟨grows.continues.appended.subset loaded, fun name declaration entry => grows.owns (owned name declaration entry)⟩

/-- From a rooted state with `before`, a step leads to a rooted state, with `after` for its result. -/
def Roots (before : Compilation → Prop) (step : Compile α) (after : α → Compilation → Prop) : Prop :=
  ∀ w c, Rooted c → before c → Rooted (run step w c).2 ∧ ∀ a, (run step w c).1 = .ok a → after a (run step w c).2

/-- A step that every law of searches is about. -/
def Searches (step : Compile α) (good : α → Prop) : Prop :=
  ∀ {Obeys : ∀ {α : Type}, Compile α → (α → Prop) → Prop}, SearchLaw (fun _ => True) Obeys → Obeys step good

namespace Roots

variable {before : Compilation → Prop}

theorem bind {step : Compile α} {next : α → Compile β} {middle : α → Compilation → Prop}
    {after : β → Compilation → Prop} (first : Roots before step middle)
    (rest : ∀ a, Roots (middle a) (next a) after) : Roots before (step >>= next) after := by
  intro w c rooted holds
  obtain ⟨kept, good⟩ := first w c rooted holds
  cases result : (run step w c).1 with
  | error e =>
    rw [run_bind_error next result]
    exact ⟨kept, by simp⟩
  | ok a =>
    rw [run_bind_ok next result]
    exact rest a w _ kept (good a result)

theorem given {before' : Compilation → Prop} {step : Compile α} {after : α → Compilation → Prop}
    (roots : Roots before step after) (implied : ∀ c, before' c → before c) : Roots before' step after :=
  fun w c rooted holds => roots w c rooted (implied c holds)

theorem lift (x : Except Error α) : Roots before (liftM x) fun _ => before :=
  fun _ _ rooted holds => ⟨rooted, fun _ _ => holds⟩

theorem pure {a : α} {after : α → Compilation → Prop} (holds : ∀ c, before c → after a c) :
    Roots before (Pure.pure a) after := by
  intro w c rooted given
  refine ⟨rooted, fun b same => ?_⟩
  cases same
  exact holds c given

theorem raise (e : Error) {after : α → Compilation → Prop} : Roots before (throw e) after := by
  intro w c rooted _
  refine ⟨rooted, fun a impossible => ?_⟩
  cases impossible

theorem mapM {f : α → Compile β} (each : ∀ a, Roots before (f a) fun _ => before) (l : List α) :
    Roots before (l.mapM f) fun _ => before := by
  induction l with
  | nil => exact pure fun _ holds => holds
  | cons a l ih =>
    rw [List.mapM_cons]
    exact (each a).bind fun b => ih.bind fun bs => pure fun _ holds => holds

/-- A step that lets the state grow and touches no index leads from rooted states to rooted ones. -/
theorem of_moves {step : Compile α} {good good' : α → Prop} (grows : Moves Grows step good)
    (same : Moves (fun _ c c' => c'.indexes = c.indexes) step good') : Roots before step fun _ _ => True :=
  fun w c rooted _ => ⟨(grows w c).1.rooted (same w c).1 rooted, fun _ _ => trivial⟩

theorem of_searches {step : Compile α} {good : α → Prop} (searches : Searches step good) :
    Roots before step fun _ _ => True :=
  of_moves (searches grows_allowed.search_law) (searches keepsIndexes.search_law)

/-- A step that lets the state grow keeps a file of the pass. -/
theorem keep {step : Compile α} {file : SourceFile} {after : α → Compilation → Prop} {good : α → Prop}
    (roots : Roots (Owns · file) step after) (grows : Moves Grows step good) :
    Roots (Owns · file) step fun a c => c.Owns file ∧ after a c := by
  intro w c rooted owned
  obtain ⟨kept, holds⟩ := roots w c rooted owned
  exact ⟨kept, fun a result => ⟨(grows w c).1.owns owned, holds a result⟩⟩

theorem load (path : Path) : Roots before (load path) fun file c => c.Owns file := by
  intro w c rooted holds
  have moves : Roots before (Compilation.load path) fun _ _ => True :=
    of_moves (grows_allowed.load Grows.reading path) (keepsIndexes.load (fun _ _ => rfl) path)
  obtain ⟨kept, -⟩ := moves w c rooted holds
  exact ⟨kept, fun file success => kept.placed.owns (get?_of_load success)⟩

theorem loadReference (reference : Text) (base : Option Path) :
    Roots before (loadReference reference base) fun file c => c.Owns file := by
  intro w c rooted holds
  have probed : Rooted (c.probing w reference) :=
    (grows_allowed.probing w c reference).rooted (keepsIndexes.probing w c reference) rooted
  rw [run_loadReference]
  cases w.resolve reference base with
  | error e => exact ⟨probed, by simp⟩
  | ok path =>
    have loads : Roots (fun _ => True) (Compilation.load path) fun file c => c.Owns file := load path
    exact loads w _ probed trivial

theorem loadImport (file : SourceFile) (name : Text) :
    Roots before (loadImport file name) fun found c => ∀ next, found = some next → c.Owns next := by
  refine (lift file.namedImports).bind fun table => ?_
  split
  · exact pure (by simp)
  next reference _ =>
    refine (loadReference reference (some file.directory)).bind fun next => pure fun c owned other same => ?_
    exact Option.some.inj same ▸ owned

theorem searchBinding (name : Text) (bound : Nat) (seen : List Path) (file : SourceFile) :
    Roots (Owns · file) (searchBinding name bound seen file) fun found c =>
      ∀ owner declarator, found = some (owner, declarator) → c.Owns owner := by
  induction bound generalizing seen file with
  | zero => exact raise .unfinished
  | succ bound ih =>
    simp only [Compilation.searchBinding]
    split
    · exact pure (by simp)
    · refine (lift (file.binding? name)).bind fun found => ?_
      cases found with
      | some declarator =>
        refine pure fun c owned owner _ same => ?_
        cases same
        exact owned
      | none =>
        refine (loadImport file name).bind fun imported => ?_
        cases imported with
        | none => exact pure (by simp)
        | some next => exact (ih _ next).given fun c owned => owned next rfl

theorem resolveBinding (file : SourceFile) (name : Text) :
    Roots (Owns · file) (resolveBinding file name) fun found c =>
      ∀ owner declarator, found = some (owner, declarator) → c.Owns owner := by
  intro w c rooted owned
  rw [resolveBinding_settles w c file name (Nat.le_refl _)]
  exact searchBinding name _ [] file w c rooted owned

/-- The one step that keeps an index does so under the path of a file of the pass. -/
theorem indexDeclarations (file : SourceFile) :
    Roots (Owns · file) (indexDeclarations file) fun index c => c.Owns file ∧ HoldsFiles c.Owns index := by
  have rooting : Roots (Owns · file) (Compilation.indexDeclarations file) fun index c => HoldsFiles c.Owns index := by
    intro w c rooted owned
    have searched : Searches (buildIndex file) (HoldsFiles (· = file)) := fun law => law.buildIndex trivial rfl
    have searching : Roots (Owns · file) (buildIndex file) fun _ _ => True := of_searches searched
    have built := (searching w c rooted owned).1
    obtain ⟨grown, declares⟩ := searched grows_allowed.search_law w c
    have kept := grown.owns owned
    rw [run_indexDeclarations]
    cases cached : c.indexes.get? file.path with
    | some index =>
      refine ⟨rooted, fun stored same => ?_⟩
      cases same
      exact (rooted.indexed file.path index cached).2
    | none =>
      cases outcome : run (buildIndex file) w c with
      | mk result after =>
        rw [outcome] at built kept declares
        cases result with
        | error e => exact ⟨built, by simp⟩
        | ok index =>
          have own : HoldsFiles after.Owns index := by
            intro name declaration entry
            rw [declares index rfl name declaration entry]
            exact kept
          refine ⟨⟨built.placed, fun path stored found => ?_⟩, fun stored same => ?_⟩
          · simp only [indexing, OrderedMap.get?_insert] at found
            split at found
            next located =>
              cases found
              exact ⟨located ▸ kept.mem_loadedPaths, own⟩
            · exact built.indexed path stored found
          · cases same
            exact own
  exact rooting.keep (growth_law.indexDeclarations trivial)

theorem resolveKey (file : SourceFile) (schema : Text) (keyNode : Node) :
    Roots (Owns · file) (resolveKey file schema keyNode) fun declaration c => c.Owns declaration.file := by
  unfold Compilation.resolveKey
  dsimp only
  split
  · have never : Roots (Owns · file) (fail schema file .keyNotString : Compile PUnit) fun _ _ => False := raise _
    exact never.bind fun _ _ _ _ impossible => False.elim impossible
  · refine (lift keyNode.stringValue).bind fun key => (lift (ModuleTable.find file)).bind fun table => ?_
    split
    next table =>
      split
      next target _ =>
        refine (indexDeclarations file).bind fun index => ?_
        split
        next declaration found => exact pure fun c holds => holds.2 target declaration found
        · refine (loadImport file target).bind fun imported => ?_
          split
          next next =>
            refine ((indexDeclarations next).bind fun index => ?_).given fun c owned => owned next rfl
            split
            next declaration found => exact pure fun c holds => holds.2 target declaration found
            · exact raise _
          · exact raise _
      · exact raise _
    · exact raise _

theorem resolveDeclaration (file : SourceFile) (schema : Text) :
    Roots (Owns · file) (resolveDeclaration file schema) fun declaration c => c.Owns declaration.file := by
  refine (indexDeclarations file).bind fun index => ?_
  split
  next declaration found => exact pure fun c holds => holds.2 schema declaration found
  · refine (lift (importKey? file schema)).bind fun key => ?_
    split
    next keyNode => exact (resolveKey file schema keyNode).given fun c holds => holds.1
    · exact raise _

theorem renderEntry (entry : SourceFile) (aliases : AliasTable) (wanted : Text × Text) :
    Roots (Owns · entry) (renderEntry entry aliases wanted) fun _ c => c.Owns entry := by
  have rooting : Roots (Owns · entry) (Compilation.renderEntry entry aliases wanted) fun _ _ => True := by
    refine (resolveDeclaration entry wanted.1).bind fun declaration => ?_
    refine (of_searches fun law => law.report _).bind fun _ => ?_
    exact lift _
  intro w c rooted owned
  obtain ⟨kept, still⟩ := rooting.keep (growth_law.renderEntry trivial aliases wanted) w c rooted owned
  exact ⟨kept, fun lines result => (still lines result).1⟩

theorem generate (reference : Text) (request : Request) : Roots before (generate reference request) fun _ _ => True := by
  refine (loadReference reference none).bind fun entry => ?_
  exact (mapM (renderEntry entry _) request.entries).bind fun _ => pure fun _ _ => trivial

end Roots

end SchemaTypes.Compilation
