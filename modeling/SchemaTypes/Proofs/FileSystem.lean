import SchemaTypes.Workspace

/-!
Reading in a file system. The outcome is fixed by the location that a path leads to and by the entry there. Two file
systems that have the same kind of entry at every location lead each path to the same place, so they can differ in
nothing but the bytes that a successful reading returns.
-/

namespace SchemaTypes
namespace FileSystem

theorem read_eq (fs : FileSystem) (cwd : Location) (path : Path) :
    fs.read cwd path =
      match refusal? path with
      | some e => .error e
      | none =>
        match fs.locate cwd path with
        | .error fault => .error (.access fault path)
        | .ok location =>
          match fs.lookup location with
          | none => .error (.access .notFound path)
          | some .directory => .error (.access .isDirectory path)
          | some (.file bytes) => .ok bytes := by
  unfold read
  cases refusal? path with
  | some e => rfl
  | none =>
    simp only
    cases fs.locate cwd path with
    | error fault => rfl
    | ok location => rcases fs.lookup location with _ | _ | _ <;> rfl

/-- A successful reading finds its bytes in the file at the location of the path. -/
theorem lookup_of_read_eq_ok {fs : FileSystem} {cwd : Location} {path : Path} {bytes : ByteArray}
    (success : fs.read cwd path = .ok bytes) :
    ∃ location, fs.locate cwd path = .ok location ∧ fs.lookup location = some (.file bytes) := by
  rw [read_eq] at success
  split at success
  · cases success
  · split at success
    · cases success
    next location located =>
      split at success
      · cases success
      · cases success
      next found =>
        cases success
        exact ⟨location, located, found⟩

/-- Without `..` every component of a path is put on in turn. -/
theorem walk_eq_append {fs : FileSystem} {parts : List Text} {start place : Location}
    (plain : ([0x2E, 0x2E] : Text) ∉ parts) (walked : fs.walk start parts = .ok place) : place = start ++ parts := by
  induction parts generalizing start with
  | nil =>
    rw [List.append_nil]
    exact (Except.ok.inj walked).symm
  | cons part rest ih =>
    have here : part ≠ ([0x2E, 0x2E] : Text) := fun same => plain (same ▸ List.mem_cons_self)
    unfold walk at walked
    split at walked
    · cases walked
    · cases walked
    · rw [if_neg here] at walked
      have further := ih (fun member => plain (List.mem_cons_of_mem part member)) walked
      rw [further, List.append_assoc, List.singleton_append]

/-- The same locations hold files, the same hold directories, and the same hold nothing. -/
def SameLayout (fs fs' : FileSystem) : Prop :=
  ∀ location, (fs'.lookup location).map Entry.isFile = (fs.lookup location).map Entry.isFile

theorem SameLayout.of_entries {fs fs' : FileSystem}
    (same : fs'.entries.entries.map (fun entry => (entry.1, entry.2.isFile)) =
      fs.entries.entries.map fun entry => (entry.1, entry.2.isFile)) : SameLayout fs fs' := by
  have marked : ∀ (entries : List (Location × Entry)) (location : Location),
      ((entries.find? (·.1 = location)).map Prod.snd).map Entry.isFile =
        ((entries.map fun entry => (entry.1, entry.2.isFile)).find? (·.1 = location)).map Prod.snd := by
    intro entries location
    rw [List.find?_map, Option.map_map, Option.map_map]
    rfl
  intro location
  unfold lookup
  split
  · rfl
  · unfold OrderedMap.get?
    rw [marked, marked, same]

theorem SameLayout.walk {fs fs' : FileSystem} (same : SameLayout fs fs') (start : Location) (parts : List Text) :
    fs'.walk start parts = fs.walk start parts := by
  induction parts generalizing start with
  | nil => rfl
  | cons part rest ih =>
    have here := same start
    simp only [FileSystem.walk]
    rcases found : fs.lookup start with _ | _ | _ <;> rcases found' : fs'.lookup start with _ | _ | _ <;>
      simp_all [Entry.isFile]

theorem SameLayout.locate {fs fs' : FileSystem} (same : SameLayout fs fs') (cwd : Location) (path : Path) :
    fs'.locate cwd path = fs.locate cwd path := same.walk _ path.parts

theorem SameLayout.exists? {fs fs' : FileSystem} (same : SameLayout fs fs') (cwd : Location) (path : Path) :
    fs'.exists? cwd path = fs.exists? cwd path := by
  have present : (fs'.entry? cwd path).isSome = (fs.entry? cwd path).isSome := by
    unfold entry?
    rw [same.locate]
    cases fs.locate cwd path with
    | error fault => rfl
    | ok location => simpa using congrArg Option.isSome (same location)
  unfold FileSystem.exists?
  rw [present]

/-- A reading that fails in one of two file systems of the same layout fails in the other, and by the same error. -/
theorem SameLayout.read_error {fs fs' : FileSystem} (same : SameLayout fs fs') {cwd : Location} {path : Path}
    {e : Error} (failed : fs.read cwd path = .error e) : fs'.read cwd path = .error e := by
  rw [read_eq] at failed ⊢
  rw [same.locate]
  cases coded : refusal? path with
  | some refused => simpa only [coded] using failed
  | none =>
    simp only [coded] at failed ⊢
    cases located : fs.locate cwd path with
    | error fault => simpa only [located] using failed
    | ok location =>
      have here := same location
      simp only [located] at failed ⊢
      rcases found : fs.lookup location with _ | _ | _ <;> rcases found' : fs'.lookup location with _ | _ | _ <;>
        simp_all [Entry.isFile]

end FileSystem

/-- A workspace that has just these texts in its working directory. -/
def Workspace.ofSources (sources : List (Text × Text)) : Workspace where
  files := sources.foldl (fun files (name, text) => (files.write ["w"] (.ofText name) text).1)
    (FileSystem.empty.put ["w"] .directory)
  directory := ⟨.slash, ["w"]⟩
  rooted := rfl
  roots := {}

end SchemaTypes
