import Mathlib.Data.List.TakeWhile
import SchemaTypes.Job
import SchemaTypes.Proofs.FileSystem
import SchemaTypes.Proofs.OrderedMap
import SchemaTypes.Proofs.Outcomes

/-!
What a generation leaves at its output path. The missing directories above the path are made first: they take the place of
nothing but nothing, so no file changes by that, and a path that had no file gets one only if the text is written to it.
Writing opens the file and so empties it, and a text with a surrogate is refused only then. Such a text is the one way in
which a failed generation changes its output.
-/

namespace SchemaTypes
namespace FileSystem

/-! ### More directories -/

/-- A file system with some directories more, where there was nothing. -/
def Widens (fs fs' : FileSystem) : Prop :=
  ∀ location, fs'.lookup location = fs.lookup location ∨
    fs.lookup location = none ∧ fs'.lookup location = some .directory

namespace Widens

theorem refl (fs : FileSystem) : Widens fs fs := fun _ => .inl rfl

theorem trans {fs fs' fs'' : FileSystem} (first : Widens fs fs') (second : Widens fs' fs'') : Widens fs fs'' := by
  intro location
  rcases second location with same | ⟨absent, made⟩
  · rw [same]
    exact first location
  · rcases first location with same | ⟨_, made'⟩
    · exact .inr ⟨same ▸ absent, made⟩
    · rw [absent] at made'
      cases made'

theorem insertNew (entries : OrderedMap Location Entry) (place : Location) :
    Widens ⟨entries⟩ ⟨entries.insertNew place .directory⟩ := by
  intro location
  unfold lookup
  split
  · exact .inl rfl
  · dsimp only
    unfold OrderedMap.insertNew
    split
    · exact .inl rfl
    next absent =>
      rw [OrderedMap.get?_insert]
      split
      next same =>
        subst same
        exact .inr ⟨by simpa [OrderedMap.contains] using absent, rfl⟩
      · exact .inl rfl

theorem foldl_insertNew (places : List Location) (entries : OrderedMap Location Entry) :
    Widens ⟨entries⟩ ⟨places.foldl (fun (m : OrderedMap Location Entry) place =>
      if place.isEmpty then m else m.insertNew place .directory) entries⟩ := by
  induction places generalizing entries with
  | nil => exact refl _
  | cons place rest ih =>
    rw [List.foldl_cons]
    split
    · exact ih entries
    · exact (insertNew entries place).trans (ih _)

end Widens

theorem lookup_put_self (fs : FileSystem) {location : Location} (entry : Entry) (inside : location ≠ []) :
    (fs.put location entry).lookup location = some entry := by
  have deep : location.isEmpty = false := List.isEmpty_eq_false_iff.mpr inside
  simp only [put, lookup, deep, Bool.false_eq_true, if_false, OrderedMap.get?_insert_self]

theorem lookup_put_of_ne (fs : FileSystem) {location other : Location} (entry : Entry) (different : location ≠ other) :
    (fs.put location entry).lookup other = fs.lookup other ∨
      fs.lookup other = none ∧ (fs.put location entry).lookup other = some .directory := by
  have above := Widens.foldl_insertNew ((List.range location.length).map location.take) fs.entries other
  unfold put
  dsimp only
  split
  · exact above
  · unfold lookup at above ⊢
    rw [OrderedMap.get?_insert_of_ne _ entry different]
    exact above

theorem Widens.put_directory {fs : FileSystem} {location : Location} (absent : fs.lookup location = none) :
    Widens fs (fs.put location .directory) := by
  intro other
  by_cases same : location = other
  · subst same
    have inside : location ≠ [] := by
      rintro rfl
      cases absent
    exact .inr ⟨absent, fs.lookup_put_self .directory inside⟩
  · exact fs.lookup_put_of_ne .directory same

/-! ### Walking on -/

/-- A walk over directories goes the same way as long as they stay directories. -/
theorem walk_of_directories {fs fs' : FileSystem}
    (kept : ∀ location, fs.lookup location = some .directory → fs'.lookup location = some .directory) {start : Location}
    {parts : List Text} {place : Location} (walked : fs.walk start parts = .ok place) :
    fs'.walk start parts = .ok place := by
  induction parts generalizing start with
  | nil => exact walked
  | cons part rest ih =>
    unfold walk at walked ⊢
    split at walked
    · cases walked
    · cases walked
    next here =>
      simp only [kept start here]
      exact ih walked

theorem Widens.locate {fs fs' : FileSystem} (wider : Widens fs fs') {cwd : Location} {path : Path} {location : Location}
    (located : fs.locate cwd path = .ok location) : fs'.locate cwd path = .ok location := by
  refine walk_of_directories (fun place directory => ?_) located
  rcases wider place with same | ⟨absent, _⟩
  · exact same.trans directory
  · rw [directory] at absent
    cases absent

/-- The last step of a walk starts in a directory. -/
theorem directory_of_walk_concat {fs : FileSystem} {start place : Location} {front : List Text} {last : Text}
    (walked : fs.walk start (front ++ [last]) = .ok place) :
    ∃ before, fs.walk start front = .ok before ∧ fs.lookup before = some .directory := by
  induction front generalizing start with
  | nil =>
    rw [List.nil_append] at walked
    unfold walk at walked
    split at walked
    · cases walked
    · cases walked
    next here => exact ⟨start, rfl, here⟩
  | cons part rest ih =>
    rw [List.cons_append] at walked
    unfold walk at walked
    split at walked
    · cases walked
    · cases walked
    next here =>
      obtain ⟨before, further, directory⟩ := ih walked
      refine ⟨before, ?_, directory⟩
      rw [walk, here]
      exact further

theorem exists_locate_of_entry? {fs : FileSystem} {cwd : Location} {path : Path} {entry : Entry}
    (present : fs.entry? cwd path = some entry) : ∃ location, fs.locate cwd path = .ok location := by
  unfold entry? at present
  split at present
  next location located => exact ⟨location, located⟩
  · cases present

theorem entry?_parent {fs : FileSystem} {cwd location : Location} {path : Path} (below : path.parts ≠ [])
    (located : fs.locate cwd path = .ok location) : fs.entry? cwd path.parent = some .directory := by
  unfold locate at located
  rw [← List.dropLast_concat_getLast below] at located
  obtain ⟨before, walked, directory⟩ := directory_of_walk_concat located
  have here : fs.locate cwd path.parent = .ok before := walked
  unfold entry?
  rw [here]
  exact directory

/-! ### Making directories -/

theorem makeOne_eq_ok {fs made : FileSystem} {cwd : Location} {path : Path} (success : fs.makeOne cwd path = .ok made) :
    Widens fs made := by
  obtain ⟨location, located, success⟩ := bind_eq_ok_iff.mp success
  split at success
  · cases success
  next absent =>
    cases success
    exact .put_directory absent

theorem makeOne_eq_notFound {fs : FileSystem} {cwd : Location} {path : Path}
    (failed : fs.makeOne cwd path = .error .notFound) : fs.entry? cwd path = none := by
  unfold makeOne at failed
  cases located : fs.locate cwd path with
  | error fault =>
    unfold entry?
    rw [located]
  | ok location =>
    rw [located] at failed
    cases found : fs.lookup location with
    | none => simp [found, bind, Except.bind, pure, Except.pure] at failed
    | some entry => simp [found, bind, Except.bind, throw, throwThe, MonadExceptOf.throw] at failed

theorem tolerate_cases (fs : FileSystem) (cwd : Location) (path : Path) (fault : AccessFault) :
    fs.tolerate cwd path fault = .ok fs ∨
      fs.tolerate cwd path fault = .error (.access fault path) ∧ fs.entry? cwd path ≠ some .directory := by
  unfold tolerate
  split
  · exact .inl rfl
  next other => exact .inr ⟨rfl, other⟩

/-- Making a directory adds nothing but directories, and if it fails there is no directory at its path. -/
theorem makeWith_spec {cwd : Location} {depth : Nat} {fs : FileSystem} {path : Path} (room : path.parts.length < depth) :
    Widens fs (makeWith cwd depth fs path).1 ∧
      ((makeWith cwd depth fs path).2 = .ok () ∨ entry? (makeWith cwd depth fs path).1 cwd path ≠ some .directory) := by
  induction depth generalizing path with
  | zero => omega
  | succ depth ih =>
    unfold makeWith
    split
    next made success => exact ⟨makeOne_eq_ok success, .inl rfl⟩
    next missing =>
      split
      next top =>
        rw [makeOne_eq_notFound missing]
        exact ⟨.refl fs, .inr (by simp)⟩
      next below =>
        have parts : path.parts ≠ [] := by
          intro none
          exact below (by rw [Path.parent, none, List.dropLast_nil, ← none])
        have shorter : path.parent.parts.length < depth := by
          have positive := List.length_pos_iff.mpr parts
          rw [Path.parent, List.length_dropLast]
          omega
        obtain ⟨wider, directory⟩ := ih shorter
        split
        next made e failed =>
          rw [failed] at wider directory
          refine ⟨wider, .inr fun present => ?_⟩
          -- a directory at the path would stand in one at the parent
          obtain ⟨location, located⟩ := exists_locate_of_entry? present
          rcases directory with ended | absent
          · cases ended
          · exact absent (entry?_parent parts located)
        next made success =>
          rw [success] at wider
          split
          next done finished => exact ⟨wider.trans (makeOne_eq_ok finished), .inl rfl⟩
          next fault failed =>
            rcases tolerate_cases made cwd path fault with there | ⟨refused, absent⟩
            · rw [there]
              exact ⟨wider, .inl rfl⟩
            · rw [refused]
              exact ⟨wider, .inr absent⟩
    next fault other failed =>
      rcases tolerate_cases fs cwd path fault with there | ⟨refused, absent⟩
      · rw [there]
        exact ⟨.refl fs, .inl rfl⟩
      · rw [refused]
        exact ⟨.refl fs, .inr absent⟩

theorem makeDirectory_spec (fs : FileSystem) (cwd : Location) (path : Path) :
    Widens fs (fs.makeDirectory cwd path).1 ∧
      ((fs.makeDirectory cwd path).2 = .ok () ∨ (fs.makeDirectory cwd path).1 = fs ∨
        entry? (fs.makeDirectory cwd path).1 cwd path ≠ some .directory) := by
  unfold makeDirectory
  split
  · exact ⟨.refl fs, .inr (.inl rfl)⟩
  · obtain ⟨wider, directory⟩ := @makeWith_spec cwd _ fs path (Nat.lt_succ_self path.parts.length)
    exact ⟨wider, directory.imp_right .inr⟩

/-! ### Reading back -/

theorem read_toOption_of_locate_error {fs : FileSystem} {cwd : Location} {path : Path} {fault : AccessFault}
    (failed : fs.locate cwd path = .error fault) : (fs.read cwd path).toOption = none := by
  rw [read_eq, failed]
  cases refusal? path <;> rfl

/-- More directories leave what is read on a path that led somewhere. -/
theorem Widens.read_of_locate {fs fs' : FileSystem} (wider : Widens fs fs') {cwd location : Location} {path : Path}
    (located : fs.locate cwd path = .ok location) :
    (fs'.read cwd path).toOption = (fs.read cwd path).toOption := by
  simp only [read_eq, located, wider.locate located]
  rcases wider location with same | ⟨absent, made⟩
  · rw [same]
  · rw [absent, made]
    cases refusal? path <;> rfl

/-- What cannot be read with more directories could not be read before. -/
theorem Widens.unread {fs fs' : FileSystem} (wider : Widens fs fs') {cwd : Location} {path : Path}
    (failed : (fs'.read cwd path).toOption = none) : (fs.read cwd path).toOption = none := by
  cases located : fs.locate cwd path with
  | error fault => exact read_toOption_of_locate_error located
  | ok location => exact (wider.read_of_locate located).symm.trans failed

/-- A failed making of the directory above a path leaves what is read there. -/
theorem read_makeDirectory_error {fs : FileSystem} {cwd : Location} {path : Path} {e : Error}
    (failed : (fs.makeDirectory cwd path.parent).2 = .error e) :
    ((fs.makeDirectory cwd path.parent).1.read cwd path).toOption = (fs.read cwd path).toOption := by
  obtain ⟨wider, ended | same | absent⟩ := makeDirectory_spec fs cwd path.parent
  · rw [failed] at ended
    cases ended
  · rw [same]
  · cases located : fs.locate cwd path with
    | ok location => exact wider.read_of_locate located
    | error fault =>
      have parts : path.parts ≠ [] := by
        intro none
        rw [locate, none] at located
        cases located
      rw [read_toOption_of_locate_error located]
      cases found : (fs.makeDirectory cwd path.parent).1.read cwd path with
      | error e => rfl
      | ok bytes =>
        obtain ⟨location, reached, _⟩ := lookup_of_read_eq_ok found
        exact absurd (entry?_parent parts reached) absent

/-- A file put at the location of a path is what is read there. -/
theorem read_put_file {fs : FileSystem} {cwd location : Location} {path : Path} {bytes : ByteArray}
    (coded : refusal? path = none) (located : fs.locate cwd path = .ok location)
    (free : fs.lookup location ≠ some .directory) :
    (fs.put location (.file bytes)).read cwd path = .ok bytes := by
  have inside : location ≠ [] := by
    rintro rfl
    exact free rfl
  -- the location is no directory, so the way to it does not lead through it
  have reached : (fs.put location (.file bytes)).locate cwd path = .ok location := by
    refine walk_of_directories (fun place directory => ?_) located
    have different : location ≠ place := by
      rintro rfl
      exact free directory
    rcases fs.lookup_put_of_ne (.file bytes) different with same | ⟨absent, _⟩
    · exact same.trans directory
    · rw [directory] at absent
      cases absent
  simp only [read_eq, coded, reached, fs.lookup_put_self (.file bytes) inside]

/-- Writing is refused where there is nothing to read, or it leaves the encoded text, or no text at all. -/
theorem write_cases (fs : FileSystem) (cwd : Location) (path : Path) (text : Text) :
    (∃ e, fs.write cwd path text = (fs, .error e) ∧ (fs.read cwd path).toOption = none) ∨
      (∃ bytes, Utf8.encode text = .ok bytes ∧ (fs.write cwd path text).2 = .ok () ∧
        (fs.write cwd path text).1.read cwd path = .ok bytes.toByteArray) ∨
      ∃ run, Utf8.encode text = .error run ∧ (fs.write cwd path text).2 = .error (.unencodable run) ∧
        (fs.write cwd path text).1.read cwd path = .ok .empty := by
  cases coded : refusal? path with
  | some e =>
    refine .inl ⟨e, by rw [write, coded], ?_⟩
    rw [read_eq, coded]
    rfl
  | none =>
    cases located : fs.locate cwd path with
    | error fault =>
      exact .inl ⟨.access fault path, by simp only [write, coded, located], read_toOption_of_locate_error located⟩
    | ok location =>
      by_cases directory : fs.lookup location = some .directory
      · refine .inl ⟨.access .isDirectory path, by simp only [write, coded, located, directory], ?_⟩
        simp only [read_eq, coded, located, directory]
        rfl
      · cases encoded : Utf8.encode text with
        | ok bytes =>
          have written : fs.write cwd path text = (fs.put location (.file bytes.toByteArray), .ok ()) := by
            simp only [write, coded, located, encoded]
          rw [written]
          exact .inr (.inl ⟨bytes, rfl, rfl, read_put_file coded located directory⟩)
        | error run =>
          have emptied : fs.write cwd path text = (fs.put location (.file .empty), .error (.unencodable run)) := by
            simp only [write, coded, located, encoded]
          rw [emptied]
          exact .inr (.inr ⟨run, rfl, rfl, read_put_file coded located directory⟩)

end FileSystem

/-! ### Surrogates -/

theorem Utf8.firstSurrogates?_eq_none_iff (text : Text) :
    Utf8.firstSurrogates? text = none ↔ text.hasSurrogate = false := by
  have front : text.drop (text.takeWhile (!·.isSurrogate)).length = text.dropWhile (!·.isSurrogate) := by
    have whole := congrArg (List.drop (text.takeWhile (!·.isSurrogate)).length)
      (List.takeWhile_append_dropWhile (p := (!CodePoint.isSurrogate ·)) (l := text))
    rw [List.drop_left] at whole
    exact whole.symm
  have found : Utf8.firstSurrogates? text = none ↔ text.dropWhile (!·.isSurrogate) = [] := by
    simp only [Utf8.firstSurrogates?, front]
    split <;> simp_all
  rw [found, List.dropWhile_eq_nil_iff, Text.hasSurrogate, List.any_eq_false]
  simp

theorem Utf8.encode_eq_ok_iff (text : Text) : (∃ bytes, Utf8.encode text = .ok bytes) ↔ text.hasSurrogate = false := by
  rw [← Utf8.firstSurrogates?_eq_none_iff, Utf8.encode]
  cases Utf8.firstSurrogates? text <;> simp

/-! ### The output of a job -/

namespace Session

/-- A session that has run a pass: it has shown the records of the reports, and no file has changed. -/
def compiled (s : Session) (c : Compilation) : Session :=
  { s with
    shown := s.shown ++ c.events.map fun event => .logged (Log.ofEvent event)
    consulted := c.consulted ++ s.consulted }

theorem run_compile {α : Type} (step : Compile α) (s : Session) :
    (compile step).run s =
      (Compilation.run step s.workspace {}, s.compiled (Compilation.run step s.workspace {}).2) := by
  have logged (events : List CompilationEvent) (s : Session) :
      (events.forM fun event => log (Log.ofEvent event)).run s =
        ((), { s with shown := s.shown ++ events.map fun event => .logged (Log.ofEvent event) }) := by
    induction events generalizing s with
    | nil => rw [List.map_nil, List.append_nil]; rfl
    | cons event rest ih =>
      rw [List.map_cons, List.append_cons]
      exact ih { s with shown := s.shown ++ [.logged (Log.ofEvent event)] }
  exact congrArg (fun ran : Unit × Session => (Compilation.run step s.workspace {}, ran.2))
    (logged _ { s with consulted := (Compilation.run step s.workspace {}).2.consulted ++ s.consulted })

/-- Nothing is written once the directory above could not be made. -/
theorem run_writeFile_error {path : Path} {s : Session} {made : FileSystem} {e : Error} (text : Text)
    (outcome : s.workspace.files.makeDirectory s.workspace.location path.parent = (made, .error e)) :
    (writeFile path text).run s =
      (.error e, ⟨{ s.workspace with files := made }, s.shown, path :: path.parent :: s.consulted⟩) := by
  simp [writeFile, change, setFiles, consult, outcome]
  rfl

theorem run_writeFile_ok {path : Path} {s : Session} {made : FileSystem} (text : Text)
    (outcome : s.workspace.files.makeDirectory s.workspace.location path.parent = (made, .ok ())) :
    (writeFile path text).run s =
      ((made.write s.workspace.location path text).2,
        ⟨{ s.workspace with files := (made.write s.workspace.location path text).1 }, s.shown,
          path :: path.parent :: s.consulted⟩) := by
  simp [writeFile, change, setFiles, consult, outcome]
  rfl

/-- What is read at a path after a text was to be written to it. -/
theorem writeFile_cases (path : Path) (text : Text) (s : Session) :
    (∃ e, ((writeFile path text).run s).1 = .error e ∧
        (((writeFile path text).run s).2.workspace.read path).toOption = (s.workspace.read path).toOption) ∨
      (∃ bytes, Utf8.encode text = .ok bytes ∧ ((writeFile path text).run s).1 = .ok () ∧
        ((writeFile path text).run s).2.workspace.read path = .ok bytes.toByteArray) ∨
      ∃ run, Utf8.encode text = .error run ∧ ((writeFile path text).run s).1 = .error (.unencodable run) ∧
        ((writeFile path text).run s).2.workspace.read path = .ok .empty := by
  obtain ⟨wider, _⟩ := s.workspace.files.makeDirectory_spec s.workspace.location path.parent
  cases outcome : s.workspace.files.makeDirectory s.workspace.location path.parent with
  | mk made result =>
    rw [outcome] at wider
    cases result with
    | error e =>
      have unchanged := FileSystem.read_makeDirectory_error (congrArg Prod.snd outcome)
      rw [outcome] at unchanged
      rw [run_writeFile_error text outcome]
      exact .inl ⟨e, rfl, unchanged⟩
    | ok _ =>
      rw [run_writeFile_ok text outcome]
      rcases made.write_cases s.workspace.location path text with ⟨e, refused, absent⟩ | written | emptied
      · refine .inl ⟨e, congrArg Prod.snd refused, ?_⟩
        have before : (s.workspace.read path).toOption = none := wider.unread absent
        have after : ((made.write s.workspace.location path text).1.read s.workspace.location path).toOption = none := by
          rw [refused]
          exact absent
        exact after.trans before.symm
      · exact .inr (.inl written)
      · exact .inr (.inr emptied)

end Session

namespace Job

open Session

/-- How a job may end. It fails with its generation, or the types are printed, or they are written and a line says so;
if they cannot be written, that is all. -/
inductive Emits (job : Job) (s : Session) : Except Error (List Path) × Session → Prop
  | failed {e : Error} {c : Compilation}
    (generated : Compilation.run (Compilation.generate job.entry job.request) s.workspace {} = (.error e, c)) :
    Emits job s (.error e, s.compiled c)
  | printed {types : Text} {c : Compilation}
    (generated : Compilation.run (Compilation.generate job.entry job.request) s.workspace {} = (.ok types, c))
    (goal : job.output = none) : Emits job s (.ok c.loadedPaths, ((print types).run (s.compiled c)).2)
  | unwritten {types : Text} {c : Compilation} {output : Path} {e : Error} {after : Session}
    (generated : Compilation.run (Compilation.generate job.entry job.request) s.workspace {} = (.ok types, c))
    (goal : job.output = some output)
    (refused : (writeFile output (types ++ "\n")).run (s.compiled c) = (.error e, after)) : Emits job s (.error e, after)
  | written {types line : Text} {c : Compilation} {output : Path} {after : Session}
    (generated : Compilation.run (Compilation.generate job.entry job.request) s.workspace {} = (.ok types, c))
    (goal : job.output = some output)
    (done : (writeFile output (types ++ "\n")).run (s.compiled c) = (.ok (), after)) :
    Emits job s (.ok c.loadedPaths, ((print line).run after).2)

theorem emits_run (job : Job) (s : Session) : Emits job s (job.emit.run s) := by
  rw [emit, StateT.run_bind, run_compile]
  cases generated : Compilation.run (Compilation.generate job.entry job.request) s.workspace {} with
  | mk result c =>
    cases result with
    | error e => exact .failed generated
    | ok types =>
      cases goal : job.output with
      | none => exact .printed generated goal
      | some output =>
        change Emits job s (StateT.run (writeFile output (types ++ "\n") >>= _) (s.compiled c))
        rw [StateT.run_bind]
        cases delivered : (writeFile output (types ++ "\n")).run (s.compiled c) with
        | mk result after =>
          cases result with
          | error e => exact .unwritten generated goal delivered
          | ok _ => exact .written generated goal delivered

theorem run_emit_error {job : Job} {s : Session} {e : Error}
    (failed : (Compilation.run (Compilation.generate job.entry job.request) s.workspace {}).1 = .error e) :
    (job.emit.run s).1 = .error e ∧ (job.emit.run s).2.workspace = s.workspace := by
  have ends := job.emits_run s
  generalize job.emit.run s = outcome at ends ⊢
  cases ends with
  | failed generated =>
    cases (congrArg Prod.fst generated).symm.trans failed
    exact ⟨rfl, rfl⟩
  | printed generated _ => cases (congrArg Prod.fst generated).symm.trans failed
  | unwritten generated _ _ => cases (congrArg Prod.fst generated).symm.trans failed
  | written generated _ _ => cases (congrArg Prod.fst generated).symm.trans failed

/-- Text that was generated for a file is written there, and the outcome of the writing decides. -/
theorem run_emit_ok {entry : Text} {request : Request} {output : Path} {s : Session} {types : Text}
    (generated : (Compilation.run (Compilation.generate entry request) s.workspace {}).1 = .ok types) :
    ∃ before, before.workspace = s.workspace ∧
      ((emit ⟨entry, request, some output⟩).run s).2.workspace =
        ((writeFile output (types ++ "\n")).run before).2.workspace ∧
      ∀ e, ((emit ⟨entry, request, some output⟩).run s).1 = .error e ↔
        ((writeFile output (types ++ "\n")).run before).1 = .error e := by
  have ends := emits_run ⟨entry, request, some output⟩ s
  generalize (emit ⟨entry, request, some output⟩).run s = outcome at ends ⊢
  cases ends with
  | failed failed => cases (congrArg Prod.fst failed).symm.trans generated
  | printed _ goal => cases goal
  | @unwritten _ c _ _ _ made goal refused =>
    cases (congrArg Prod.fst made).symm.trans generated
    cases goal
    refine ⟨s.compiled c, rfl, ?_⟩
    rw [refused]
    exact ⟨rfl, fun e => by simp⟩
  | @written _ _ c _ _ made goal done =>
    cases (congrArg Prod.fst made).symm.trans generated
    cases goal
    refine ⟨s.compiled c, rfl, ?_⟩
    rw [done]
    exact ⟨rfl, fun e => by simp⟩

/-- What a job leaves at its output path. If it succeeds, the file there holds the encoded text and one line feed. If it
fails, the path has what it had before, with one exception: a text with a surrogate is refused when the file is open
already, and the file is left empty. Such a text never succeeds. -/
theorem emit_output (entry : Text) (request : Request) (output : Path) (s : Session) :
    let generated := (Compilation.run (Compilation.generate entry request) s.workspace {}).1
    let result := ((emit ⟨entry, request, some output⟩).run s).1
    let after := ((emit ⟨entry, request, some output⟩).run s).2.workspace
    (∀ loaded, result = .ok loaded →
      ∃ types bytes, generated = .ok types ∧ Utf8.encode (types ++ "\n") = .ok bytes ∧
        after.read output = .ok bytes.toByteArray) ∧
    (∀ e, result = .error e →
      (after.read output).toOption = (s.workspace.read output).toOption ∨
      ∃ types run, generated = .ok types ∧ types.hasSurrogate = true ∧ Utf8.encode (types ++ "\n") = .error run ∧
        e = .unencodable run ∧ after.read output = .ok .empty) ∧
    (∀ types, generated = .ok types → types.hasSurrogate = true → ∃ e, result = .error e) := by
  intro generated result after
  cases compiled : generated with
  | error e =>
    obtain ⟨failed, unchanged⟩ := @run_emit_error ⟨entry, request, some output⟩ s e compiled
    refine ⟨fun loaded success => ?_, fun e' _ => .inl ?_, fun types impossible => ?_⟩
    · cases failed.symm.trans success
    · exact congrArg (fun w : Workspace => (w.read output).toOption) unchanged
    · cases impossible
  | ok types =>
    obtain ⟨before, same, kept, failing⟩ := @run_emit_ok entry request output s types compiled
    have left : after.read output = ((writeFile output (types ++ "\n")).run before).2.workspace.read output :=
      congrArg (fun w : Workspace => w.read output) kept
    have spoiled : (types ++ Text.ofString "\n").hasSurrogate = types.hasSurrogate := by
      rw [Text.hasSurrogate, List.any_append, Text.hasSurrogate]
      exact Bool.or_false _
    rcases writeFile_cases output (types ++ "\n") before with ⟨e, failed, unchanged⟩ | ⟨bytes, encoded, done, written⟩ |
      ⟨run, encoded, failed, emptied⟩
    · have raised : result = .error e := (failing e).mpr failed
      refine ⟨fun loaded success => ?_, fun e' _ => .inl ?_, fun _ _ _ => ⟨e, raised⟩⟩
      · cases raised.symm.trans success
      · rw [left, unchanged, same]
    · refine ⟨fun loaded _ => ⟨types, bytes, rfl, encoded, left.trans written⟩, fun e raised => ?_,
        fun types' generated' surrogate => ?_⟩
      · cases done.symm.trans ((failing e).mp raised)
      · cases generated'
        have clean := (Utf8.encode_eq_ok_iff _).mp ⟨bytes, encoded⟩
        rw [spoiled, surrogate] at clean
        cases clean
    · have raised : result = .error (.unencodable run) := (failing _).mpr failed
      have surrogate : types.hasSurrogate = true := by
        rw [← spoiled, ← Bool.not_eq_false, ← Utf8.encode_eq_ok_iff]
        rintro ⟨bytes, impossible⟩
        cases encoded.symm.trans impossible
      refine ⟨fun loaded success => ?_, fun e raised' => .inr ⟨types, run, rfl, surrogate, encoded, ?_, ?_⟩,
        fun _ _ _ => ⟨_, raised⟩⟩
      · cases raised.symm.trans success
      · exact Except.error.inj (raised'.symm.trans raised)
      · exact left.trans emptied

/-- A field name with half of a surrogate pair, and an older output. -/
def loneSurrogate : Session where
  workspace := .ofSources [("a.ts", "const A=Type.Object(\x7b'\\uD83D':Type.Null()\x7d)"), ("out.ts", "old")]

set_option maxRecDepth 100000 in
theorem emit_empties_loneSurrogate :
    (((emit ⟨"a.ts", .ofList [("A", "T")], some (.ofText "out.ts")⟩).run loneSurrogate).1.isOk = false ∧
      (loneSurrogate.workspace.read (.ofText "out.ts")).toOption.map ByteArray.size = some 3 ∧
      ((((emit ⟨"a.ts", .ofList [("A", "T")], some (.ofText "out.ts")⟩).run loneSurrogate).2.workspace.read
        (.ofText "out.ts")).toOption.map ByteArray.size) = some 0) := by
  decide +kernel

end Job

end SchemaTypes
