import SchemaTypes.Proofs.Growth
import SchemaTypes.Proofs.PathTexts
import SchemaTypes.Proofs.WatchedDirectories
import SchemaTypes.Watch.Watcher

/-!
Which changes a watcher notices. Every file that a generation loads stands at a path that a reference resolves to, in a
directory that is watched, and such a path is read back from its text. Whether a change of the file is handed on is then
decided by the suffix of the path alone, in its exact spelling.
-/

namespace SchemaTypes

namespace Compilation

/-! ### Loaded paths are resolved ones -/

/-- Every path that was loaded on the way from one state to another is one that a reference resolves to. -/
def LoadsResolved (w : Workspace) (c c' : Compilation) : Prop :=
  ∀ path ∈ c'.loadedPaths, path ∈ c.loadedPaths ∨ ∃ reference base, w.resolve reference base = .ok path

theorem loadsResolved_allowed : Allows LoadsResolved where
  refl := fun _ _ _ loaded => .inl loaded
  trans := by
    intro w c c' c'' first second path loaded
    rcases second path loaded with earlier | resolved
    · exact first path earlier
    · exact .inr resolved
  reporting := fun _ _ _ _ loaded => .inl loaded
  consulting := fun _ _ _ _ loaded => .inl loaded
  reading := by
    intro w c reference base path bytes resolved absent _ queried loaded
    have keys : loadedPaths (c.reading path (w.parse path bytes)) = c.loadedPaths ++ [path] :=
      OrderedMap.keys_insert_of_get?_eq_none _ absent
    rw [keys] at loaded
    rcases List.mem_append.mp loaded with earlier | last
    · exact .inl earlier
    · exact .inr ⟨reference, base, List.mem_singleton.mp last ▸ resolved⟩

theorem loadsResolved_law : StepLaw (fun _ => True) (Moves LoadsResolved) where
  toSearchLaw := loadsResolved_allowed.search_law
  remember := by
    intro file _ built w c
    refine ⟨?_, fun _ _ _ _ _ => trivial⟩
    have searched := (built w c).1
    obtain ⟨index, ran⟩ | ⟨-, after, rfl, -, ⟨e, ran⟩ | ⟨index, ran⟩⟩ := indexDeclarations_cases w c file
    · rw [ran]
      exact loadsResolved_allowed.refl w c
    · rw [ran]
      exact searched
    · rw [ran]
      exact searched

theorem resolved_of_loaded {w : Workspace} {reference : Text} {request : Request} {path : Path}
    (loaded : path ∈ (run (generate reference request) w {}).2.loadedPaths) :
    ∃ reference base, w.resolve reference base = .ok path := by
  rcases (loadsResolved_law.generate reference request w {}).1 path loaded with impossible | resolved
  · cases impossible
  · exact resolved

/-- A loaded path is read back from its text. -/
theorem ofText_toText_of_loaded {w : Workspace} {reference : Text} {request : Request} {path : Path}
    (loaded : path ∈ (run (generate reference request) w {}).2.loadedPaths) : Path.ofText path.toText = path := by
  obtain ⟨reference, base, resolved⟩ := resolved_of_loaded loaded
  exact Path.ofText_toText (Workspace.resolve_isPlain resolved).absolute (Workspace.resolve_isSpelled resolved)

end Compilation

/-! ### Calls of the callback -/

theorem Watch.mem_changedSources {changes : List Text} {path : Path} :
    path ∈ changedSources changes ↔ (∃ text ∈ changes, Path.ofText text = path) ∧ path.isSource = true := by
  rw [changedSources, mem_distinct, List.mem_filter, List.mem_map]

namespace Watcher

open Watch

/-- The paths that the callback is called with. -/
def Action.paths? : Action → Option (List Path)
  | notify paths => some paths
  | _ => none

/-- What the callback is called with, one call after the other. -/
def calledWith (actions : List Action) : List (List Path) := actions.filterMap Action.paths?

theorem calledWith_dispatch (fails : Callback) (call : Nat) (paths : List Path) :
    calledWith (dispatch fails call paths) = [paths] := by
  unfold dispatch
  split <;> rfl

/-- The calls that batches of changes lead to, each by the paths it is made with. -/
def callsFor (batches : List (List Text)) : List (List Path) := (batches.map changedSources).filter (!·.isEmpty)

theorem callsFor_cons_of_none {changes : List Text} (none : changedSources changes = []) (rest : List (List Text)) :
    callsFor (changes :: rest) = callsFor rest := by
  rw [callsFor, List.map_cons, none]
  exact List.filter_cons_of_neg (by simp)

theorem callsFor_cons_of_some {changes : List Text} (some : changedSources changes ≠ []) (rest : List (List Text)) :
    callsFor (changes :: rest) = changedSources changes :: callsFor rest := by
  rw [callsFor, List.map_cons]
  exact List.filter_cons_of_pos (by simpa using some)

/-- What is done in calls, the first of which has a given number. -/
def dispatchAll (fails : Callback) (first : Nat) (calls : List (List Path)) : List Action :=
  (calls.zipIdx first).flatMap fun call => dispatch fails call.2 call.1

theorem dispatchAll_cons (fails : Callback) (first : Nat) (paths : List Path) (calls : List (List Path)) :
    dispatchAll fails first (paths :: calls) = dispatch fails first paths ++ dispatchAll fails (first + 1) calls := by
  rw [dispatchAll, List.zipIdx_cons, List.flatMap_cons]
  rfl

theorem dispatchAll_append (fails : Callback) (first : Nat) (calls more : List (List Path)) :
    dispatchAll fails first (calls ++ more) =
      dispatchAll fails first calls ++ dispatchAll fails (first + calls.length) more := by
  rw [dispatchAll, List.zipIdx_append, List.flatMap_append]
  rfl

theorem calledWith_dispatchAll (fails : Callback) (first : Nat) (calls : List (List Path)) :
    calledWith (dispatchAll fails first calls) = calls := by
  induction calls generalizing first with
  | nil => rfl
  | cons paths calls ih =>
    rw [dispatchAll_cons, calledWith, List.filterMap_append]
    exact congr (congrArg _ (calledWith_dispatch fails first paths)) (ih _)

/-- A running task calls back once for every batch with a source in it, whether or not a call has failed before. -/
theorem consume_changes (fails : Callback) (w : Watcher) (batches : List (List Text)) :
    consume fails w (batches.map .changes) =
      ({ w with calls := w.calls + (callsFor batches).length, queue := [] },
        dispatchAll fails w.calls (callsFor batches)) := by
  induction batches generalizing w with
  | nil => rfl
  | cons changes rest ih =>
    rw [List.map_cons, consume]
    split
    next none => rw [ih, callsFor_cons_of_none none]
    next some =>
      have counted : w.calls + 1 + (callsFor rest).length = w.calls + ((callsFor rest).length + 1) := by omega
      rw [ih, callsFor_cons_of_some some, dispatchAll_cons, List.length_cons, ← counted]

/-- Batches wait in the order in which they are brought. -/
theorem foldl_enqueue (batches : List (List Text)) (w : Watcher) :
    batches.foldl (fun w changes => w.enqueue (.changes changes)) w = { w with queue := w.queue ++ batches.map .changes } := by
  induction batches generalizing w with
  | nil => simp
  | cons changes rest ih => rw [List.foldl_cons, ih]; simp [enqueue]

/-- What a new watcher over some directories does when it is started and batches of changes are brought to it. -/
def startAndBring (fails : Callback) (directories : List Path) (batches : List (List Text)) : List Action :=
  let started := start { directories }
  started.2 ++ (settle fails (batches.foldl (fun w changes => w.enqueue (.changes changes)) started.1)).2

theorem calledWith_startAndBring (fails : Callback) (directories : List Path) (batches : List (List Text)) :
    calledWith (startAndBring fails directories batches) = callsFor batches := by
  have taken := congrArg Prod.snd
    (consume_changes fails { directories, task := .running, queue := batches.map .changes } batches)
  rw [startAndBring, foldl_enqueue]
  exact (congrArg calledWith taken).trans (calledWith_dispatchAll fails _ _)

/-- Changes of loaded files. The directory of every file that a generation loads is among those to watch. If a batch of
changes has the path of the file, the watcher calls back with the sources of the batch, and the path is one of them, if it
has one of the watched suffixes in their exact spelling. A path with any other suffix may be loaded just as well, but no
call ever has it. -/
theorem calledWith_loaded {w : Workspace} {reference : Text} {request : Request} {path : Path}
    (loaded : path ∈ (Compilation.run (Compilation.generate reference request) w {}).2.loadedPaths) (fails : Callback)
    {batches : List (List Text)} {changes : List Text} (brought : changes ∈ batches) (changed : path.toText ∈ changes) :
    let directories := directoriesOf (Compilation.run (Compilation.generate reference request) w {}).2.loadedPaths
    let calls := calledWith (startAndBring fails directories batches)
    path.parent ∈ directories ∧
      (path.isSource = true → changedSources changes ∈ calls ∧ path ∈ changedSources changes) ∧
      (path.isSource = false → ∀ paths ∈ calls, path ∉ paths) := by
  intro directories calls
  have called : calls = (batches.map changedSources).filter (!·.isEmpty) := calledWith_startAndBring ..
  refine ⟨mem_directoriesOf.mpr ⟨path, loaded, rfl⟩, fun source => ?_, fun other paths call member => ?_⟩
  · have noticed : path ∈ changedSources changes :=
      mem_changedSources.mpr ⟨⟨path.toText, changed, Compilation.ofText_toText_of_loaded loaded⟩, source⟩
    refine ⟨?_, noticed⟩
    rw [called, List.mem_filter]
    exact ⟨List.mem_map_of_mem brought, by simpa using List.ne_nil_of_mem noticed⟩
  · rw [called, List.mem_filter] at call
    obtain ⟨batch, -, rfl⟩ := List.mem_map.mp call.1
    have source := (mem_changedSources.mp member).2
    rw [other] at source
    cases source

/-- One entry file, under a name with a suffix. -/
def entrySource (name : Text) : Workspace := .ofSources [(name, "const A=Type.Object(\x7b\x7d)")]

set_option maxRecDepth 100000 in
theorem calledWith_loaded_entrySource :
    let calls := calledWith (startAndBring (fun _ _ => true) [.ofText "/w"] [["/w/b.md"], ["/w/a.ts", "/w/a.md"]])
    changedSources ["/w/a.ts", "/w/a.md"] ∈ calls ∧ .ofText "/w/a.ts" ∈ changedSources ["/w/a.ts", "/w/a.md"] := by
  have loaded : .ofText "/w/a.ts" ∈ (Compilation.run (Compilation.generate "a.ts" (.ofList [("A", "T")]))
      (entrySource "a.ts") {}).2.loadedPaths := by
    decide +kernel
  have brought : (["/w/a.ts", "/w/a.md"] : List Text) ∈ ([["/w/b.md"], ["/w/a.ts", "/w/a.md"]] : List (List Text)) := by
    decide +kernel
  exact (calledWith_loaded loaded (fun _ _ => true) brought (by decide +kernel)).2.1 (by decide +kernel)

set_option maxRecDepth 100000 in
/-- A suffix in capital letters. The file is loaded and types are generated from it, but its changes are passed over. -/
theorem not_calledWith_capitals :
    let generated := Compilation.run (Compilation.generate "a.TS" (.ofList [("A", "T")])) (entrySource "a.TS") {}
    generated.1.isOk = true ∧ generated.2.loadedPaths = [.ofText "/w/a.TS"] ∧
      calledWith (startAndBring (fun _ _ => false) (directoriesOf generated.2.loadedPaths) [["/w/a.TS"]]) = [] := by
  decide +kernel

end Watcher
end SchemaTypes
