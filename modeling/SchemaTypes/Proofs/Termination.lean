import SchemaTypes.Proofs.Bounds

/-!
Indexing a file ends on every import graph. Whatever the files import from each other and however their compositions
refer to themselves, the index is built or an error of the workspace is raised; no binding is entered while it is being
followed, so compositions are not nested deeper than there are bindings in reach.
-/

namespace SchemaTypes.Compilation

open Syntax

theorem Ensures.indexDeclarator {w : Workspace} {shown : Path → Except Error SourceFile} (file : SourceFile)
    (index : DeclarationIndex) (declared : Text × Declarator) :
    Ensures w shown (indexDeclarator (Compilation.valueLiterals file) file index declared) fun _ => True := by
  obtain ⟨name, declarator⟩ := declared
  simp only [Compilation.indexDeclarator]
  cases declarator.value? with
  | none => exact .pure trivial
  | some value =>
    refine .bind (.valueLiterals file name value) fun objects _ => ?_
    split <;> exact .pure trivial

theorem Ensures.buildIndex {w : Workspace} {shown : Path → Except Error SourceFile} (file : SourceFile) :
    Ensures w shown (buildIndex file) fun _ => True := by
  refine .bind (.lift (fun _ _ => trivial) (.declarators file)) fun named _ => ?_
  exact .foldlM (fun index declared _ => .indexDeclarator file index declared) _

/-- A folded step may be replaced by one that runs alike wherever the view is the same. -/
theorem run_foldlM_congr {α β : Type} {w : Workspace} {shown : Path → Except Error SourceFile}
    {step step' : β → α → Compile β} {l : List α}
    (keeps : ∀ b, ∀ a ∈ l, Ensures w shown (step' b a) fun _ => True)
    (alike : ∀ b, ∀ a ∈ l, ∀ c, view w c = shown → run (step b a) w c = run (step' b a) w c)
    (b : β) {c : Compilation} (same : view w c = shown) :
    run (l.foldlM step b) w c = run (l.foldlM step' b) w c := by
  induction l generalizing b c with
  | nil => rfl
  | cons a l ih =>
    rw [List.foldlM_cons, List.foldlM_cons, run_bind, run_bind, alike b a List.mem_cons_self c same]
    have kept := (keeps b a List.mem_cons_self c same).1
    cases outcome : run (step' b a) w c with
    | mk result after =>
      rw [outcome] at kept
      cases result with
      | error e => rfl
      | ok b' =>
        exact ih (fun b a' member => keeps b a' (List.mem_cons_of_mem a member))
          (fun b a' member => alike b a' (List.mem_cons_of_mem a member)) b' kept

theorem mem_reachableKeys_of_declarator {w : Workspace} {c : Compilation} {file : SourceFile}
    {named : List (Text × Declarator)} {declared : Text × Declarator} (listed : file.declarators = .ok named)
    (member : declared ∈ named) : (file.path, declared.1) ∈ reachableKeys w c file := by
  obtain ⟨last, bound⟩ := SourceFile.exists_binding listed member
  exact ⟨file, last, .refl, rfl, bound⟩

/-- Followed from a declarator of a file, a value is never nested deeper than there are bindings in reach. -/
theorem guarded_declarator {w : Workspace} {shown : Path → Except Error SourceFile} {c : Compilation}
    (same : view w c = shown) {file : SourceFile} {name : Text} (bound : (file.path, name) ∈ reachableKeys w c file)
    (value : Node) :
    Ensures w shown (guardedLiterals (reachableKeys w c file) (reachableKeys w c file).ncard [(file.path, name)] file
      value) fun _ => True := by
  subst same
  refine .guardedLiterals (reachableKeys_finite w c file) (fun owner name declarator reached bound => ?_) .refl
    (List.nodup_singleton _) (fun key member => ?_) ?_ value
  · exact ⟨owner, declarator, reached, rfl, bound⟩
  · exact List.mem_singleton.mp member ▸ bound
  · rw [List.length_singleton]
    omega

/-- The literals of a declarator do not change when every binding is checked before it is entered. -/
theorem valueLiterals_eq_guarded {w : Workspace} {c c' : Compilation} (same : view w c' = view w c) {file : SourceFile}
    {name : Text} (bound : (file.path, name) ∈ reachableKeys w c file) (value : Node) :
    run (guardedLiterals (reachableKeys w c file) (reachableKeys w c file).ncard [(file.path, name)] file value) w c' =
      run (valueLiterals file name value) w c' := by
  have finished := (same ▸ guarded_declarator rfl bound value :
    Ensures w (view w c') (guardedLiterals _ _ [(file.path, name)] file value) fun _ => True).finished
  have unguarded := (guardedLiterals_approximates _ _ _ file value w c').resolve_left finished
  rw [unguarded]
  have enough : (reachableKeys w c file).ncard ≤ max (reachableKeys w c file).ncard (nestingBound w c' file) :=
    Nat.le_max_left _ _
  rw [valueLiterals_settles w c' file name value (Nat.le_max_right (reachableKeys w c file).ncard _)]
  exact (objectLiterals_approximates enough _ file value w c').resolve_left (unguarded ▸ finished)

/-- Indexing ends in every state of a pass: with an index, or with an error of resolving a reference, of reading a file
or of decoding a text. The bindings in reach along imports are finitely many. Building the index runs exactly as it does
when each entry into a binding is checked: those being followed are distinct, they are in reach, and they are no more
than there are. As no search is given up, every check succeeds. -/
theorem indexDeclarations_terminates (w : Workspace) (c : Compilation) (file : SourceFile) :
    ((∃ index, (run (indexDeclarations file) w c).1 = .ok index) ∨
      ∃ e, (run (indexDeclarations file) w c).1 = .error e ∧ w.Raises e ∧ e ≠ .unfinished) ∧
    (reachableKeys w c file).Finite ∧
    run (buildIndexWith (fun name value => guardedLiterals (reachableKeys w c file) (reachableKeys w c file).ncard
      [(file.path, name)] file value) file) w c = run (buildIndex file) w c ∧
    (run (buildIndex file) w c).1 ≠ .error .unfinished := by
  have built : Ensures w (view w c) (buildIndex file) fun _ => True := .buildIndex file
  refine ⟨?_, reachableKeys_finite w c file, ?_, built.finished⟩
  · rw [run_indexDeclarations]
    cases c.indexes.get? file.path with
    | some index => exact .inl ⟨index, rfl⟩
    | none =>
      obtain ⟨-, outcome⟩ := built c rfl
      cases ran : run (buildIndex file) w c with
      | mk result after =>
        rw [ran] at outcome
        rcases outcome with ⟨index, rfl, -⟩ | ⟨e, rfl, raised⟩
        · exact .inl ⟨index, rfl⟩
        · exact .inr ⟨e, rfl, raised, raised.ne_unfinished⟩
  · unfold buildIndex buildIndexWith
    cases listed : file.declarators with
    | error e => rfl
    | ok named =>
      refine run_foldlM_congr (fun index declared _ => .indexDeclarator file index declared)
        (fun index declared member c' same => ?_) OrderedMap.empty (rfl : view w c = view w c)
      obtain ⟨name, declarator⟩ := declared
      simp only [indexDeclarator]
      cases declarator.value? with
      | none => rfl
      | some value =>
        simp only [run_bind, valueLiterals_eq_guarded same (mem_reachableKeys_of_declarator listed member)]

end SchemaTypes.Compilation
