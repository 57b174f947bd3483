import SchemaTypes.Proofs.Horizon

/-!
The bounds of the two searches are never reached. A search with a smaller bound does what one with a larger bound does,
unless it gives up; and neither the chain of imports nor the nesting of compositions outgrows the files that a pass can
come to. So the outcome of a search does not depend on its bound.
-/

namespace SchemaTypes.Compilation

open Syntax

variable {α β : Type}

/-- One step gives up, or it does what another one does. -/
def Approximates (step step' : Compile α) : Prop :=
  ∀ w c, (run step w c).1 = .error .unfinished ∨ run step w c = run step' w c

namespace Approximates

theorem refl (step : Compile α) : Approximates step step := fun _ _ => .inr rfl

theorem unfinished (step : Compile α) : Approximates (throw .unfinished) step := fun _ _ => .inl rfl

theorem bind {step step' : Compile α} {next next' : α → Compile β} (first : Approximates step step')
    (rest : ∀ a, Approximates (next a) (next' a)) : Approximates (step >>= next) (step' >>= next') := by
  intro w c
  rw [run_bind, run_bind]
  rcases first w c with gaveUp | same
  · cases outcome : run step w c with
    | mk result after =>
      rw [outcome] at gaveUp
      simp only at gaveUp
      subst gaveUp
      exact .inl rfl
  · rw [← same]
    cases run step w c with
    | mk result after =>
      cases result with
      | error e => exact .inr rfl
      | ok a => exact rest a w after

theorem mapM {f f' : α → Compile β} (each : ∀ a, Approximates (f a) (f' a)) (l : List α) :
    Approximates (l.mapM f) (l.mapM f') := by
  induction l with
  | nil => exact refl _
  | cons a l ih =>
    rw [List.mapM_cons, List.mapM_cons]
    exact bind (each a) fun b => bind ih fun bs => refl _

end Approximates

theorem Ensures.finished {w : Workspace} {c : Compilation} {step : Compile α} {good : α → Prop}
    (ensured : Ensures w (view w c) step good) : (run step w c).1 ≠ .error .unfinished := by
  intro gaveUp
  obtain ⟨-, ⟨a, result, -⟩ | ⟨e, result, raised⟩⟩ := ensured c rfl
  · rw [gaveUp] at result
    cases result
  · rw [gaveUp] at result
    cases result
    exact raised.ne_unfinished rfl

/-! ### Chains of imports -/

theorem searchBinding_approximates (name : Text) {bound larger : Nat} (le : bound ≤ larger) (seen : List Path)
    (file : SourceFile) : Approximates (searchBinding name bound seen file) (searchBinding name larger seen file) := by
  induction bound generalizing larger seen file with
  | zero => exact .unfinished _
  | succ bound ih =>
    obtain ⟨larger, rfl⟩ : ∃ n, larger = n + 1 := ⟨larger - 1, by omega⟩
    simp only [searchBinding]
    split
    · exact .refl _
    · refine .bind (.refl _) fun found => ?_
      cases found with
      | some declarator => exact .refl _
      | none =>
        refine .bind (.refl _) fun imported => ?_
        cases imported with
        | none => exact .refl _
        | some next => exact ih (by omega) _ next

/-- A binding as it is found from a file: in a file reached along imports, which binds the name. -/
def FoundFrom (w : Workspace) (shown : Path → Except Error SourceFile) (file : SourceFile) (name : Text)
    (found : Option (SourceFile × Declarator)) : Prop :=
  ∀ owner declarator, found = some (owner, declarator) →
    Reaches w shown file owner ∧ owner.binding? name = .ok (some declarator)

/-- The files visited are distinct, so a search ends while its bound exceeds the number of paths not visited yet. -/
theorem Ensures.searchBinding {w : Workspace} {shown : Path → Except Error SourceFile} (paths : Finset Path)
    (closed : ∀ file next, Imports w shown file next → next.path ∈ paths) (name : Text) {bound : Nat}
    {seen : List Path} {file : SourceFile} (inside : file.path ∈ paths)
    (room : (paths.filter (· ∉ seen)).card < bound) :
    Ensures w shown (searchBinding name bound seen file) (FoundFrom w shown file name) := by
  induction bound generalizing seen file with
  | zero => omega
  | succ bound ih =>
    simp only [Compilation.searchBinding]
    split
    · exact .pure (by simp [FoundFrom])
    next fresh =>
      refine .bind (.lift (fun _ same => same) (.binding? file name)) fun found bound => ?_
      cases found with
      | some declarator =>
        refine .pure fun owner actual same => ?_
        cases same
        exact ⟨.refl, bound⟩
      | none =>
        refine .bind (.loadImport file name) fun imported result => ?_
        cases imported with
        | none => exact .pure (by simp [FoundFrom])
        | some next =>
          have linked : Imports w shown file next := ⟨name, result⟩
          have fewer : (paths.filter (· ∉ file.path :: seen)).card < (paths.filter (· ∉ seen)).card := by
            apply Finset.card_lt_card
            refine ⟨fun path member => ?_, fun subset => ?_⟩
            · simp only [Finset.mem_filter, List.mem_cons, not_or] at member ⊢
              exact ⟨member.1, member.2.2⟩
            · have visited := subset (Finset.mem_filter.mpr ⟨inside, fresh⟩)
              simp at visited
          refine (ih (closed file next linked) (by omega)).weaken fun found reached owner declarator same => ?_
          obtain ⟨further, bound⟩ := reached owner declarator same
          exact ⟨.head linked further, bound⟩

theorem mem_paths_of_imports {w : Workspace} {c : Compilation} {start file next : SourceFile}
    (linked : Imports w (view w c) file next) : next.path ∈ ((horizon w c start).map (·.path)).toFinset := by
  obtain ⟨reference, path, resolved, shown⟩ := linked.resolved
  have member : next ∈ horizon w c start := mem_horizon_of_view (Workspace.resolve_isPlain resolved) shown
  exact List.mem_toFinset.mpr (List.mem_map.mpr ⟨next, member, rfl⟩)

theorem searchBinding_ensures (w : Workspace) (c : Compilation) (file : SourceFile) (name : Text) {bound : Nat}
    (enough : chainBound w c ≤ bound) :
    Ensures w (view w c) (searchBinding name bound [] file) (FoundFrom w (view w c) file name) := by
  have inside : file.path ∈ ((horizon w c file).map (·.path)).toFinset := by simp [horizon]
  have closed : ∀ importer next, Imports w (view w c) importer next →
      next.path ∈ ((horizon w c file).map (·.path)).toFinset := by
    intro importer next linked
    exact mem_paths_of_imports linked
  apply Ensures.searchBinding _ closed name inside
  have counted := length_horizon w c file
  calc
    (((horizon w c file).map (·.path)).toFinset.filter (· ∉ [])).card
        ≤ ((horizon w c file).map (·.path)).toFinset.card := Finset.card_filter_le _ _
    _ ≤ ((horizon w c file).map (·.path)).length := List.toFinset_card_le _
    _ = (horizon w c file).length := List.length_map _
    _ < bound := by omega

/-- From its bound on, a larger one changes nothing. -/
theorem resolveBinding_settles (w : Workspace) (c : Compilation) (file : SourceFile) (name : Text) {bound : Nat}
    (enough : chainBound w c ≤ bound) :
    run (resolveBinding file name) w c = run (searchBinding name bound [] file) w c := by
  rw [run_resolveBinding]
  have finished := (searchBinding_ensures w c file name (Nat.le_refl (chainBound w c))).finished
  exact (searchBinding_approximates name enough [] file w c).resolve_left finished

theorem Ensures.resolveBinding {w : Workspace} {shown : Path → Except Error SourceFile} (file : SourceFile)
    (name : Text) : Ensures w shown (resolveBinding file name) (FoundFrom w shown file name) := by
  intro c same
  subst same
  rw [run_resolveBinding]
  exact searchBinding_ensures w c file name (Nat.le_refl _) c rfl

/-! ### Nested compositions -/

theorem memberLiterals_approximates {follow follow' : Follow}
    (each : ∀ active file value, Approximates (follow active file value) (follow' active file value))
    (active : List BindingKey) (file : SourceFile) (member : Node) :
    Approximates (memberLiterals follow active file member) (memberLiterals follow' active file member) := by
  unfold memberLiterals
  refine .bind (.refl _) fun shape => ?_
  split
  · exact .refl _
  · split
    · refine .bind (.refl _) fun name => .bind (.refl _) fun found => ?_
      split
      · exact .refl _
      · split
        · exact .refl _
        · split
          · exact .refl _
          · exact each _ _ _
    · exact .refl _

theorem literalsWith_approximates {follow follow' : Follow}
    (each : ∀ active file value, Approximates (follow active file value) (follow' active file value))
    (active : List BindingKey) (file : SourceFile) (expression : Node) :
    Approximates (literalsWith follow active file expression) (literalsWith follow' active file expression) := by
  unfold literalsWith
  refine .bind (.refl _) fun shape => ?_
  split
  · exact .refl _
  · exact .bind (.mapM (memberLiterals_approximates each active file) _) fun _ => .refl _
  · exact .refl _

theorem objectLiterals_approximates {depth larger : Nat} (le : depth ≤ larger) (active : List BindingKey)
    (file : SourceFile) (expression : Node) :
    Approximates (objectLiterals depth active file expression) (objectLiterals larger active file expression) := by
  induction depth generalizing larger active file expression with
  | zero => exact .unfinished _
  | succ depth ih =>
    obtain ⟨larger, rfl⟩ : ∃ n, larger = n + 1 := ⟨larger - 1, by omega⟩
    exact literalsWith_approximates (ih (by omega)) active file expression

/-- An expression of a file is followed to the end if every binding that its members lead to is. -/
theorem Ensures.literalsWith {w : Workspace} {shown : Path → Except Error SourceFile} {follow : Follow}
    {active : List BindingKey} {file : SourceFile}
    (each : ∀ owner name declarator value, Reaches w shown file owner →
      owner.binding? name = .ok (some declarator) → (owner.path, name) ∉ active →
      Ensures w shown (follow ((owner.path, name) :: active) owner value) fun _ => True)
    (expression : Node) : Ensures w shown (literalsWith follow active file expression) fun _ => True := by
  have member (node : Node) : Ensures w shown (memberLiterals follow active file node) fun _ => True := by
    unfold memberLiterals
    refine .bind (.lift (fun _ same => same) (.shapeOfNode node)) fun shape _ => ?_
    split
    · exact .pure trivial
    · split
      · refine .bind (.lift (fun _ same => same) (.text node)) fun name _ => ?_
        refine .bind (.resolveBinding file name) fun found reached => ?_
        split
        · exact .pure trivial
        next owner declarator =>
          obtain ⟨along, bound⟩ := reached owner declarator rfl
          split
          · exact .pure trivial
          next value _ =>
            split
            · exact .pure trivial
            next fresh => exact each owner name declarator value along bound fresh
      · exact .pure trivial
  unfold Compilation.literalsWith
  refine .bind (.lift (fun _ same => same) (.shapeOfNode expression)) fun shape _ => ?_
  split
  · exact .pure trivial
  · exact .bind (.mapM fun node _ => member node) fun _ _ => .pure trivial
  · exact .pure trivial

open Classical in
/-- Follow an expression down to a depth, and give up where the bindings being followed repeat or leave a set. -/
noncomputable def guardedLiterals (keys : Set BindingKey) : Nat → Follow
  | 0 => fun _ _ _ => throw .unfinished
  | depth + 1 => fun active file expression =>
    if active.Nodup ∧ ∀ key ∈ active, key ∈ keys then
      literalsWith (guardedLiterals keys depth) active file expression
    else throw .unfinished

theorem guardedLiterals_approximates (keys : Set BindingKey) (depth : Nat) (active : List BindingKey)
    (file : SourceFile) (expression : Node) :
    Approximates (guardedLiterals keys depth active file expression)
      (objectLiterals depth active file expression) := by
  induction depth generalizing active file expression with
  | zero => exact .unfinished _
  | succ depth ih =>
    unfold guardedLiterals
    split
    · exact literalsWith_approximates ih active file expression
    · exact .unfinished _

/-- Distinct members of a finite set are not more than it has. -/
theorem length_le_ncard {keys : Set BindingKey} (finite : keys.Finite) {active : List BindingKey}
    (distinct : active.Nodup) (inside : ∀ key ∈ active, key ∈ keys) : active.length ≤ keys.ncard := by
  classical
  have subset : (active.toFinset : Set BindingKey) ⊆ keys := fun key member => inside key (by simpa using member)
  calc
    active.length = active.toFinset.card := (List.toFinset_card_of_nodup distinct).symm
    _ = (active.toFinset : Set BindingKey).ncard := (Set.ncard_coe_finset _).symm
    _ ≤ keys.ncard := Set.ncard_le_ncard subset finite

/-- The bindings being followed stay distinct and inside a set that holds every binding in reach, so following ends
before it is nested deeper than the set has members. -/
theorem Ensures.guardedLiterals {w : Workspace} {shown : Path → Except Error SourceFile} {keys : Set BindingKey}
    (finite : keys.Finite) {start : SourceFile}
    (closed : ∀ owner name declarator, Reaches w shown start owner → owner.binding? name = .ok (some declarator) →
      (owner.path, name) ∈ keys)
    {depth : Nat} {active : List BindingKey} {file : SourceFile} (reached : Reaches w shown start file)
    (distinct : active.Nodup) (inside : ∀ key ∈ active, key ∈ keys) (room : keys.ncard < depth + active.length)
    (expression : Node) : Ensures w shown (guardedLiterals keys depth active file expression) fun _ => True := by
  induction depth generalizing active file expression with
  | zero =>
    have few := length_le_ncard finite distinct inside
    omega
  | succ depth ih =>
    unfold Compilation.guardedLiterals
    rw [if_pos ⟨distinct, inside⟩]
    refine .literalsWith (fun owner name declarator value along bound fresh => ?_) expression
    have far := reached.trans along
    refine ih far (List.nodup_cons.mpr ⟨fresh, distinct⟩) (fun key member => ?_) ?_ value
    · rcases List.mem_cons.mp member with rfl | old
      · exact closed owner name declarator far bound
      · exact inside key old
    · rw [List.length_cons]
      omega

/-- A name need not be bound in the file it is followed from, so it is put in with the bindings in reach. -/
theorem guardedLiterals_ensures (w : Workspace) (c : Compilation) (file : SourceFile) (name : Text) (value : Node) :
    Ensures w (view w c)
      (guardedLiterals (insert (file.path, name) (reachableKeys w c file)) (nestingBound w c file)
        [(file.path, name)] file value) fun _ => True := by
  have finite := reachableKeys_finite w c file
  refine .guardedLiterals (finite.insert _) (fun owner name declarator reached bound => ?_) .refl
    (List.nodup_singleton _) (fun key member => ?_) ?_ value
  · exact .inr ⟨owner, declarator, reached, rfl, bound⟩
  · exact .inl (List.mem_singleton.mp member)
  · have few := ncard_reachableKeys_lt w c file
    have one := Set.ncard_insert_le (file.path, name) (reachableKeys w c file)
    rw [List.length_singleton]
    omega

/-- From its bound on, a larger one changes nothing. -/
theorem valueLiterals_settles (w : Workspace) (c : Compilation) (file : SourceFile) (name : Text) (value : Node)
    {depth : Nat} (enough : nestingBound w c file ≤ depth) :
    run (valueLiterals file name value) w c = run (objectLiterals depth [(file.path, name)] file value) w c := by
  rw [run_valueLiterals]
  have guardFinished := (guardedLiterals_ensures w c file name value).finished
  have unguarded := (guardedLiterals_approximates _ (nestingBound w c file) _ file value w c).resolve_left guardFinished
  have finished := unguarded ▸ guardFinished
  exact (objectLiterals_approximates enough _ file value w c).resolve_left finished

theorem Ensures.valueLiterals {w : Workspace} {shown : Path → Except Error SourceFile} (file : SourceFile)
    (name : Text) (value : Node) : Ensures w shown (valueLiterals file name value) fun _ => True := by
  intro c same
  subst same
  have ensured := guardedLiterals_ensures w c file name value
  have unguarded := (guardedLiterals_approximates _ (nestingBound w c file) _ file value w c).resolve_left ensured.finished
  rw [run_valueLiterals, ← unguarded]
  exact ensured c rfl

end SchemaTypes.Compilation
