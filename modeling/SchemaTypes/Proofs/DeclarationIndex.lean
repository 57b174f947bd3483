import SchemaTypes.Proofs.Transparency
import SchemaTypes.Proofs.Unfolding

/-!
What the index of a file holds. Each declarator of the file stands for a declaration or for none, whatever its neighbours
are: its value may be looked at in the state in which the index is begun. Under a name, the index has the declaration of
the last declarator that has the name and stands for one.
-/

namespace SchemaTypes.Compilation

open Syntax

/-- Each step of a fold may be run in the state before the fold. -/
theorem Viewed.run_foldlM {α β : Type} {w : Workspace} {f : β → α → Compile β} {good : β → Prop}
    (each : ∀ b a, Viewed w (f b a) good) (l : List α) (b : β) (c : Compilation) :
    (run (l.foldlM f b) w c).1 = l.foldlM (fun b a => (run (f b a) w c).1) b := by
  induction l generalizing b c with
  | nil => rfl
  | cons a l ih =>
    rw [List.foldlM_cons, List.foldlM_cons]
    cases result : (run (f b a) w c).1 with
    | error e =>
      rw [run_bind_error _ result]
      rfl
    | ok next =>
      have same : (fun b' a' => (run (f b' a') w (run (f b a) w c).2).1) = fun b' a' => (run (f b' a') w c).1 := by
        funext b' a'
        exact (each b' a' c).2.2 _ (each b a c).1
      rw [run_bind_ok _ result, ih, same]
      rfl

/-- The literals of a declarator, looked at in some state of a pass. One without a value has none. -/
def declaratorLiterals (w : Workspace) (c : Compilation) (file : SourceFile) (named : Text × Declarator) :
    Except Error (List Node) :=
  match named.2.value? with
  | none => .ok []
  | some value => (run (valueLiterals file named.1 value) w c).1

/-- The declaration that a declarator stands for, if it has literals. -/
def declaration? (w : Workspace) (c : Compilation) (file : SourceFile) (named : Text × Declarator) : Option Declaration :=
  match declaratorLiterals w c file named with
  | .ok (first :: rest) => some ⟨named.1, first :: rest, file, named.2.statement⟩
  | _ => none

/-- An index after a declarator that may stand for a declaration. -/
def enter (index : DeclarationIndex) (name : Text) : Option Declaration → DeclarationIndex
  | some declaration => index.insert name declaration
  | none => index

theorem get?_enter (index : DeclarationIndex) (name queried : Text) (declared : Option Declaration) :
    (enter index name declared).get? queried =
      (if name = queried then declared else none).or (index.get? queried) := by
  cases declared with
  | none => simp [enter]
  | some declaration =>
    rw [enter, OrderedMap.get?_insert]
    split <;> rfl

variable {w : Workspace} {c : Compilation} {file : SourceFile}

theorem declaration?_of_literals {named : Text × Declarator} {objects : List Node}
    (literals : declaratorLiterals w c file named = .ok objects) :
    declaration? w c file named =
      if objects = [] then none else some ⟨named.1, objects, file, named.2.statement⟩ := by
  unfold declaration?
  rw [literals]
  cases objects <;> rfl

theorem run_indexDeclarator (index : DeclarationIndex) (named : Text × Declarator) :
    (run (indexDeclarator (valueLiterals file) file index named) w c).1 =
      (declaratorLiterals w c file named).map fun _ => enter index named.1 (declaration? w c file named) := by
  obtain ⟨name, declarator⟩ := named
  unfold indexDeclarator declaration? declaratorLiterals
  dsimp only
  cases declarator.value? with
  | none => rfl
  | some value =>
    simp only [run_bind]
    cases run (valueLiterals file name value) w c with
    | mk result after =>
      cases result with
      | error e => rfl
      | ok objects => cases objects <;> rfl

/-- The declaration of the last declarator that has a name and stands for one. -/
def lastDeclaration? (w : Workspace) (c : Compilation) (file : SourceFile) (named : List (Text × Declarator))
    (name : Text) : Option Declaration :=
  named.reverse.findSome? fun declared => if declared.1 = name then declaration? w c file declared else none

theorem lastDeclaration?_of_absent {named : List (Text × Declarator)} {name : Text}
    (absent : ∀ declared ∈ named, declared.1 ≠ name) : lastDeclaration? w c file named name = none := by
  rw [lastDeclaration?, List.findSome?_eq_none_iff]
  intro declared member
  exact if_neg (absent declared (List.mem_reverse.mp member))

/-- The last declarator of a name decides, unless it stands for nothing. -/
theorem lastDeclaration?_append {name : Text} {declarator : Declarator} (before : List (Text × Declarator))
    {after : List (Text × Declarator)} (last : ∀ later ∈ after, later.1 ≠ name) :
    lastDeclaration? w c file (before ++ (name, declarator) :: after) name =
      (declaration? w c file (name, declarator)).or (lastDeclaration? w c file before name) := by
  have absent := @lastDeclaration?_of_absent w c file after name last
  unfold lastDeclaration? at absent ⊢
  rw [List.reverse_append, List.reverse_cons, List.append_assoc, List.findSome?_append, absent, Option.none_or,
    List.singleton_append, List.findSome?_cons, if_pos rfl]
  cases declaration? w c file (name, declarator) <;> rfl

theorem foldlM_enter {named : List (Text × Declarator)} {index : DeclarationIndex}
    (folded : named.foldlM (fun index declared => (declaratorLiterals w c file declared).map fun _ =>
      enter index declared.1 (declaration? w c file declared)) OrderedMap.empty = .ok index) :
    (∀ declared ∈ named, ∃ objects, declaratorLiterals w c file declared = .ok objects) ∧
      ∀ name, index.get? name = lastDeclaration? w c file named name := by
  induction named using List.reverseRecOn generalizing index with
  | nil =>
    cases folded
    exact ⟨by simp, fun name => rfl⟩
  | append_singleton before last ih =>
    rw [List.foldlM_append] at folded
    obtain ⟨earlier, first, folded⟩ := bind_eq_ok_iff.mp folded
    obtain ⟨given, found⟩ := ih first
    cases objects : declaratorLiterals w c file last with
    | error e =>
      rw [List.foldlM_cons, objects] at folded
      cases folded
    | ok literals =>
      rw [List.foldlM_cons, objects] at folded
      cases folded
      refine ⟨fun declared member => ?_, fun name => ?_⟩
      · rcases List.mem_append.mp member with old | new
        · exact given declared old
        · exact ⟨literals, List.mem_singleton.mp new ▸ objects⟩
      · rw [get?_enter, found, lastDeclaration?, lastDeclaration?, List.reverse_append, List.reverse_singleton,
          List.singleton_append, List.findSome?_cons]
        cases (if last.1 = name then declaration? w c file last else none) <;> rfl

/-- An index is built by entering what the declarators stand for, each looked at in the state in which it is begun. -/
theorem buildIndex_eq_foldlM {index : DeclarationIndex} (built : (run (buildIndex file) w c).1 = .ok index) :
    ∃ named, file.declarators = .ok named ∧
      named.foldlM (fun index declared => (declaratorLiterals w c file declared).map fun _ =>
        enter index declared.1 (declaration? w c file declared)) OrderedMap.empty = .ok index := by
  have viewed (index : DeclarationIndex) (declared : Text × Declarator) :
      Viewed w (indexDeclarator (valueLiterals file) file index declared) fun _ => True :=
    (viewed_law w).indexDeclarator trivial trivial declared fun _ _ => trivial
  rw [buildIndex, buildIndexWith] at built
  cases listed : file.declarators with
  | error e =>
    rw [listed] at built
    cases built
  | ok named =>
    rw [listed] at built
    refine ⟨named, rfl, ?_⟩
    simp only [← run_indexDeclarator]
    rw [← Viewed.run_foldlM viewed]
    exact built

/-- What comes of the declarators of a file, if an index comes of them: each of them has literals or none, and a name
stands for what the last of those that declare it stands for. -/
theorem buildIndex_eq_ok {index : DeclarationIndex} (built : (run (buildIndex file) w c).1 = .ok index) :
    ∃ named, file.declarators = .ok named ∧
      (∀ declared ∈ named, ∃ objects, declaratorLiterals w c file declared = .ok objects) ∧
      ∀ name, index.get? name = lastDeclaration? w c file named name := by
  obtain ⟨named, listed, folded⟩ := buildIndex_eq_foldlM built
  exact ⟨named, listed, foldlM_enter folded⟩

end SchemaTypes.Compilation
