import SchemaTypes.Proofs.DeclarationIndex
import SchemaTypes.Proofs.ModuleTables

/-!
Names in the index and names in compositions. The index has under a name the last declarator that builds objects. A member
of a composition stands for the last declarator of all. The two agree on a name just if its last declarator builds objects:
then a composition of the name alone has the objects that the index has under the name, however many bindings there are
and wherever they lead.
-/

namespace SchemaTypes

open Syntax

/-- A file binds a name in one place only. -/
def SourceFile.BindsOnce (file : SourceFile) (name : Text) (declarator : Declarator) : Prop :=
  ∃ before after, file.declarators = .ok (before ++ (name, declarator) :: after) ∧ ∀ other ∈ before ++ after, other.1 ≠ name

theorem SourceFile.BindsOnce.binding {file : SourceFile} {name : Text} {declarator : Declarator}
    (once : file.BindsOnce name declarator) : file.binding? name = .ok (some declarator) := by
  obtain ⟨before, after, split, elsewhere⟩ := once
  exact binding?_eq_some_iff.mpr ⟨before, after, split, fun later inside => elsewhere later (List.mem_append_right _ inside)⟩

/-- An expression composes a name alone. -/
def Syntax.Node.Composes (expression : Node) (name : Text) : Prop :=
  ∃ member, Shape.ofNode expression = .ok (.composeCall [member]) ∧ member.kind = .identifier ∧ member.text = .ok name

namespace Compilation

variable {w : Workspace} {c : Compilation}

/-! ### What is being followed -/

/-- Bindings that are being followed make a difference only if they are reached. -/
theorem objectLiterals_congr (depth : Nat) {active active' : List BindingKey} {site : Site}
    (agree : ∀ key value, Reached w c site key value → (key ∈ active ↔ key ∈ active')) :
    (run (objectLiterals depth active site.file site.expression) w c).1 =
      (run (objectLiterals depth active' site.file site.expression) w c).1 := by
  induction depth generalizing active active' site with
  | zero => rfl
  | succ depth ih =>
    have viewed := viewed_objectLiterals w depth
    rw [objectLiterals, literalsWith_outcome viewed, literalsWith_outcome viewed]
    cases shape : Shape.ofNode site.expression with
    | error e => rfl
    | ok read =>
      cases read with
      | composeCall members =>
        have same : ∀ member ∈ members,
            (run (memberLiterals (objectLiterals depth) active site.file member) w c).1 =
              (run (memberLiterals (objectLiterals depth) active' site.file member) w c).1 := by
          intro member inside
          rw [memberLiterals_outcome viewed, memberLiterals_outcome viewed]
          cases added : contribution w c site.file member with
          | own outcome => rfl
          | bound key value =>
            have reference : Refers w c site key value := ⟨members, shape, member, inside, added⟩
            have further : ∀ key' value', Reached w c value key' value' →
                (key' ∈ key :: active ↔ key' ∈ key :: active') := by
              intro key' value' reached
              rw [List.mem_cons, List.mem_cons, agree key' value' (.of_refers reference reached)]
            simp only [agree key value (.direct reference)]
            split
            · rfl
            · exact ih further
        simp only [mapM_congr same]
      | _ => rfl

/-! ### A name as a member -/

/-- A name that a file binds is not looked for any further. -/
theorem resolveBinding_of_bound {file : SourceFile} {name : Text} {declarator : Declarator}
    (bound : file.binding? name = .ok (some declarator)) :
    run (resolveBinding file name) w c = (.ok (some (file, declarator)), c) := by
  rw [run_resolveBinding, chainBound, searchBinding, if_neg List.not_mem_nil, bound]
  rfl

theorem ofNode_of_identifier {member : Node} {name : Text} (identifier : member.kind = .identifier)
    (text : member.text = .ok name) : ∃ shape, Shape.ofNode member = .ok shape ∧ shape.buildsObjects = false := by
  have named : (member.kind == .identifier) = true := by simp [identifier]
  simp only [Shape.ofNode, named, if_true, text, bind, Except.bind]
  cases referenceBase? name with
  | some base => exact ⟨.reference base, rfl, rfl⟩
  | none => exact ⟨.identifier name, rfl, rfl⟩

/-- A name that its file binds adds the value that it is bound to last. -/
theorem contribution_of_bound {file : SourceFile} {member : Node} {name : Text} {declarator : Declarator}
    (identifier : member.kind = .identifier) (text : member.text = .ok name)
    (bound : file.binding? name = .ok (some declarator)) :
    contribution w c file member =
      declarator.value?.elim (.own (.ok [])) fun value => .bound (file.path, name) ⟨file, value⟩ := by
  obtain ⟨shape, read, plain⟩ := ofNode_of_identifier identifier text
  have named : (member.kind == .identifier) = true := by simp [identifier]
  unfold contribution
  rw [read]
  cases shape with
  | inlineObject literal => cases plain
  | _ =>
    simp only [named, if_true, text, @resolveBinding_of_bound w c file name declarator bound]
    cases declarator.value? <;> rfl

/-- The value of a name is followed one level deeper than the members it is composed of. -/
theorem valueLiterals_composeCall {file : SourceFile} {value : Node} {members : List Node}
    (shape : Shape.ofNode value = .ok (.composeCall members)) (name : Text) :
    (run (valueLiterals file name value) w c).1 =
      (members.mapM fun member => (run (memberLiterals (objectLiterals (nestingBound w c file)) [(file.path, name)] file
        member) w c).1).map List.flatten := by
  rw [valueLiterals_settles w c file name value (Nat.le_succ _), objectLiterals,
    literalsWith_outcome (viewed_objectLiterals w _) _ ⟨file, value⟩, shape]

/-- A name that is bound to a composition of another name alone has the literals of the last binding of that name, unless
it is reached again from there. -/
theorem declaratorLiterals_of_composes {file : SourceFile} {name member : Text} {declarator last : Declarator} {value : Node}
    (valued : declarator.value? = some value) (composes : value.Composes member)
    (bound : file.binding? member = .ok (some last))
    (unreached : ∀ site, ¬ Reached w c ⟨file, value⟩ (file.path, name) site) :
    declaratorLiterals w c file (name, declarator) = declaratorLiterals w c file (member, last) := by
  obtain ⟨node, shape, identifier, text⟩ := composes
  have added := @contribution_of_bound w c file node member last identifier text bound
  have sole (f : Node → Except Error (List Node)) : ([node].mapM f).map List.flatten = f node := by
    rw [List.mapM_cons]
    cases f node with
    | error e => rfl
    | ok literals => simp [Except.map, Bind.bind, Except.bind, Pure.pure, Except.pure]
  unfold declaratorLiterals
  simp only [valued]
  rw [valueLiterals_composeCall shape name, sole, memberLiterals_outcome (viewed_objectLiterals w _), added]
  cases final : last.value? with
  | none => rfl
  | some origin =>
    rw [final] at added
    have reference : Refers w c ⟨file, value⟩ (file.path, member) ⟨file, origin⟩ :=
      ⟨[node], shape, node, List.mem_singleton_self node, added⟩
    have other : (file.path, member) ∉ [(file.path, name)] := by
      intro same
      exact unreached ⟨file, origin⟩ (List.mem_singleton.mp same ▸ .direct reference)
    have agree : ∀ key site, Reached w c ⟨file, origin⟩ key site →
        (key ∈ [(file.path, member), (file.path, name)] ↔ key ∈ [(file.path, member)]) := by
      intro key site reached
      have unmet : key ≠ (file.path, name) := by
        rintro rfl
        exact unreached site (.of_refers reference reached)
      simp [unmet]
    simp only [Option.elim_some, if_neg other]
    rw [objectLiterals_congr _ agree, run_valueLiterals]

/-! ### Names of the index -/

section Index

variable {file : SourceFile} {index : DeclarationIndex}

/-- A name of the index has a last binding, and the entry is that of the last binding if this one builds objects. -/
theorem exists_binding_of_get? {name : Text} {entry : Declaration} (built : (run (buildIndex file) w c).1 = .ok index)
    (listed : index.get? name = some entry) :
    ∃ last objects, file.binding? name = .ok (some last) ∧ declaratorLiterals w c file (name, last) = .ok objects ∧
      (objects ≠ [] → objects = entry.objects) := by
  obtain ⟨named, all, given, found⟩ := buildIndex_eq_ok built
  obtain ⟨last, bound⟩ : ∃ last, file.binding? name = .ok (some last) := by
    by_contra none
    have absent : ∀ declared ∈ named, declared.1 ≠ name := by
      rintro declared inside rfl
      exact none (SourceFile.exists_binding all inside)
    rw [found, lastDeclaration?_of_absent absent] at listed
    cases listed
  obtain ⟨before, after, split, latest⟩ := SourceFile.binding?_eq_some_iff.mp bound
  have same : named = before ++ (name, last) :: after := Except.ok.inj (all.symm.trans split)
  obtain ⟨objects, literals⟩ := given (name, last) (by simp [same])
  refine ⟨last, objects, bound, literals, fun some => ?_⟩
  rw [found, same, lastDeclaration?_append before latest, declaration?_of_literals literals, if_neg some,
    Option.some_or] at listed
  cases listed
  rfl

/-- A name that is bound once is in the index as what it is bound to. -/
theorem get?_of_bindsOnce {name : Text} {declarator : Declarator} (built : (run (buildIndex file) w c).1 = .ok index)
    (once : file.BindsOnce name declarator) : index.get? name = declaration? w c file (name, declarator) := by
  obtain ⟨named, all, -, found⟩ := buildIndex_eq_ok built
  obtain ⟨before, after, split, elsewhere⟩ := once
  have same : named = before ++ (name, declarator) :: after := Except.ok.inj (all.symm.trans split)
  have earlier : ∀ other ∈ before, other.1 ≠ name := fun other inside => elsewhere other (List.mem_append_left _ inside)
  have later : ∀ other ∈ after, other.1 ≠ name := fun other inside => elsewhere other (List.mem_append_right _ inside)
  rw [found, same, lastDeclaration?_append before later, lastDeclaration?_of_absent earlier, Option.or_none]

end Index

/-- In every state of a pass, the index of a file is the one that is built for it at the start. -/
theorem index_of_sound {file : SourceFile} (held : w.Holds file) (sound : Sound w c) :
    (run (indexDeclarations file) w c).1 = (run (buildIndex file) w {}).1 :=
  ((transparent_law w).indexDeclarations held c sound).1.trans (Transparent.indexDeclarations_start file)

/-- A composition of one name of the index, under a name that is bound nowhere else and that is not reached from it. What
counts is the last binding of the composed name. If it builds objects, these are the objects that the index has under
the composed name, and the composition is in the index with the same objects in the same order. If it builds none, the
index has kept an earlier binding of the composed name, and the composition is not in the index. -/
theorem get?_of_composes {file : SourceFile} {index : DeclarationIndex} {name member : Text} {declarator : Declarator}
    {value : Node} {entry : Declaration} (held : w.Holds file) (sound : Sound w c)
    (indexed : (run (indexDeclarations file) w c).1 = .ok index) (listed : index.get? member = some entry)
    (once : file.BindsOnce name declarator) (valued : declarator.value? = some value) (composes : value.Composes member)
    (unreached : ∀ site, ¬ Reached w {} ⟨file, value⟩ (file.path, name) site) :
    ∃ last objects, file.binding? member = .ok (some last) ∧
      declaratorLiterals w {} file (member, last) = .ok objects ∧
      (objects ≠ [] → objects = entry.objects ∧
        index.get? name = some ⟨name, entry.objects, file, declarator.statement⟩) ∧
      (objects = [] → index.get? name = none) := by
  rw [index_of_sound held sound] at indexed
  obtain ⟨last, objects, bound, literals, kept⟩ := exists_binding_of_get? indexed listed
  have same := declaratorLiterals_of_composes valued composes bound unreached
  have found := get?_of_bindsOnce indexed once
  rw [declaration?_of_literals (same.trans literals)] at found
  refine ⟨last, objects, bound, literals, fun some => ⟨kept some, ?_⟩, fun none => ?_⟩
  · rw [found, if_neg some, kept some]
  · rw [found, if_pos none]

/-! ### Checking -/

/-- Whether an expression composes a name alone. -/
def composesAlone (expression : Node) (name : Text) : Bool :=
  match Shape.ofNode expression with
  | .ok (.composeCall [member]) => member.kind == .identifier && member.text.toOption == some name
  | _ => false

/-- Whether a file binds a name once, to a composition of another name alone. -/
def composesOnce (file : SourceFile) (name member : Text) : Bool :=
  match file.declarators with
  | .ok named =>
    match named.filter (·.1 = name) with
    | [declared] => declared.2.value?.any (composesAlone · member)
    | _ => false
  | .error _ => false

theorem composes_of_composesAlone {expression : Node} {name : Text} (checked : composesAlone expression name = true) :
    expression.Composes name := by
  unfold composesAlone at checked
  split at checked
  next member shape =>
    rw [Bool.and_eq_true, beq_iff_eq, beq_iff_eq] at checked
    obtain ⟨identifier, read⟩ := checked
    refine ⟨member, shape, identifier, ?_⟩
    cases text : member.text with
    | error e => simp [text, Except.toOption] at read
    | ok actual =>
      rw [text] at read
      exact congrArg Except.ok (Option.some.inj read)
  · cases checked

theorem exists_of_composesOnce {file : SourceFile} {name member : Text} (checked : composesOnce file name member = true) :
    ∃ declarator value, file.BindsOnce name declarator ∧ declarator.value? = some value ∧ value.Composes member := by
  unfold composesOnce at checked
  split at checked
  next named all =>
    split at checked
    next declared sole =>
      obtain ⟨before, after, split, earlier, here, later⟩ := List.filter_eq_cons_iff.mp sole
      have key : declared.1 = name := by simpa using here
      cases valued : declared.2.value? with
      | none => simp [valued] at checked
      | some value =>
        refine ⟨declared.2, value, ⟨before, after, by rw [all, split, ← key], fun other inside => ?_⟩, valued, ?_⟩
        · rcases List.mem_append.mp inside with old | new
          · simpa using earlier other old
          · simpa using List.filter_eq_nil_iff.mp later other new
        · exact composes_of_composesAlone (by simpa [valued] using checked)
    · cases checked
  · cases checked

/-- The value that a name is bound to in a file of a workspace. -/
def boundSite? (w : Workspace) (key : BindingKey) : Option Site :=
  match view w {} key.1 with
  | .ok file =>
    match file.binding? key.2 with
    | .ok (some declarator) => declarator.value?.map fun value => ⟨file, value⟩
    | _ => none
  | .error _ => none

theorem boundSite?_of_binding {file : SourceFile} {name : Text} {declarator : Declarator} {value : Node}
    (held : w.Holds file) (bound : file.binding? name = .ok (some declarator)) (valued : declarator.value? = some value) :
    boundSite? w (file.path, name) = some ⟨file, value⟩ := by
  have shown : view w {} file.path = .ok file := view_start_eq_ok.mpr ⟨held, rfl⟩
  simp only [boundSite?, shown, bound, valued]
  rfl

/-- What a composition of the workspace refers to is the value of a binding of the workspace. -/
theorem Refers.boundSite? {site value : Site} {key : BindingKey} (held : w.Holds site.file)
    (reference : Refers w {} site key value) : w.Holds value.file ∧ Compilation.boundSite? w key = some value := by
  obtain ⟨members, -, member, -, added⟩ := reference
  obtain ⟨-, declarator, bound, valued⟩ := contribution_reaches added
  obtain ⟨owned, -, -, found, -, path⟩ := contribution_bound added
  have held' : w.Holds value.file :=
    ((transparent_law w).resolveBinding held key.2 {} (Sound.start w)).2.2 _ found value.file owned rfl
  refine ⟨held', ?_⟩
  have site := boundSite?_of_binding held' bound valued
  rw [path] at site
  exact site

/-- Whether the value of a binding refers to no other binding than given ones. -/
def refersWithin (w : Workspace) (keys : List BindingKey) (key : BindingKey) : Bool :=
  (boundSite? w key).all fun site => (site.references w {}).all fun reference => keys.any (· = reference.1)

/-- Nothing but bindings of a list is reached from a binding, if it refers to them only, and so does each of them. -/
theorem Reached.mem_of_closed {keys : List BindingKey} {start value : Site} {first key : BindingKey}
    (reached : Reached w {} start key value) (held : w.Holds start.file)
    (begun : Compilation.boundSite? w first = some start) (closed : (first :: keys).all (refersWithin w keys) = true) :
    key ∈ keys := by
  have next {key key' : BindingKey} {site value : Site} (inside : key ∈ first :: keys)
      (bound : Compilation.boundSite? w key = some site) (reference : Refers w {} site key' value) : key' ∈ keys := by
    have within := List.all_eq_true.mp closed key inside
    rw [refersWithin, bound] at within
    have listed := List.all_eq_true.mp within (key', value) reference.mem_references
    simpa using listed
  have all : key ∈ keys ∧ w.Holds value.file ∧ Compilation.boundSite? w key = some value := by
    induction reached with
    | direct reference => exact ⟨next List.mem_cons_self begun reference, reference.boundSite? held⟩
    | further _ reference ih =>
      obtain ⟨inside, held, bound⟩ := ih
      exact ⟨next (List.mem_cons_of_mem first inside) bound reference, reference.boundSite? held⟩
  exact all.1

theorem unreached_of_closed {file : SourceFile} {path : Path} {name : Text} {declarator : Declarator} {value : Node}
    {keys : List BindingKey} (held : w.Holds file) (located : file.path = path) (once : file.BindsOnce name declarator)
    (valued : declarator.value? = some value) (closed : ((path, name) :: keys).all (refersWithin w keys) = true)
    (absent : keys.all (· ≠ (path, name)) = true) (site : Site) :
    ¬ Reached w {} ⟨file, value⟩ (file.path, name) site := by
  subst located
  intro reached
  have listed := reached.mem_of_closed held (boundSite?_of_binding held once.binding valued) closed
  have free := List.all_eq_true.mp absent _ listed
  simp at free

/-- The file at a path of a workspace. -/
def fileAt (w : Workspace) (path : Path) : SourceFile := w.parse path ((w.read path).toOption.getD .empty)

theorem holds_fileAt {path : Path} (readable : (w.read path).isOk = true) : w.Holds (fileAt w path) := by
  obtain ⟨bytes, read⟩ := exists_eq_ok_of_isOk readable
  have same : fileAt w path = w.parse path bytes := by rw [fileAt, read]; rfl
  rw [same]
  exact (view_start_eq_ok.mp (by rw [view, read]; rfl : view w {} path = .ok (w.parse path bytes))).1

/-- A name with two bindings, the last of which goes round in a circle and has a member from another file. -/
def circularMember : Workspace :=
  .ofSources [("a.ts", "import \x7bB\x7d from './b'\nlet N=1,N=compose(N,B,B),C=compose(N)"),
    ("b.ts", "let B=Type.Object(\x7b\x7d)")]

set_option maxRecDepth 100000 in
theorem get?_of_composes_circularMember :
    ∃ index entry statement,
      (run (indexDeclarations (fileAt circularMember (.ofText "/w/a.ts"))) circularMember {}).1 = .ok index ∧
      index.get? "N" = some entry ∧ entry.objects.length = 2 ∧
      index.get? "C" = some ⟨"C", entry.objects, fileAt circularMember (.ofText "/w/a.ts"), statement⟩ := by
  let a : Path := .ofText "/w/a.ts"
  have held : circularMember.Holds (fileAt circularMember a) := holds_fileAt (by decide +kernel)
  obtain ⟨declarator, value, once, valued, composes⟩ :=
    exists_of_composesOnce (by decide +kernel : composesOnce (fileAt circularMember a) "C" "N" = true)
  have closed : ((a, "C") :: [(a, "N"), (.ofText "/w/b.ts", "B")] : List BindingKey).all
      (refersWithin circularMember [(a, "N"), (.ofText "/w/b.ts", "B")]) = true := by decide +kernel
  have unreached := unreached_of_closed held (circularMember.parse_path a _) once valued closed (by decide +kernel)
  have listed : ((run (indexDeclarations (fileAt circularMember a)) circularMember {}).1.toOption.bind fun index =>
      (index.get? "N").bind fun entry => (index.get? "C").map fun _ => entry.objects.length) = some 2 := by
    decide +kernel
  cases indexed : (run (indexDeclarations (fileAt circularMember a)) circularMember {}).1 with
  | error e =>
    rw [indexed] at listed
    cases listed
  | ok index =>
    rw [indexed, Except.toOption, Option.bind_some] at listed
    obtain ⟨entry, found, counted⟩ := Option.bind_eq_some_iff.mp listed
    obtain ⟨composed, present, two⟩ := Option.map_eq_some_iff.mp counted
    obtain ⟨last, objects, -, -, filled, empty⟩ :=
      get?_of_composes held (Sound.start circularMember) indexed found once valued composes unreached
    by_cases none : objects = []
    · cases (empty none).symm.trans present
    · exact ⟨index, entry, declarator.statement, rfl, found, two, (filled none).2⟩

/-- A name that is bound to an object and then to a number, and a composition of it. -/
def shadowedMember : Workspace := .ofSources [("a.ts", "let N=Type.Object(\x7b\x7d),N=1,C=compose(N)")]

set_option maxRecDepth 100000 in
theorem absent_of_shadowedMember :
    let a : Path := .ofText "/w/a.ts"
    let outcome := (run (indexDeclarations (fileAt shadowedMember a)) shadowedMember {}).1.toOption
    composesOnce (fileAt shadowedMember a) "C" "N" = true ∧
      ([(a, "C"), (a, "N")] : List BindingKey).all (refersWithin shadowedMember [(a, "N")]) = true ∧
      outcome.map (fun index => ((index.get? "N").isSome, (index.get? "C").isSome)) = some (true, false) := by
  decide +kernel

end Compilation
end SchemaTypes
