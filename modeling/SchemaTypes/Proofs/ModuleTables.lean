import SchemaTypes.Compilation.Resolve
import SchemaTypes.Proofs.Faults
import SchemaTypes.Proofs.OrderedMap
import SchemaTypes.Proofs.SyntaxParts

/-!
Module tables told by their syntax. A name is redirected to an identifier by two bindings of one file: the last binding of
the name imports a key, and the last binding of `module` publishes a literal whose last pair for that key names the
identifier. Reading the bindings and the table gives exactly this redirection.
-/

namespace SchemaTypes

open Syntax

/-! ### Calls -/

namespace Shape

/-- Whether a shape has to do with module tables. -/
def isOfModule : Shape → Bool
  | moduleImport _ | moduleTable _ => true
  | _ => false

/-- Only method calls have to do with module tables. -/
theorem calls_of_isOfModule {n : Node} {shape : Shape} (read : ofNode n = .ok shape) (module : shape.isOfModule = true) :
    ∃ receiver method, n.Calls receiver method ∧ shape = ofMethodCall receiver method n.callArguments := by
  rcases ofNode_eq_ok read with ⟨-, name, -, rfl⟩ | rfl | ⟨kind, rfl⟩ | calls
  · cases based : referenceBase? name <;> rw [based] at module <;> cases module
  · cases module
  · cases module
  · exact calls

theorem ofBuilderCall_ne_moduleImport (method : Text) (args : List Node) (key : Node) :
    ofBuilderCall method args ≠ .moduleImport key := by
  have rest : ofBuilderCall.rest method args (.unrecognized .callExpression) ≠ .moduleImport key := by
    unfold ofBuilderCall.rest
    split
    · simp
    · simp
    · split
      · simp
      · split <;> simp
  unfold ofBuilderCall
  dsimp only
  split
  · split
    · simp
    · split
      · simp
      · exact rest
  · exact rest

theorem ofMethodCall_eq_moduleImport_iff {receiver method : Text} {args : List Node} {key : Node} :
    ofMethodCall receiver method args = .moduleImport key ↔
      receiver = Text.ofString "module" ∧ method = Text.ofString "Import" ∧ args = [key] := by
  have other : ofMethodCall.other receiver method args ≠ .moduleImport key := by
    unfold ofMethodCall.other
    split
    · exact ofBuilderCall_ne_moduleImport method args key
    · simp
  constructor
  · intro shape
    unfold ofMethodCall at shape
    split at shape
    next only =>
      split at shape
      next named =>
        cases shape
        simp only [Bool.and_eq_true, decide_eq_true_eq] at named
        exact ⟨named.1, named.2, rfl⟩
      · exact absurd shape other
    · exact absurd shape other
  · rintro ⟨rfl, rfl, rfl⟩
    simp [ofMethodCall]

theorem ofBuilderCall_eq_moduleTable_iff {method : Text} {args : List Node} {literal : Node} :
    ofBuilderCall method args = .moduleTable literal ↔
      method = Text.ofString "Module" ∧ ∃ first rest, args = first :: rest ∧ first.unwrap = literal ∧
        literal.kind = .object := by
  have told : ofBuilderCall.rest method args (.unrecognized .callExpression) = .moduleTable literal ↔
      method = Text.ofString "Module" ∧ ∃ first rest, args = first :: rest ∧ first.unwrap = literal ∧
        literal.kind = .object := by
    constructor
    · intro shape
      unfold ofBuilderCall.rest at shape
      split at shape
      · cases shape
      · cases shape
      next first rest _ =>
        split at shape
        · cases shape
        · split at shape
          next named =>
            cases shape
            simp only [Bool.and_eq_true, decide_eq_true_eq, beq_iff_eq] at named
            exact ⟨named.1, first, rest, rfl, rfl, named.2⟩
          · cases shape
    · rintro ⟨rfl, first, rest, rfl, rfl, object⟩
      have unprimitive : primitive? (Text.ofString "Module") = none := by decide
      have different : Text.ofString "Module" ≠ Text.ofString "Object" := by decide
      simp [ofBuilderCall.rest, unprimitive, different, object]
  unfold ofBuilderCall
  dsimp only
  split
  next inner =>
    have optional : Text.ofString "Module" ≠ Text.ofString "Optional" := by decide
    have array : Text.ofString "Module" ≠ Text.ofString "Array" := by decide
    split
    next named =>
      subst named
      simp [optional.symm]
    · split
      next named =>
        subst named
        simp [array.symm]
      · exact told
  · exact told

theorem ofMethodCall_eq_moduleTable_iff {receiver method : Text} {args : List Node} {literal : Node} :
    ofMethodCall receiver method args = .moduleTable literal ↔
      receiver = Text.ofString "Type" ∧ method = Text.ofString "Module" ∧
        ∃ first rest, args = first :: rest ∧ first.unwrap = literal ∧ literal.kind = .object := by
  have told : ofMethodCall.other receiver method args = .moduleTable literal ↔
      receiver = Text.ofString "Type" ∧ method = Text.ofString "Module" ∧
        ∃ first rest, args = first :: rest ∧ first.unwrap = literal ∧ literal.kind = .object := by
    unfold ofMethodCall.other
    split
    next builder => rw [ofBuilderCall_eq_moduleTable_iff, and_iff_right builder]
    next other => simp [other]
  unfold ofMethodCall
  split
  next only =>
    split
    next named =>
      simp only [Bool.and_eq_true, decide_eq_true_eq] at named
      have different : Text.ofString "module" ≠ Text.ofString "Type" := by decide
      simp [named.1, different]
    · exact told
  · exact told

theorem ofNode_eq_moduleImport_iff {n key : Node} :
    ofNode n = .ok (.moduleImport key) ↔ n.Calls "module" "Import" ∧ n.callArguments = [key] := by
  constructor
  · intro read
    obtain ⟨receiver, method, calls, shape⟩ := calls_of_isOfModule read rfl
    obtain ⟨rfl, rfl, args⟩ := ofMethodCall_eq_moduleImport_iff.mp shape.symm
    exact ⟨calls, args⟩
  · rintro ⟨calls, args⟩
    rw [ofNode_of_calls calls, ofMethodCall_eq_moduleImport_iff.mpr ⟨rfl, rfl, args⟩]

theorem ofNode_eq_moduleTable_iff {n literal : Node} :
    ofNode n = .ok (.moduleTable literal) ↔
      n.Calls "Type" "Module" ∧ ∃ first rest, n.callArguments = first :: rest ∧ first.unwrap = literal ∧
        literal.kind = .object := by
  constructor
  · intro read
    obtain ⟨receiver, method, calls, shape⟩ := calls_of_isOfModule read rfl
    obtain ⟨rfl, rfl, args⟩ := ofMethodCall_eq_moduleTable_iff.mp shape.symm
    exact ⟨calls, args⟩
  · rintro ⟨calls, args⟩
    rw [ofNode_of_calls calls, ofMethodCall_eq_moduleTable_iff.mpr ⟨rfl, rfl, args⟩]

end Shape

/-! ### Bindings -/

/-- A file binds a name last by a declarator. -/
def SourceFile.Binds (file : SourceFile) (name : Text) (declarator : Declarator) : Prop :=
  ∃ before after, file.declarators = .ok (before ++ (name, declarator) :: after) ∧ ∀ later ∈ after, later.1 ≠ name

/-- The binding of a name is what the table of all bindings has for it. -/
theorem SourceFile.binding?_eq_map_bindings (file : SourceFile) (name : Text) :
    file.binding? name = file.bindings.map (·.get? name) := by
  have looked (l : List (Text × Declarator)) :
      l.lookup name = (l.find? fun pair => pair.1 = name).map Prod.snd := by
    induction l with
    | nil => rfl
    | cons pair rest ih =>
      rw [List.lookup_cons, List.find?_cons, ih]
      by_cases same : pair.1 = name
      · simp [same]
      · have different : (name == pair.1) = false := by simpa using fun other => same other.symm
        simp [same, different]
  unfold binding? bindings
  cases file.declarators with
  | error e => rfl
  | ok named => exact congrArg Except.ok ((looked _).trans (OrderedMap.get?_ofList named name).symm)

theorem SourceFile.binding?_eq_some_iff {file : SourceFile} {name : Text} {declarator : Declarator} :
    file.binding? name = .ok (some declarator) ↔ file.Binds name declarator := by
  rw [binding?_eq_map_bindings]
  unfold bindings Binds
  cases file.declarators with
  | error e => simp [bind, Except.bind, Except.map]
  | ok named =>
    simp only [bind, Except.bind, pure, Except.pure, Except.map, Except.ok.injEq]
    exact OrderedMap.get?_ofList_eq_some_iff

/-! ### Tables -/

/-- A member of a literal publishes an identifier under a key. It is a pair of the two, and its key is not empty. -/
def Syntax.Node.Publishes (entry : Node) (key target : Text) : Prop :=
  ∃ keyNode value, entry.kind = .pair ∧ entry.child? .key = some keyNode ∧ entry.child? .value = some value ∧
    value.kind = .identifier ∧ ModuleTable.keyOf keyNode = .ok (some key) ∧ key ≠ [] ∧ value.text = .ok target

theorem Syntax.Node.Publishes.unique {entry : Node} {key key' target target' : Text}
    (one : entry.Publishes key target) (other : entry.Publishes key' target') : key = key' ∧ target = target' := by
  obtain ⟨keyNode, value, -, keyed, valued, -, read, -, text⟩ := one
  obtain ⟨keyNode', value', -, keyed', valued', -, read', -, text'⟩ := other
  cases keyed.symm.trans keyed'
  cases valued.symm.trans valued'
  cases read.symm.trans read'
  cases text.symm.trans text'
  exact ⟨rfl, rfl⟩

/-- Of some members of a literal, the last one that publishes a key publishes an identifier under it. -/
def PublishesLast (members : List Node) (key target : Text) : Prop :=
  ∃ before entry after, members = before ++ entry :: after ∧ entry.Publishes key target ∧
    ∀ later ∈ after, ∀ other, ¬ later.Publishes key other

namespace ModuleTable

/-- A member is put into the table if it publishes something, and passed over if it does not. -/
theorem publish_eq_ok {table table' : ModuleTable} {entry : Node} (read : publish table entry = .ok table') :
    (∃ key target, entry.Publishes key target ∧ table' = table.insert key target) ∨
      (∀ key target, ¬ entry.Publishes key target) ∧ table' = table := by
  unfold publish at read
  split at read
  next other =>
    cases read
    refine .inr ⟨?_, rfl⟩
    rintro key target ⟨keyNode, value, pair, -⟩
    simp [pair] at other
  next pair =>
    split at read
    next keyNode value keyed valued =>
      split at read
      next other =>
        cases read
        refine .inr ⟨?_, rfl⟩
        rintro key target ⟨keyNode', value', -, -, valued', identifier, -⟩
        cases valued.symm.trans valued'
        simp [identifier] at other
      next identifier =>
        obtain ⟨found, keyRead, read⟩ := bind_eq_ok_iff.mp read
        split at read
        next c rest =>
          obtain ⟨target, text, read⟩ := bind_eq_ok_iff.mp read
          cases read
          exact .inl ⟨c :: rest, target, ⟨keyNode, value, by simpa using pair, keyed, valued, by simpa using identifier,
            keyRead, List.cons_ne_nil c rest, text⟩, rfl⟩
        next empty =>
          cases read
          refine .inr ⟨?_, rfl⟩
          rintro key target ⟨keyNode', value', -, keyed', -, -, keyRead', nonempty, -⟩
          cases keyed.symm.trans keyed'
          cases keyRead.symm.trans keyRead'
          obtain ⟨c, rest, rfl⟩ := List.exists_cons_of_ne_nil nonempty
          exact empty c rest rfl
    next unpaired =>
      cases read
      refine .inr ⟨?_, rfl⟩
      rintro key target ⟨keyNode, value, -, keyed, valued, -⟩
      exact unpaired keyNode value keyed valued

theorem get?_foldlM_publish {members : List Node} {table table' : ModuleTable} {key target : Text}
    (read : members.foldlM publish table = .ok table') :
    table'.get? key = some target ↔ PublishesLast members key target ∨
      (∀ entry ∈ members, ∀ other, ¬ entry.Publishes key other) ∧ table.get? key = some target := by
  induction members generalizing table with
  | nil =>
    cases read
    simp [PublishesLast]
  | cons entry rest ih =>
    rw [List.foldlM_cons] at read
    obtain ⟨middle, first, read⟩ := bind_eq_ok_iff.mp read
    rw [ih read]
    constructor
    · rintro (⟨before, last, after, rfl, publishes, silent⟩ | ⟨silent, found⟩)
      · exact .inl ⟨entry :: before, last, after, rfl, publishes, silent⟩
      · rcases publish_eq_ok first with ⟨key', target', publishes, rfl⟩ | ⟨unpublished, rfl⟩
        · rw [OrderedMap.get?_insert] at found
          split at found
          next same =>
            cases found
            exact .inl ⟨[], entry, rest, rfl, same ▸ publishes, silent⟩
          next different =>
            refine .inr ⟨fun other member target' publishes' => ?_, found⟩
            rcases List.mem_cons.mp member with rfl | later
            · exact different (publishes.unique publishes').1
            · exact silent other later target' publishes'
        · refine .inr ⟨fun other member target' publishes' => ?_, found⟩
          rcases List.mem_cons.mp member with rfl | later
          · exact unpublished key target' publishes'
          · exact silent other later target' publishes'
    · rintro (⟨before, last, after, split, publishes, silent⟩ | ⟨silent, found⟩)
      · cases before with
        | nil =>
          cases split
          right
          refine ⟨silent, ?_⟩
          rcases publish_eq_ok first with ⟨key', target', publishes', rfl⟩ | ⟨unpublished, -⟩
          · obtain ⟨rfl, rfl⟩ := publishes.unique publishes'
            exact OrderedMap.get?_insert_self _ _ _
          · exact absurd publishes (unpublished key target)
        | cons head before =>
          cases split
          exact .inl ⟨before, last, after, rfl, publishes, silent⟩
      · refine .inr ⟨fun other member => silent other (List.mem_cons_of_mem entry member), ?_⟩
        rcases publish_eq_ok first with ⟨key', target', publishes, rfl⟩ | ⟨-, rfl⟩
        · have different : key' ≠ key := by
            rintro rfl
            exact silent entry List.mem_cons_self target' publishes
          rw [OrderedMap.get?_insert_of_ne _ _ different, found]
        · exact found

/-- The table of a literal leads each key to what the last pair for it names. -/
theorem get?_ofLiteral {literal : Node} {table : ModuleTable} {key target : Text} (read : ofLiteral literal = .ok table) :
    table.get? key = some target ↔ PublishesLast literal.members key target := by
  rw [get?_foldlM_publish read]
  simp

end ModuleTable

/-! ### Faults -/

namespace DecodesOnly

theorem computedKey (expression : Node) : DecodesOnly (ModuleTable.computedKey expression) := by
  unfold ModuleTable.computedKey
  split
  · split
    · exact map _ (text _)
    · exact ok _
  · split
    · exact map _ (stringValue _)
    · exact ok _

theorem keyOf (key : Node) : DecodesOnly (ModuleTable.keyOf key) := by
  unfold ModuleTable.keyOf
  split
  · exact map _ (stringValue key)
  · split
    · exact map _ (text key)
    · split
      · split
        · exact ok _
        · exact computedKey _
      · exact ok _

theorem publish (table : ModuleTable) (entry : Node) : DecodesOnly (ModuleTable.publish table entry) := by
  unfold ModuleTable.publish
  split
  · exact ok _
  · split
    · split
      · exact ok _
      · refine bind (keyOf _) fun found => ?_
        split
        · exact bind (text _) fun _ => ok _
        · exact ok _
    · exact ok _

theorem moduleTable (file : SourceFile) : DecodesOnly (ModuleTable.find file) := by
  unfold ModuleTable.find
  refine bind (binding? file _) fun found => ?_
  split
  · exact ok _
  · refine bind (shapeOfNode _) fun shape => ?_
    split
    · exact map _ (foldlM publish _ _)
    · exact ok _

theorem importKey? (file : SourceFile) (name : Text) : DecodesOnly (Compilation.importKey? file name) := by
  unfold Compilation.importKey?
  refine bind (binding? file name) fun found => ?_
  split
  · exact ok _
  · refine bind (shapeOfNode _) fun shape => ?_
    split <;> exact ok _

end DecodesOnly

/-! ### Redirections -/

namespace SourceFile

/-- A file binds a name last to `module.Import` of one string, which has a value. -/
def ImportsKey (file : SourceFile) (name key : Text) : Prop :=
  ∃ declarator value keyNode, file.Binds name declarator ∧ declarator.value? = some value ∧
    value.Calls "module" "Import" ∧ value.callArguments = [keyNode] ∧ keyNode.kind = .string ∧
    keyNode.stringValue = .ok key

/-- A file publishes an object literal: it binds `module` last to `Type.Module` of it, and possibly of more. Parentheses
and assertions around the literal do not count. -/
def PublishesLiteral (file : SourceFile) (literal : Node) : Prop :=
  ∃ declarator value first rest, file.Binds ModuleTable.bindingName declarator ∧ declarator.value? = some value ∧
    value.Calls "Type" "Module" ∧ value.callArguments = first :: rest ∧ first.unwrap = literal ∧ literal.kind = .object

/-- A file redirects a name to an identifier through the table that it publishes. -/
def Redirects (file : SourceFile) (name target : Text) : Prop :=
  ∃ key literal, file.ImportsKey name key ∧ file.PublishesLiteral literal ∧ PublishesLast literal.members key target

theorem importKey?_eq_some_iff {file : SourceFile} {name : Text} {keyNode : Node} :
    Compilation.importKey? file name = .ok (some keyNode) ↔
      ∃ declarator value, file.Binds name declarator ∧ declarator.value? = some value ∧
        value.Calls "module" "Import" ∧ value.callArguments = [keyNode] := by
  constructor
  · intro read
    obtain ⟨found, looked, read⟩ := bind_eq_ok_iff.mp read
    split at read
    · cases read
    next value valued =>
      obtain ⟨declarator, rfl, valued⟩ := Option.bind_eq_some_iff.mp valued
      obtain ⟨shape, shaped, read⟩ := bind_eq_ok_iff.mp read
      split at read <;> cases read
      obtain ⟨calls, args⟩ := Shape.ofNode_eq_moduleImport_iff.mp shaped
      exact ⟨declarator, value, binding?_eq_some_iff.mp looked, valued, calls, args⟩
  · rintro ⟨declarator, value, binds, valued, calls, args⟩
    have shaped := Shape.ofNode_eq_moduleImport_iff.mpr ⟨calls, args⟩
    simp [Compilation.importKey?, binding?_eq_some_iff.mpr binds, valued, shaped, bind, Except.bind, pure, Except.pure]

theorem find_of_publishesLiteral {file : SourceFile} {literal : Node} (publishes : file.PublishesLiteral literal) :
    ModuleTable.find file = some <$> ModuleTable.ofLiteral literal := by
  obtain ⟨declarator, value, first, rest, binds, valued, calls, args, unwrapped, object⟩ := publishes
  have shaped := Shape.ofNode_eq_moduleTable_iff.mpr ⟨calls, first, rest, args, unwrapped, object⟩
  simp [ModuleTable.find, binding?_eq_some_iff.mpr binds, valued, shaped, bind, Except.bind]

theorem publishesLiteral_of_find {file : SourceFile} {table : ModuleTable}
    (found : ModuleTable.find file = .ok (some table)) :
    ∃ literal, file.PublishesLiteral literal ∧ ModuleTable.ofLiteral literal = .ok table := by
  obtain ⟨binding, looked, found⟩ := bind_eq_ok_iff.mp found
  split at found
  · cases found
  next value valued =>
    obtain ⟨declarator, rfl, valued⟩ := Option.bind_eq_some_iff.mp valued
    obtain ⟨shape, shaped, found⟩ := bind_eq_ok_iff.mp found
    split at found
    next literal =>
      obtain ⟨calls, first, rest, args, unwrapped, object⟩ := Shape.ofNode_eq_moduleTable_iff.mp shaped
      refine ⟨literal, ⟨declarator, value, first, rest, binding?_eq_some_iff.mp looked, valued, calls, args, unwrapped,
        object⟩, ?_⟩
      cases read : ModuleTable.ofLiteral literal with
      | error e =>
        rw [read] at found
        cases found
      | ok read =>
        rw [read] at found
        cases found
        rfl
    · cases found

/-- What is read off the two bindings is a redirection. -/
theorem redirects_of_read {file : SourceFile} {name key target : Text} {keyNode : Node} {table : ModuleTable}
    (imports : Compilation.importKey? file name = .ok (some keyNode)) (string : keyNode.kind = .string)
    (value : keyNode.stringValue = .ok key) (found : ModuleTable.find file = .ok (some table))
    (leads : table.get? key = some target) : file.Redirects name target := by
  obtain ⟨declarator, bound, binds, valued, calls, args⟩ := importKey?_eq_some_iff.mp imports
  obtain ⟨literal, publishes, read⟩ := publishesLiteral_of_find found
  exact ⟨key, literal, ⟨declarator, bound, keyNode, binds, valued, calls, args, string, value⟩, publishes,
    (ModuleTable.get?_ofLiteral read).mp leads⟩

/-- A redirection is read off the two bindings, if the table can be read at all. -/
theorem Redirects.read {file : SourceFile} {name target : Text} (redirects : file.Redirects name target) :
    ∃ keyNode key, Compilation.importKey? file name = .ok (some keyNode) ∧ keyNode.kind = .string ∧
      keyNode.stringValue = .ok key ∧
      ∀ found, ModuleTable.find file = .ok found → ∃ table, found = some table ∧ table.get? key = some target := by
  obtain ⟨key, literal, ⟨declarator, bound, keyNode, binds, valued, calls, args, string, value⟩, publishes, last⟩ :=
    redirects
  refine ⟨keyNode, key, importKey?_eq_some_iff.mpr ⟨declarator, bound, binds, valued, calls, args⟩, string, value,
    fun found looked => ?_⟩
  rw [find_of_publishesLiteral publishes] at looked
  cases read : ModuleTable.ofLiteral literal with
  | error e =>
    rw [read] at looked
    cases looked
  | ok table =>
    rw [read] at looked
    cases looked
    exact ⟨table, rfl, (ModuleTable.get?_ofLiteral read).mpr last⟩

end SourceFile
end SchemaTypes
