import SchemaTypes.Proofs.Comments.Trees
import SchemaTypes.Proofs.FieldLines
import SchemaTypes.Proofs.FileSystem
import SchemaTypes.Proofs.OrderedMap
import SchemaTypes.Proofs.Running

/-!
Passes over files without some of their comments. Two passes whose files differ in comments only go through the same steps:
they find the same bindings, load the same files and fail in the same places, and the literals they come to differ in
comments only. So the names of an index and their order do not depend on comments, and neither do the objects under them.
-/

namespace SchemaTypes

open Syntax

/-! ### Tables -/

namespace OrderedMap

variable {κ α β : Type} {R : α → β → Prop}

/-- Two tables have the same keys in the same order, with related values. -/
def Alike (R : α → β → Prop) (table : OrderedMap κ α) (other : OrderedMap κ β) : Prop :=
  List.Forall₂ (SameKey R) table.entries other.entries

theorem Alike.refl {R : α → α → Prop} (same : ∀ a, R a a) (table : OrderedMap κ α) : Alike R table table :=
  List.forall₂_same.mpr fun entry _ => ⟨rfl, same entry.2⟩

theorem Alike.size {table : OrderedMap κ α} {other : OrderedMap κ β} (alike : Alike R table other) :
    other.size = table.size := (List.Forall₂.length_eq alike).symm

variable [DecidableEq κ]

theorem Alike.get? {table : OrderedMap κ α} {other : OrderedMap κ β} (alike : Alike R table other) (key : κ) :
    Option.Rel R (table.get? key) (other.get? key) := by
  have looked {l : List (κ × α)} {l' : List (κ × β)} (lists : List.Forall₂ (SameKey R) l l') :
      Option.Rel R ((l.find? (·.1 = key)).map Prod.snd) ((l'.find? (·.1 = key)).map Prod.snd) := by
    induction lists with
    | nil => exact .none
    | @cons entry entry' rest rest' related _ ih =>
      rw [List.find?_cons, List.find?_cons, related.1]
      cases decide (entry.1 = key) with
      | true => exact .some related.2
      | false => exact ih
  exact looked alike

theorem forall₂_put {key : κ} {a : α} {b : β} (related : R a b) {l : List (κ × α)} {l' : List (κ × β)}
    (lists : List.Forall₂ (SameKey R) l l') : List.Forall₂ (SameKey R) (put key a l) (put key b l') := by
  induction lists with
  | nil => exact .cons ⟨rfl, related⟩ .nil
  | @cons entry entry' rest rest' here others ih =>
    obtain ⟨name, value⟩ := entry
    obtain ⟨name', value'⟩ := entry'
    cases here.1
    rw [put, put]
    split
    · exact .cons ⟨rfl, related⟩ others
    · exact .cons here ih

theorem Alike.insert {table : OrderedMap κ α} {other : OrderedMap κ β} (alike : Alike R table other) (key : κ) {a : α}
    {b : β} (related : R a b) : Alike R (table.insert key a) (other.insert key b) := forall₂_put related alike

end OrderedMap

/-! ### Passes -/

/-- One declaration is another up to comments in its objects and in the tree of its file. -/
structure Declaration.PrunesTo (d d' : Declaration) : Prop where
  name : d'.name = d.name
  objects : List.Forall₂ Node.PrunesTo d.objects d'.objects
  file : d.file.PrunesTo d'.file

theorem Declaration.PrunesTo.refl (d : Declaration) : d.PrunesTo d :=
  ⟨rfl, List.forall₂_same.mpr fun object _ => .refl object, .refl d.file⟩

namespace Compilation

/-- One state of a pass is another up to comments in the files and in what was indexed. -/
structure PrunesTo (c c' : Compilation) : Prop where
  files : c.files.Alike SourceFile.PrunesTo c'.files
  indexes : c.indexes.Alike (OrderedMap.Alike Declaration.PrunesTo) c'.indexes
  events : c'.events = c.events
  consulted : c'.consulted = c.consulted

theorem PrunesTo.refl (c : Compilation) : c.PrunesTo c :=
  ⟨.refl SourceFile.PrunesTo.refl c.files, .refl (OrderedMap.Alike.refl Declaration.PrunesTo.refl) c.indexes, rfl, rfl⟩

variable {w : Workspace} {c c' : Compilation} {file other : SourceFile}

theorem PrunesTo.consulting (pruned : c.PrunesTo c') (path : Path) : (c.consulting path).PrunesTo (c'.consulting path) :=
  ⟨pruned.files, pruned.indexes, pruned.events, congrArg (path :: ·) pruned.consulted⟩

theorem PrunesTo.probing (pruned : c.PrunesTo c') (w : Workspace) (reference : Text) :
    (c.probing w reference).PrunesTo (c'.probing w reference) := by
  unfold Compilation.probing
  split
  · exact pruned.consulting _
  · exact pruned

theorem PrunesTo.reading (pruned : c.PrunesTo c') (path : Path) (read : file.PrunesTo other) :
    (c.reading path file).PrunesTo (c'.reading path other) :=
  ⟨pruned.files.insert path read, pruned.indexes, congrArg (· ++ [CompilationEvent.parsed path]) pruned.events,
    congrArg (path :: ·) pruned.consulted⟩

theorem PrunesTo.indexing (pruned : c.PrunesTo c') (path : Path) {index index' : DeclarationIndex}
    (built : index.Alike Declaration.PrunesTo index') :
    (c.indexing path index).PrunesTo (c'.indexing path index') := by
  refine ⟨pruned.files, pruned.indexes.insert path built, ?_, pruned.consulted⟩
  simp only [Compilation.indexing, pruned.events, built.size]

theorem PrunesTo.chainBound (pruned : c.PrunesTo c') (w : Workspace) : chainBound w c' = chainBound w c := by
  rw [Compilation.chainBound, Compilation.chainBound, pruned.files.size]

theorem PrunesTo.nestingBound (pruned : c.PrunesTo c') (w : Workspace) (same : file.PrunesTo other) :
    nestingBound w c' other = nestingBound w c file := by
  have sizes {entries entries' : List (Path × SourceFile)}
      (lists : List.Forall₂ (SameKey SourceFile.PrunesTo) entries entries') (n : Nat) :
      (entries'.map Prod.snd).foldl (fun n cached => n + nameBound cached.bytes) n =
        (entries.map Prod.snd).foldl (fun n cached => n + nameBound cached.bytes) n := by
    induction lists generalizing n with
    | nil => rfl
    | cons entry _ ih => simp only [List.map_cons, List.foldl_cons, entry.2.bytes, ih]
  unfold Compilation.nestingBound OrderedMap.values
  rw [sizes pruned.files, same.bytes]

/-! ### Steps -/

variable {α α' β β' : Type} {R : α → α' → Prop} {S : β → β' → Prop}

/-- Two steps fail alike or have related results, from states that differ in comments only, and so do the states they
reach. -/
def Alike (w : Workspace) (R : α → α' → Prop) (step : Compile α) (other : Compile α') : Prop :=
  ∀ c c' : Compilation, c.PrunesTo c' →
    AgreeUpTo R (run step w c).1 (run other w c').1 ∧ (run step w c).2.PrunesTo (run other w c').2

namespace Alike

theorem lift {x : Except Error α} {y : Except Error α'} (agree : AgreeUpTo R x y) : Alike w R (liftM x) (liftM y) :=
  fun _ _ pruned => ⟨agree, pruned⟩

theorem pure {a : α} {b : α'} (related : R a b) : Alike w R (Pure.pure a) (Pure.pure b) :=
  fun _ _ pruned => ⟨.ok related, pruned⟩

theorem raise (e : Error) : Alike w R (throw e) (throw e) := fun _ _ pruned => ⟨.error e, pruned⟩

theorem bind {step : Compile α} {other : Compile α'} {next : α → Compile β} {next' : α' → Compile β'}
    (first : Alike w R step other) (second : ∀ a b, R a b → Alike w S (next a) (next' b)) :
    Alike w S (step >>= next) (other >>= next') := by
  intro c c' pruned
  obtain ⟨agree, after⟩ := first c c' pruned
  rcases agree.either with ⟨e, failed, failed'⟩ | ⟨a, b, done, done', related⟩
  · rw [run_bind_error next failed, run_bind_error next' failed']
    exact ⟨.error e, after⟩
  · rw [run_bind_ok next done, run_bind_ok next' done']
    exact second a b related _ _ after

theorem mapM {f : α → Compile β} {g : α' → Compile β'} (each : ∀ a b, R a b → Alike w S (f a) (g b)) {l : List α}
    {l' : List α'} (lists : List.Forall₂ R l l') : Alike w (List.Forall₂ S) (l.mapM f) (l'.mapM g) := by
  induction lists with
  | nil => exact pure .nil
  | cons related _ ih =>
    rw [List.mapM_cons, List.mapM_cons]
    exact (each _ _ related).bind fun _ _ first => ih.bind fun _ _ rest => pure (.cons first rest)

theorem foldlM {f : β → α → Compile β} {g : β' → α' → Compile β'}
    (each : ∀ b b' a a', S b b' → R a a' → Alike w S (f b a) (g b' a')) {l : List α} {l' : List α'}
    (lists : List.Forall₂ R l l') {b : β} {b' : β'} (start : S b b') : Alike w S (l.foldlM f b) (l'.foldlM g b') := by
  induction lists generalizing b b' with
  | nil => exact pure start
  | cons related _ ih =>
    rw [List.foldlM_cons, List.foldlM_cons]
    exact (each _ _ _ _ start related).bind fun _ _ next => ih next

theorem load (path : Path) : Alike w SourceFile.PrunesTo (load path) (load path) := by
  intro c c' pruned
  rw [run_load, run_load]
  rcases exists_of_rel (pruned.files.get? path) with ⟨absent, absent'⟩ | ⟨file, other, found, found', same⟩
  · rw [absent, absent']
    cases w.read path with
    | error e => exact ⟨.error e, pruned.consulting path⟩
    | ok bytes => exact ⟨.ok (.refl _), pruned.reading path (.refl _)⟩
  · rw [found, found']
    exact ⟨.ok same, pruned⟩

theorem loadReference (reference : Text) (base : Option Path) :
    Alike w SourceFile.PrunesTo (loadReference reference base) (loadReference reference base) := by
  intro c c' pruned
  rw [run_loadReference, run_loadReference]
  cases w.resolve reference base with
  | error e => exact ⟨.error e, pruned.probing w reference⟩
  | ok path => exact load path _ _ (pruned.probing w reference)

theorem loadImport (same : file.PrunesTo other) (name : Text) :
    Alike w (Option.Rel SourceFile.PrunesTo) (loadImport file name) (loadImport other name) := by
  unfold Compilation.loadImport
  rw [same.namedImports, SourceFile.directory, SourceFile.directory, same.path]
  refine (lift (.refl file.namedImports)).bind ?_
  rintro table _ rfl
  cases table.get? name with
  | none => exact pure .none
  | some reference => exact (loadReference reference _).bind fun _ _ loaded => pure (.some loaded)

/-- A binding in a file is another one up to comments. -/
def Bound (found found' : SourceFile × Declarator) : Prop := found.1.PrunesTo found'.1 ∧ found.2.PrunesTo found'.2

theorem searchBinding (name : Text) (bound : Nat) (seen : List Path) (same : file.PrunesTo other) :
    Alike w (Option.Rel Bound) (searchBinding name bound seen file) (searchBinding name bound seen other) := by
  induction bound generalizing seen file other with
  | zero => exact raise .unfinished
  | succ bound ih =>
    simp only [Compilation.searchBinding, same.path]
    split
    · exact pure .none
    · refine (lift (same.binding? name)).bind fun found found' related => ?_
      cases related with
      | some declared => exact pure (.some ⟨same, declared⟩)
      | none =>
        refine (loadImport same name).bind fun next next' loaded => ?_
        cases loaded with
        | none => exact pure .none
        | some loaded => exact ih _ loaded

theorem resolveBinding (same : file.PrunesTo other) (name : Text) :
    Alike w (Option.Rel Bound) (resolveBinding file name) (resolveBinding other name) := by
  intro c c' pruned
  rw [run_resolveBinding, run_resolveBinding, pruned.chainBound]
  exact searchBinding name _ [] same c c' pruned

/-- Expressions that differ in comments only are followed to literals that differ in comments only. -/
def Following (w : Workspace) (follow : Follow) : Prop :=
  ∀ (active : List BindingKey) {file other : SourceFile} {n m : Node}, file.PrunesTo other → n.PrunesTo m →
    Alike w (List.Forall₂ Node.PrunesTo) (follow active file n) (follow active other m)

theorem memberLiterals {follow : Follow} (following : Following w follow) (active : List BindingKey)
    (same : file.PrunesTo other) {n m : Node} (pruned : n.PrunesTo m) :
    Alike w (List.Forall₂ Node.PrunesTo) (memberLiterals follow active file n) (memberLiterals follow active other m) := by
  unfold Compilation.memberLiterals
  refine (lift (Shape.agree_ofNode pruned)).bind fun shape shape' related => ?_
  cases related with
  | inlineObject literal => exact pure (.cons literal .nil)
  | _ =>
    -- of any other shape a member counts only if it is a name
    dsimp only
    rw [pruned.kind, pruned.text]
    split
    · refine (lift (.refl n.text)).bind ?_
      rintro name _ rfl
      refine (resolveBinding same name).bind fun found found' bound => ?_
      cases bound with
      | none => exact pure .nil
      | @some found found' bound =>
        obtain ⟨owner, declarator⟩ := found
        obtain ⟨owner', declarator'⟩ := found'
        obtain ⟨owned, declared⟩ := bound
        dsimp only
        rcases exists_of_rel declared.value? with ⟨absent, absent'⟩ | ⟨value, value', given, given', valued⟩
        · rw [absent, absent']
          exact pure .nil
        · rw [given, given', owned.path]
          dsimp only
          split
          · exact pure .nil
          · exact following _ owned valued
    · exact pure .nil

theorem literalsWith {follow : Follow} (following : Following w follow) : Following w (literalsWith follow) := by
  intro active file other n m same pruned
  refine (lift (Shape.agree_ofNode pruned)).bind fun shape shape' related => ?_
  cases related with
  | inlineObject literal => exact pure (.cons literal .nil)
  | composeCall members =>
    refine (mapM (fun _ _ member => memberLiterals following active same member) members).bind fun _ _ lists => ?_
    exact pure (List.rel_flatten lists)
  | _ => exact pure .nil

theorem objectLiterals (depth : Nat) : Following w (objectLiterals depth) := by
  induction depth with
  | zero => exact fun _ _ _ _ _ _ _ => raise .unfinished
  | succ depth ih => exact literalsWith ih

theorem valueLiterals (same : file.PrunesTo other) (name : Text) {n m : Node} (pruned : n.PrunesTo m) :
    Alike w (List.Forall₂ Node.PrunesTo) (valueLiterals file name n) (valueLiterals other name m) := by
  intro c c' states
  rw [run_valueLiterals, run_valueLiterals, states.nestingBound w same, same.path]
  exact objectLiterals _ _ same pruned c c' states

theorem indexDeclarator (same : file.PrunesTo other) {index index' : DeclarationIndex} {named named' : Text × Declarator}
    (sofar : index.Alike Declaration.PrunesTo index') (declared : SameKey Declarator.PrunesTo named named') :
    Alike w (OrderedMap.Alike Declaration.PrunesTo)
      (indexDeclarator (Compilation.valueLiterals file) file index named)
      (indexDeclarator (Compilation.valueLiterals other) other index' named') := by
  obtain ⟨name, declarator⟩ := named
  obtain ⟨name', declarator'⟩ := named'
  obtain ⟨rfl, declared⟩ := declared
  unfold Compilation.indexDeclarator
  dsimp only
  rcases exists_of_rel declared.value? with ⟨absent, absent'⟩ | ⟨value, value', given, given', valued⟩
  · rw [absent, absent']
    exact pure sofar
  · rw [given, given']
    refine (valueLiterals same _ valued).bind fun objects objects' lists => ?_
    -- there are objects on both sides or on none
    cases lists with
    | nil => exact pure sofar
    | cons object others => exact pure (sofar.insert _ ⟨rfl, .cons object others, same⟩)

theorem buildIndex (same : file.PrunesTo other) :
    Alike w (OrderedMap.Alike Declaration.PrunesTo) (buildIndex file) (buildIndex other) := by
  have start : OrderedMap.Alike Declaration.PrunesTo (.empty : DeclarationIndex) .empty := List.Forall₂.nil
  refine (lift same.declarators).bind fun named named' lists => ?_
  apply foldlM _ lists start
  intro index index' named named' sofar declared
  exact indexDeclarator same sofar declared

/-- The index of a file does not depend on comments, whatever the pass has done before. -/
theorem indexDeclarations (same : file.PrunesTo other) :
    Alike w (OrderedMap.Alike Declaration.PrunesTo) (indexDeclarations file) (indexDeclarations other) := by
  intro c c' pruned
  rw [run_indexDeclarations, run_indexDeclarations, same.path]
  rcases exists_of_rel (pruned.indexes.get? file.path) with ⟨absent, absent'⟩ | ⟨index, index', found, found', alike⟩
  · rw [absent, absent']
    have built : Alike w _ _ _ := buildIndex same
    obtain ⟨agree, after⟩ := built c c' pruned
    generalize run (Compilation.buildIndex file) w c = outcome at agree after
    generalize run (Compilation.buildIndex other) w c' = outcome' at agree after
    obtain ⟨result, state⟩ := outcome
    obtain ⟨result', state'⟩ := outcome'
    cases agree with
    | error e => exact ⟨.error e, after⟩
    | ok index => exact ⟨.ok index, after.indexing file.path index⟩
  · rw [found, found']
    exact ⟨.ok alike, pruned⟩

end Alike

/-- Comments change nothing that is compiled. In the tree of a source every comment is bare, so that it may be taken out.
Whatever comments are taken out of a tree, an expression has the same shape up to comments, it is unwrapped to a node of the
same kind and it has the same type, a literal has the same fields, as long as no documentation is asked for, and publishes
the same table. A file publishes the same module table and imports the same names, and its index has the same names in the
same order with the same objects up to comments, also if comments are taken out of other files of the pass. -/
theorem comments_leave_no_trace :
    (∀ (dialect : Dialect) (bytes : ByteArray) (part : Node), part.PartOf (Syntax.parse dialect bytes) →
      part.isComment = true → part.BareComment) ∧
    (∀ n m : Node, n.PrunesTo m →
      AgreeUpTo Shape.PrunesTo (Shape.ofNode n) (Shape.ofNode m) ∧ m.unwrap.kind = n.unwrap.kind ∧
      (∀ aliases depth, inferType aliases depth m = inferType aliases depth n) ∧
      Field.ofLiteral false m = Field.ofLiteral false n ∧ ModuleTable.ofLiteral m = ModuleTable.ofLiteral n) ∧
    ∀ file other : SourceFile, file.PrunesTo other →
      ModuleTable.find other = ModuleTable.find file ∧ other.namedImports = file.namedImports ∧
      ∀ (w : Workspace) (c c' : Compilation), c.PrunesTo c' →
        AgreeUpTo (OrderedMap.Alike Declaration.PrunesTo) (run (indexDeclarations file) w c).1
          (run (indexDeclarations other) w c').1 := by
  refine ⟨fun dialect bytes part inside comment => ?_, fun n m pruned => ?_, fun file other same => ?_⟩
  · exact TreeParser.standard_lawful.bare inside (beq_iff_eq.mp comment)
  · exact ⟨Shape.agree_ofNode pruned, pruned.unwrap.kind, inferType_eq_of_prunesTo pruned,
      Field.ofLiteral_eq_of_prunesTo pruned, ModuleTable.ofLiteral_eq_of_prunesTo pruned⟩
  · refine ⟨ModuleTable.find_eq_of_prunesTo same, same.namedImports, fun w c c' pruned => ?_⟩
    exact (Alike.indexDeclarations same c c' pruned).1

/-- Comments before and in an import, in a call and in an object that a composition has for a member. -/
def commentedPair : Workspace :=
  .ofSources [("a.ts", "//a\nimport\x7b/*b*/B\x7dfrom'./b'\nlet A=compose(/*c*/B,Type.Object(\x7b/*d*/\x7d))"),
    ("b.ts", "let B=Type.Object(\x7b\x7d)")]

def commentedBytes : ByteArray := (commentedPair.read (.ofText "/w/a.ts")).toOption.getD .empty

def commentedFile : SourceFile := commentedPair.parse (.ofText "/w/a.ts") commentedBytes

def uncommentedFile : SourceFile := .uncommented TreeParser.standard_lawful (.ofText "/w/a.ts") commentedBytes

/-- A literal with comments before a pair, before its value and in calls. -/
def commentedLiteral : Node := Field.literalOf "(\x7b/*a*/x:/*b*/Type.Optional(/*c*/Type.String(/*d*/))\x7d)"

set_option maxRecDepth 100000 in
theorem comments_leave_no_trace_commentedPair :
    commentedLiteral.children.any Node.isComment = true ∧
    (Field.ofLiteral false commentedLiteral.uncommented).toOption.map (List.map Field.name) = some [("x" : Text)] ∧
    Field.ofLiteral false commentedLiteral.uncommented = Field.ofLiteral false commentedLiteral ∧
    commentedFile.root.children.any Node.isComment = true ∧ uncommentedFile.root.children.any Node.isComment = false ∧
    (run (indexDeclarations uncommentedFile) commentedPair {}).1.toOption.map OrderedMap.keys = some (["A"] : List Text) ∧
    ModuleTable.find uncommentedFile = ModuleTable.find commentedFile ∧
    uncommentedFile.namedImports = commentedFile.namedImports ∧
    AgreeUpTo (OrderedMap.Alike Declaration.PrunesTo) (run (indexDeclarations commentedFile) commentedPair {}).1
      (run (indexDeclarations uncommentedFile) commentedPair {}).1 := by
  have inside : commentedLiteral.PartOf (Syntax.parse .typescript _) := Field.literalOf_partOf _
  have thinned : commentedLiteral.PrunesTo commentedLiteral.uncommented := by
    apply Node.prunesTo_uncommented
    intro part within comment
    exact comments_leave_no_trace.1 _ _ part (within.trans inside) (by rw [Node.isComment, comment]; rfl)
  have remarked : commentedLiteral.children.any Node.isComment = true := by decide +kernel
  have fields : (Field.ofLiteral false commentedLiteral.uncommented).toOption.map (List.map Field.name) =
      some [("x" : Text)] := by
    decide +kernel
  have read := comments_leave_no_trace.2.1 _ _ thinned
  have pruned : commentedFile.PrunesTo uncommentedFile := SourceFile.parse_prunesTo_uncommented _ _ _
  have commented : commentedFile.root.children.any Node.isComment = true := by decide +kernel
  have uncommented : uncommentedFile.root.children.any Node.isComment = false := by decide +kernel
  have names : (run (indexDeclarations uncommentedFile) commentedPair {}).1.toOption.map OrderedMap.keys =
      some (["A"] : List Text) := by
    decide +kernel
  have same := comments_leave_no_trace.2.2 commentedFile uncommentedFile pruned
  exact ⟨remarked, fields, read.2.2.2.1, commented, uncommented, names, same.1, same.2.1,
    same.2.2 commentedPair {} {} (.refl {})⟩

end Compilation

end SchemaTypes
