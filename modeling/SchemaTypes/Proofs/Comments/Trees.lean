import Mathlib.Data.List.Forall2
import SchemaTypes.ModuleTable
import SchemaTypes.Proofs.Words.Lines

/-!
Trees without some of their comments. What is read off a tree is picked by kinds and roles: the members of a node and the
children that play a part in it are never comments, and so they stay, in their order, when comments go. Shapes are the
same up to the comments inside the nodes that they carry. Schemas, fields, module tables and imports are the same.
-/

namespace SchemaTypes

open Syntax

/-! ### Outcomes up to a relation -/

/-- Two computations fail alike or have related results. -/
inductive AgreeUpTo {ε α β : Type} (R : α → β → Prop) : Except ε α → Except ε β → Prop
  | error (e : ε) : AgreeUpTo R (.error e) (.error e)
  | ok {a : α} {b : β} (related : R a b) : AgreeUpTo R (.ok a) (.ok b)

/-- Two entries have one key and related values. -/
def SameKey {κ α β : Type} (R : α → β → Prop) (entry : κ × α) (other : κ × β) : Prop :=
  other.1 = entry.1 ∧ R entry.2 other.2

namespace AgreeUpTo

variable {ε α α' β β' : Type} {R : α → α' → Prop} {S : β → β' → Prop}

theorem either {x : Except ε α} {y : Except ε α'} (agree : AgreeUpTo R x y) :
    (∃ e, x = .error e ∧ y = .error e) ∨ ∃ a b, x = .ok a ∧ y = .ok b ∧ R a b := by
  cases agree with
  | error e => exact .inl ⟨e, rfl, rfl⟩
  | ok related => exact .inr ⟨_, _, rfl, rfl, related⟩

theorem refl (x : Except ε α) : AgreeUpTo Eq x x := by
  cases x with
  | error e => exact .error e
  | ok a => exact .ok rfl

theorem eq {x y : Except ε α} (agree : AgreeUpTo Eq x y) : x = y := by
  cases agree with
  | error e => rfl
  | ok same => rw [same]

theorem bind {x : Except ε α} {y : Except ε α'} {f : α → Except ε β} {g : α' → Except ε β'} (first : AgreeUpTo R x y)
    (second : ∀ a b, R a b → AgreeUpTo S (f a) (g b)) : AgreeUpTo S (x >>= f) (y >>= g) := by
  cases first with
  | error e => exact .error e
  | ok related => exact second _ _ related

theorem filterMapM {f : α → Except ε (Option β)} {g : α' → Except ε (Option β')} {l : List α} {l' : List α'}
    (lists : List.Forall₂ R l l') (each : ∀ a b, R a b → AgreeUpTo (Option.Rel S) (f a) (g b)) :
    AgreeUpTo (List.Forall₂ S) (l.filterMapM f) (l'.filterMapM g) := by
  induction lists with
  | nil => exact .ok .nil
  | cons related _ ih =>
    rw [List.filterMapM_cons, List.filterMapM_cons]
    refine (each _ _ related).bind fun found found' same => ?_
    cases same with
    | none => exact ih
    | some first => exact ih.bind fun _ _ rest => .ok (.cons first rest)

end AgreeUpTo

theorem foldlM_eq_of_forall₂ {ε α α' β : Type} {R : α → α' → Prop} {f : β → α → Except ε β} {g : β → α' → Except ε β}
    {l : List α} {l' : List α'} (lists : List.Forall₂ R l l') (each : ∀ b a a', R a a' → g b a' = f b a) (b : β) :
    l'.foldlM g b = l.foldlM f b := by
  induction lists generalizing b with
  | nil => rfl
  | cons related _ ih => simp only [List.foldlM_cons, each _ _ _ related, ih]

theorem exists_of_rel {α β : Type} {R : α → β → Prop} {x : Option α} {y : Option β} (related : Option.Rel R x y) :
    (x = none ∧ y = none) ∨ ∃ a b, x = some a ∧ y = some b ∧ R a b := by
  cases related with
  | none => exact .inl ⟨rfl, rfl⟩
  | some holds => exact .inr ⟨_, _, rfl, rfl, holds⟩

theorem rel_head? {α β : Type} {R : α → β → Prop} {l : List α} {l' : List β} (lists : List.Forall₂ R l l') :
    Option.Rel R l.head? l'.head? := by
  cases lists with
  | nil => exact .none
  | cons related _ => exact .some related

theorem rel_lookup {κ α β : Type} [BEq κ] {R : α → β → Prop} {l : List (κ × α)} {l' : List (κ × β)}
    (lists : List.Forall₂ (SameKey R) l l') (key : κ) : Option.Rel R (l.lookup key) (l'.lookup key) := by
  induction lists with
  | nil => exact .none
  | @cons entry other _ _ related _ ih =>
    obtain ⟨name, value⟩ := entry
    obtain ⟨name', value'⟩ := other
    obtain ⟨same, related⟩ := related
    cases same
    rw [List.lookup_cons, List.lookup_cons]
    split
    · exact .some related
    · exact ih

namespace Syntax.Node

/-! ### Nodes -/

mutual

/-- One node is another without some of the comments in it, at any depth. All else stays as it is. -/
inductive PrunesTo : Node → Node → Prop
  | mk {kind : Kind} {role : Option Role} {bytes : List UInt8} {startRow endRow : Nat} {children kept : List Node}
      (inside : AllPruneTo children kept) :
      PrunesTo (.mk kind role bytes startRow endRow children) (.mk kind role bytes startRow endRow kept)

/-- Some nodes are others without some of the comments that are among them or in them. -/
inductive AllPruneTo : List Node → List Node → Prop
  | nil : AllPruneTo [] []
  | keep {n m : Node} {rest kept : List Node} (node : PrunesTo n m) (others : AllPruneTo rest kept) :
      AllPruneTo (n :: rest) (m :: kept)
  | drop {n : Node} {rest kept : List Node} (bare : n.BareComment) (others : AllPruneTo rest kept) :
      AllPruneTo (n :: rest) kept

end

mutual

theorem PrunesTo.refl : ∀ n : Node, n.PrunesTo n
  | .mk _ _ _ _ _ children => .mk (AllPruneTo.refl children)

theorem AllPruneTo.refl : ∀ l : List Node, AllPruneTo l l
  | [] => .nil
  | child :: rest => .keep (PrunesTo.refl child) (AllPruneTo.refl rest)

end

mutual

/-- A node without any of the comments in it. -/
def uncommented : Node → Node
  | .mk kind role bytes startRow endRow children => .mk kind role bytes startRow endRow (uncommentedAll children)

def uncommentedAll : List Node → List Node
  | [] => []
  | child :: rest => if child.isComment then uncommentedAll rest else uncommented child :: uncommentedAll rest

end

mutual

/-- All comments can go if all of them are bare. -/
theorem prunesTo_uncommented (n : Node) (bare : ∀ part : Node, part.PartOf n → part.kind = .comment → part.BareComment) :
    n.PrunesTo n.uncommented := by
  obtain ⟨kind, role, bytes, startRow, endRow, children⟩ := n
  rw [uncommented]
  apply PrunesTo.mk
  apply allPruneTo_uncommentedAll
  intro child member part inside
  exact bare part (inside.trans (partOf_of_mem_children member))

theorem allPruneTo_uncommentedAll (l : List Node)
    (bare : ∀ child ∈ l, ∀ part : Node, part.PartOf child → part.kind = .comment → part.BareComment) :
    AllPruneTo l (uncommentedAll l) := by
  cases l with
  | nil => exact .nil
  | cons child rest =>
    have others := allPruneTo_uncommentedAll rest fun child member => bare child (List.mem_cons_of_mem _ member)
    have here := bare child List.mem_cons_self
    rw [uncommentedAll]
    split
    next comment => exact .drop (here child (.refl child) (beq_iff_eq.mp comment)) others
    · exact .keep (prunesTo_uncommented child here) others

end

namespace PrunesTo

variable {n m : Node}

theorem kind (pruned : n.PrunesTo m) : m.kind = n.kind := by
  cases pruned
  rfl

theorem role (pruned : n.PrunesTo m) : m.role = n.role := by
  cases pruned
  rfl

theorem text (pruned : n.PrunesTo m) : m.text = n.text := by
  cases pruned
  rfl

theorem children (pruned : n.PrunesTo m) : AllPruneTo n.children m.children := by
  cases pruned with
  | mk inside => exact inside

end PrunesTo

mutual

theorem PrunesTo.spells {text : ByteArray} : ∀ {n m : Node}, n.PrunesTo m → n.Spells text → m.Spells text
  | _, _, .mk inside, .mk slice spelled => .mk slice (inside.spells spelled)

theorem AllPruneTo.spells {text : ByteArray} : ∀ {l kept : List Node}, AllPruneTo l kept →
    (∀ child ∈ l, child.Spells text) → ∀ child ∈ kept, child.Spells text
  | _, _, .nil, _ => by simp
  | _, _, .keep node others, spelled => by
    intro child member
    rcases List.mem_cons.mp member with rfl | later
    · exact node.spells (spelled _ List.mem_cons_self)
    · exact others.spells (fun other listed => spelled other (List.mem_cons_of_mem _ listed)) child later
  | _, _, .drop _ others, spelled => others.spells fun other listed => spelled other (List.mem_cons_of_mem _ listed)

end

/-- What picks no comments picks the same nodes, up to the comments in them. -/
theorem AllPruneTo.filter {p : Node → Bool} (same : ∀ {n m : Node}, n.PrunesTo m → p m = p n)
    (solid : ∀ {n : Node}, n.BareComment → p n = false) {l kept : List Node} (pruned : AllPruneTo l kept) :
    List.Forall₂ PrunesTo (l.filter p) (kept.filter p) := by
  induction l generalizing kept with
  | nil =>
    cases pruned
    exact .nil
  | cons n rest ih =>
    cases pruned with
    | keep node others =>
      rw [List.filter_cons, List.filter_cons, same node]
      split
      · exact .cons node (ih others)
      · exact ih others
    | drop bare others =>
      -- what goes was not picked before
      rw [List.filter_cons_of_neg (by simp [solid bare])]
      exact ih others

theorem unwrap_of_empty {n : Node} (empty : n.members = []) : n.unwrap = n := by
  rw [unwrap]
  split
  · split
    · rfl
    next found =>
      rw [empty] at found
      cases found
  · rfl

theorem unwrap_of_cons {n inner : Node} {rest : List Node} (wrapper : n.kind.isWrapper = true)
    (listed : n.members = inner :: rest) : n.unwrap = inner.unwrap := by
  rw [unwrap, if_pos wrapper]
  split
  next found =>
    rw [listed] at found
    cases found
  next found =>
    rw [listed] at found
    cases found
    rfl

namespace PrunesTo

variable {n m : Node}

theorem members (pruned : n.PrunesTo m) : List.Forall₂ PrunesTo n.members m.members := by
  apply pruned.children.filter
  · intro n m pruned
    simp only [isComment, pruned.kind]
  · intro n bare
    simp [isComment, bare.comment]

/-- The children of a kind that is not that of comments. -/
theorem ofKind (pruned : n.PrunesTo m) {kind : Kind} (solid : kind ≠ .comment) :
    List.Forall₂ PrunesTo (n.children.filter (·.kind == kind)) (m.children.filter (·.kind == kind)) := by
  apply pruned.children.filter
  · intro n m pruned
    rw [pruned.kind]
  · intro n bare
    simpa [bare.comment] using Ne.symm solid

theorem membersOfKind (pruned : n.PrunesTo m) (kind : Kind) :
    List.Forall₂ PrunesTo (n.members.filter (·.kind == kind)) (m.members.filter (·.kind == kind)) := by
  apply List.rel_filter _ pruned.members
  intro n m pruned
  simp only [pruned.kind]

/-- No comment plays a part in a node. -/
theorem child? (pruned : n.PrunesTo m) (role : Role) : Option.Rel PrunesTo (n.child? role) (m.child? role) := by
  rw [Node.child?, Node.child?, ← List.head?_filter, ← List.head?_filter]
  apply rel_head?
  apply pruned.children.filter
  · intro n m pruned
    rw [pruned.role]
  · intro n bare
    simp [bare.role]

theorem callArguments (pruned : n.PrunesTo m) : List.Forall₂ PrunesTo n.callArguments m.callArguments := by
  unfold Node.callArguments
  rcases exists_of_rel (pruned.child? .arguments) with ⟨absent, absent'⟩ | ⟨list, list', found, found', listed⟩
  · rw [absent, absent']
    exact .nil
  · rw [found, found']
    simp only [listed.kind]
    split
    · exact listed.members
    · exact .nil

theorem unwrap (pruned : n.PrunesTo m) : n.unwrap.PrunesTo m.unwrap := by
  fun_induction Node.unwrap n generalizing m with
  | case1 n wrapper none =>
    have lists := pruned.members
    rw [none] at lists
    rw [unwrap_of_empty (List.forall₂_nil_left_iff.mp lists)]
    exact pruned
  | case2 n wrapper inner rest listed ih =>
    have lists := pruned.members
    rw [listed] at lists
    obtain ⟨inner', rest', first, -, listed'⟩ := List.forall₂_cons_left_iff.mp lists
    rw [unwrap_of_cons (by rwa [pruned.kind]) listed']
    exact ih first
  | case3 n plain =>
    rw [Node.unwrap, if_neg (by rwa [pruned.kind])]
    exact pruned

theorem fieldName (pruned : n.PrunesTo m) : m.fieldName = n.fieldName := by
  simp only [Node.fieldName, pruned.kind, pruned.text]

theorem stringValue (pruned : n.PrunesTo m) : m.stringValue = n.stringValue := by
  rw [Node.stringValue, Node.stringValue, pruned.text]

theorem keyAndValue (pruned : n.PrunesTo m) :
    AgreeUpTo (Option.Rel (SameKey PrunesTo)) n.keyAndValue m.keyAndValue := by
  unfold Node.keyAndValue
  rcases exists_of_rel (pruned.child? .key) with ⟨absent, absent'⟩ | ⟨key, key', found, found', named⟩
  · rw [absent, absent']
    exact .ok .none
  · rw [found, found']
    dsimp only
    rw [named.fieldName]
    cases key.fieldName with
    | error e => exact .error e
    | ok name =>
      cases name with
      | none => exact .ok .none
      | some name =>
        rcases exists_of_rel (pruned.child? .value) with ⟨absent, absent'⟩ | ⟨value, value', found, found', valued⟩
        · rw [absent, absent']
          exact .ok .none
        · rw [found, found']
          exact .ok (.some ⟨rfl, valued⟩)

end PrunesTo

end Syntax.Node

/-! ### Shapes -/

/-- One shape is another up to comments in the nodes that it carries. -/
inductive Shape.PrunesTo : Shape → Shape → Prop
  | primitive (type : Primitive) : PrunesTo (.primitive type) (.primitive type)
  | optionalOf {n m : Node} (inner : n.PrunesTo m) : PrunesTo (.optionalOf n) (.optionalOf m)
  | arrayOf {n m : Node} (inner : n.PrunesTo m) : PrunesTo (.arrayOf n) (.arrayOf m)
  | inlineObject {n m : Node} (literal : n.PrunesTo m) : PrunesTo (.inlineObject n) (.inlineObject m)
  | reference (base : Text) : PrunesTo (.reference base) (.reference base)
  | composeCall {l l' : List Node} (members : List.Forall₂ Node.PrunesTo l l') :
      PrunesTo (.composeCall l) (.composeCall l')
  | moduleImport {n m : Node} (key : n.PrunesTo m) : PrunesTo (.moduleImport n) (.moduleImport m)
  | moduleTable {n m : Node} (entries : n.PrunesTo m) : PrunesTo (.moduleTable n) (.moduleTable m)
  | identifier (name : Text) : PrunesTo (.identifier name) (.identifier name)
  | unrecognized (kind : Kind) : PrunesTo (.unrecognized kind) (.unrecognized kind)

namespace Shape

variable {args args' : List Node}

theorem PrunesTo.ofBuilderCall (method : Text) (pruned : List.Forall₂ Node.PrunesTo args args') :
    (ofBuilderCall method args).PrunesTo (ofBuilderCall method args') := by
  have rest : (ofBuilderCall.rest method args (.unrecognized .callExpression)).PrunesTo
      (ofBuilderCall.rest method args' (.unrecognized .callExpression)) := by
    unfold ofBuilderCall.rest
    cases primitive? method with
    | some type => exact .primitive type
    | none =>
      cases pruned with
      | nil => exact .unrecognized _
      | cons first others =>
        simp only [first.kind, first.unwrap.kind]
        split
        · exact .inlineObject first
        · split
          · exact .moduleTable first.unwrap
          · exact .unrecognized _
  unfold Shape.ofBuilderCall
  cases pruned with
  | nil => exact rest
  | cons first others =>
    cases others with
    | cons second others => exact rest
    | nil =>
      dsimp only
      split
      · exact .optionalOf first
      · split
        · exact .arrayOf first
        · exact rest

theorem PrunesTo.ofMethodCall (receiver method : Text) (pruned : List.Forall₂ Node.PrunesTo args args') :
    (ofMethodCall receiver method args).PrunesTo (ofMethodCall receiver method args') := by
  have other : (ofMethodCall.other receiver method args).PrunesTo (ofMethodCall.other receiver method args') := by
    unfold ofMethodCall.other
    split
    · exact .ofBuilderCall method pruned
    · exact .unrecognized _
  unfold Shape.ofMethodCall
  cases pruned with
  | nil => exact other
  | cons first others =>
    cases others with
    | cons second others => exact other
    | nil =>
      dsimp only
      split
      · exact .moduleImport first
      · exact other

variable {n m callee callee' : Node}

theorem agree_ofCall (pruned : n.PrunesTo m) (called : callee.PrunesTo callee') :
    AgreeUpTo PrunesTo (ofCall n callee) (ofCall m callee') := by
  unfold ofCall
  rw [called.kind, called.text]
  split
  · cases callee.text with
    | error e => exact .error e
    | ok name =>
      change AgreeUpTo PrunesTo (if name = _ then _ else _) (if name = _ then _ else _)
      split
      · exact .ok (.composeCall pruned.callArguments)
      · exact .ok (.unrecognized _)
  · split
    · rcases exists_of_rel (called.child? .receiver) with ⟨absent, absent'⟩ | ⟨receiver, receiver', found, found', received⟩
      · rw [absent, absent']
        exact .ok (.unrecognized _)
      · rw [found, found']
        rcases exists_of_rel (called.child? .property) with ⟨absent, absent'⟩ | ⟨method, method', found, found', named⟩
        · rw [absent, absent']
          exact .ok (.unrecognized _)
        · rw [found, found']
          dsimp only
          rw [received.text, named.text]
          cases receiver.text with
          | error e => exact .error e
          | ok receiver =>
            cases method.text with
            | error e => exact .error e
            | ok method => exact .ok (.ofMethodCall receiver method pruned.callArguments)
    · exact .ok (.unrecognized _)

/-- The shape of an expression does not depend on comments. -/
theorem agree_ofNode (pruned : n.PrunesTo m) : AgreeUpTo PrunesTo (ofNode n) (ofNode m) := by
  unfold ofNode
  rw [pruned.kind, pruned.text]
  split
  · cases n.text with
    | error e => exact .error e
    | ok name =>
      cases based : referenceBase? name with
      | none =>
        simp only [based, bind, Except.bind]
        exact .ok (.identifier name)
      | some base =>
        simp only [based, bind, Except.bind]
        exact .ok (.reference base)
  · split
    · rcases exists_of_rel (pruned.child? .callee) with ⟨absent, absent'⟩ | ⟨callee, callee', found, found', called⟩
      · rw [absent, absent']
        exact .ok (.unrecognized _)
      · rw [found, found']
        exact agree_ofCall pruned called
    · exact .ok (.unrecognized _)

end Shape

/-! ### Schemas and fields -/

namespace Schema

/-- The fields of pairs do not depend on comments if the schemas of their values do not. -/
theorem filterMapM_ofPair_eq {pairs kept : List Node} (pruned : List.Forall₂ Node.PrunesTo pairs kept)
    (same : ∀ pair ∈ pairs, ∀ name value m, pair.keyAndValue = .ok (some (name, value)) → value.PrunesTo m →
      ofNode m = ofNode value) : kept.filterMapM ofPair = pairs.filterMapM ofPair := by
  induction pruned with
  | nil => rfl
  | @cons pair pair' rest kept first _ ih =>
    have here : ofPair pair' = ofPair pair := by
      rcases first.keyAndValue.either with ⟨e, read, read'⟩ | ⟨found, found', read, read', related⟩
      · rw [ofPair, ofPair, read, read']
      · cases related with
        | none => rw [ofPair_of_nameless read, ofPair_of_nameless read']
        | @some named named' keyed =>
          obtain ⟨name, value⟩ := named
          obtain ⟨name', value'⟩ := named'
          obtain ⟨sameName, valued⟩ := keyed
          cases sameName
          rw [ofPair_of_keyAndValue read, ofPair_of_keyAndValue read',
            same pair List.mem_cons_self name value value' read valued]
    rw [List.filterMapM_cons, List.filterMapM_cons, here, ih fun pair member => same pair (List.mem_cons_of_mem _ member)]

/-- The schema of an expression does not depend on comments. -/
theorem ofNode_eq_of_prunesTo {n m : Node} (pruned : n.PrunesTo m) : ofNode m = ofNode n := by
  induction n using reading_induction generalizing m with
  | step n inside values =>
    rw [ofNode_eq_ofShape, ofNode_eq_ofShape]
    rcases (Shape.agree_ofNode pruned).either with ⟨e, read, read'⟩ | ⟨shape, shape', read, read', related⟩
    · rw [read, read']
    · rw [read, read']
      change ofShape shape' = ofShape shape
      cases related with
      | optionalOf inner =>
        have same := inside _ (.inl read) inner
        simp only [ofShape, same]
      | arrayOf inner =>
        have same := inside _ (.inr read) inner
        simp only [ofShape, same]
      | inlineObject literal =>
        have same := filterMapM_ofPair_eq (literal.membersOfKind .pair) fun pair member name value m keyed valued =>
          values _ pair name value read member keyed valued
        simp only [ofShape, Node.pairs, same]
      | _ => rfl

end Schema

theorem inferType_eq_of_prunesTo {n m : Node} (pruned : n.PrunesTo m) (aliases : AliasTable) (depth : Int) :
    inferType aliases depth m = inferType aliases depth n := by
  rw [inferType, inferType, Schema.ofNode_eq_of_prunesTo pruned]

/-- The fields of a literal do not depend on comments if no documentation is asked for. -/
theorem Field.ofLiteral_eq_of_prunesTo {n m : Node} (pruned : n.PrunesTo m) :
    Field.ofLiteral false m = Field.ofLiteral false n := by
  rw [ofLiteral_undocumented, ofLiteral_undocumented]
  have same := Schema.filterMapM_ofPair_eq (pruned.membersOfKind .pair) fun _ _ _ _ _ _ valued =>
    Schema.ofNode_eq_of_prunesTo valued
  simp only [Node.pairs, same]

/-! ### Module tables and files -/

namespace ModuleTable

variable {n m : Node}

theorem computedKey_eq_of_prunesTo (pruned : n.PrunesTo m) : computedKey m = computedKey n := by
  unfold computedKey
  rw [pruned.kind, pruned.stringValue]
  rcases exists_of_rel (pruned.child? .property) with ⟨absent, absent'⟩ | ⟨property, property', found, found', named⟩
  · rw [absent, absent']
  · rw [found, found']
    simp only [named.text]

theorem keyOf_eq_of_prunesTo (pruned : n.PrunesTo m) : keyOf m = keyOf n := by
  unfold keyOf
  rw [pruned.kind, pruned.stringValue, pruned.text]
  have lists := pruned.members
  cases listed : n.members with
  | nil =>
    rw [listed] at lists
    rw [List.forall₂_nil_left_iff.mp lists]
  | cons inner rest =>
    rw [listed] at lists
    obtain ⟨inner', rest', first, -, listed'⟩ := List.forall₂_cons_left_iff.mp lists
    rw [listed']
    simp only [computedKey_eq_of_prunesTo first.unwrap]

theorem publish_eq_of_prunesTo (pruned : n.PrunesTo m) (table : ModuleTable) : publish table m = publish table n := by
  unfold publish
  rw [pruned.kind]
  rcases exists_of_rel (pruned.child? .key) with ⟨absent, absent'⟩ | ⟨key, key', found, found', keyed⟩
  · rw [absent, absent']
  · rw [found, found']
    rcases exists_of_rel (pruned.child? .value) with ⟨absent, absent'⟩ | ⟨target, target', found, found', valued⟩
    · rw [absent, absent']
    · rw [found, found']
      simp only [valued.kind, valued.text, keyOf_eq_of_prunesTo keyed]

theorem ofLiteral_eq_of_prunesTo (pruned : n.PrunesTo m) : ofLiteral m = ofLiteral n :=
  foldlM_eq_of_forall₂ pruned.members (fun table _ _ entry => publish_eq_of_prunesTo entry table) .empty

end ModuleTable

/-- One declarator is another up to comments in it. -/
def Declarator.PrunesTo (d d' : Declarator) : Prop := d.node.PrunesTo d'.node

theorem Declarator.PrunesTo.value? {d d' : Declarator} (pruned : d.PrunesTo d') :
    Option.Rel Node.PrunesTo d.value? d'.value? := pruned.child? .value

namespace Syntax.Node

theorem BareComment.declaratorsIn {n : Node} (bare : n.BareComment) (parent around : Option Placed) (before : List Node) :
    n.declaratorsIn parent around before = [] := by
  obtain ⟨kind, role, bytes, startRow, endRow, children⟩ := n
  obtain ⟨comment, -, leaf⟩ := bare
  cases comment
  cases leaf
  rfl

mutual

theorem PrunesTo.declaratorsIn {n m : Node} (pruned : n.PrunesTo m) (parent parent' around around' : Option Placed)
    (before before' : List Node) :
    List.Forall₂ Declarator.PrunesTo (n.declaratorsIn parent around before) (m.declaratorsIn parent' around' before') := by
  have name := pruned.child? .name
  cases pruned with
  | @mk kind role bytes startRow endRow children kept inside =>
    rw [Node.declaratorsIn, Node.declaratorsIn]
    apply List.rel_append
    · -- whether the node declares a single name is told by kinds
      have kinds : ((Node.mk kind role bytes startRow endRow kept).child? .name).map Node.kind =
          ((Node.mk kind role bytes startRow endRow children).child? .name).map Node.kind := by
        rcases exists_of_rel name with ⟨absent, absent'⟩ | ⟨name, name', found, found', named⟩
        · rw [absent, absent']
        · rw [found, found', Option.map_some, Option.map_some, named.kind]
      rw [kinds]
      split
      · exact .cons (.mk inside) .nil
      · exact .nil
    · exact inside.declaratorsInAll _ _ _ _ _ _

theorem AllPruneTo.declaratorsInAll {l kept : List Node} (pruned : AllPruneTo l kept)
    (parent parent' around around' : Option Placed) (before before' : List Node) :
    List.Forall₂ Declarator.PrunesTo (declaratorsInAll parent around before l)
      (declaratorsInAll parent' around' before' kept) := by
  cases pruned with
  | nil => exact .nil
  | keep node others =>
    rw [Node.declaratorsInAll, Node.declaratorsInAll]
    exact List.rel_append (node.declaratorsIn _ _ _ _ _ _) (others.declaratorsInAll _ _ _ _ _ _)
  | drop bare others =>
    rw [Node.declaratorsInAll, bare.declaratorsIn]
    exact others.declaratorsInAll _ _ _ _ _ _

end

/-- The declarators below a node are the same up to comments, and in the same order. -/
theorem PrunesTo.declarators {n m : Node} (pruned : n.PrunesTo m) :
    List.Forall₂ Declarator.PrunesTo n.declarators m.declarators := pruned.declaratorsIn none none none none [] []

theorem PrunesTo.namedDeclarators {n m : Node} (pruned : n.PrunesTo m) :
    AgreeUpTo (List.Forall₂ (SameKey Declarator.PrunesTo)) n.namedDeclarators m.namedDeclarators := by
  apply AgreeUpTo.filterMapM pruned.declarators
  intro d d' declared
  rcases exists_of_rel (PrunesTo.child? declared .name) with ⟨absent, absent'⟩ | ⟨name, name', found, found', named⟩
  · rw [absent, absent']
    exact .ok .none
  · rw [found, found']
    dsimp only
    rw [named.text]
    cases name.text with
    | error e => exact .error e
    | ok name => exact .ok (.some ⟨rfl, declared⟩)

end Syntax.Node

/-- One file is another up to comments in its tree. -/
structure SourceFile.PrunesTo (file other : SourceFile) : Prop where
  path : other.path = file.path
  bytes : other.bytes = file.bytes
  root : file.root.PrunesTo other.root

namespace SourceFile

variable {file other : SourceFile}

theorem PrunesTo.refl (file : SourceFile) : file.PrunesTo file := ⟨rfl, rfl, .refl file.root⟩

/-- A file with some of the comments taken out of its tree. -/
def pruned (file : SourceFile) (root : Node) (pruned : file.root.PrunesTo root) : SourceFile where
  path := file.path
  bytes := file.bytes
  root := root
  declarators := root.namedDeclarators
  declarators_eq := rfl
  spells := pruned.spells file.spells

theorem prunesTo_pruned (file : SourceFile) {root : Node} (pruned : file.root.PrunesTo root) :
    file.PrunesTo (file.pruned root pruned) := ⟨rfl, rfl, pruned⟩

/-- A file without any of its comments. -/
def uncommented {parser : TreeParser} (lawful : parser.Lawful) (path : Path) (bytes : ByteArray) : SourceFile :=
  (SourceFile.parse parser path bytes).pruned _ (Node.prunesTo_uncommented _ fun _ => lawful.bare)

theorem parse_prunesTo_uncommented {parser : TreeParser} (lawful : parser.Lawful) (path : Path) (bytes : ByteArray) :
    (SourceFile.parse parser path bytes).PrunesTo (uncommented lawful path bytes) := prunesTo_pruned _ _

theorem PrunesTo.declarators (pruned : file.PrunesTo other) :
    AgreeUpTo (List.Forall₂ (SameKey Declarator.PrunesTo)) file.declarators other.declarators := by
  rw [file.declarators_eq, other.declarators_eq]
  exact pruned.root.namedDeclarators

theorem PrunesTo.binding? (pruned : file.PrunesTo other) (name : Text) :
    AgreeUpTo (Option.Rel Declarator.PrunesTo) (file.binding? name) (other.binding? name) := by
  refine pruned.declarators.bind fun named named' lists => .ok ?_
  exact rel_lookup (List.forall₂_reverse_iff.mpr lists) name

variable {n m : Node}

theorem importedName_eq_of_prunesTo (pruned : n.PrunesTo m) : importedName m = importedName n := by
  unfold importedName
  rcases exists_of_rel (pruned.child? .name) with ⟨absent, absent'⟩ | ⟨name, name', found, found', named⟩
  · rw [absent, absent']
  · rw [found, found']
    simp only [named.kind, named.text, named.stringValue]

theorem forall₂_specifiers (pruned : n.PrunesTo m) : List.Forall₂ Node.PrunesTo (specifiers n) (specifiers m) := by
  apply List.rel_flatMap
  · apply List.rel_flatMap (pruned.ofKind (by decide))
    intro clause clause' within
    exact within.ofKind (by decide)
  · intro list list' within
    exact within.membersOfKind .importSpecifier

theorem importStep_eq_of_prunesTo (pruned : n.PrunesTo m) (table : OrderedMap Text Text) :
    importStep table m = importStep table n := by
  unfold importStep
  rcases exists_of_rel (pruned.child? .source) with ⟨absent, absent'⟩ | ⟨source, source', found, found', origin⟩
  · rw [absent, absent']
  · rw [found, found']
    dsimp only
    rw [origin.kind]
    split
    · apply foldlM_eq_of_forall₂ (forall₂_specifiers pruned)
      intro table specifier specifier' within
      rw [importedName_eq_of_prunesTo within, origin.stringValue]
    · rfl

/-- The imports of a file do not depend on comments. -/
theorem PrunesTo.namedImports (pruned : file.PrunesTo other) : other.namedImports = file.namedImports :=
  foldlM_eq_of_forall₂ (pruned.root.ofKind (by decide))
    (fun table _ _ statement => importStep_eq_of_prunesTo statement table) .empty

end SourceFile

/-- The module table of a file does not depend on comments. -/
theorem ModuleTable.find_eq_of_prunesTo {file other : SourceFile} (pruned : file.PrunesTo other) :
    find other = find file := by
  apply Eq.symm
  apply AgreeUpTo.eq
  refine (pruned.binding? bindingName).bind fun bound bound' related => ?_
  have values : Option.Rel Node.PrunesTo (bound.bind Declarator.value?) (bound'.bind Declarator.value?) := by
    cases related with
    | none => exact .none
    | some declared => exact declared.value?
  rcases exists_of_rel values with ⟨absent, absent'⟩ | ⟨value, value', found, found', valued⟩
  · rw [absent, absent']
    exact .ok rfl
  · rw [found, found']
    refine (Shape.agree_ofNode valued).bind fun shape shape' same => ?_
    cases same with
    | moduleTable entries =>
      dsimp only
      rw [ofLiteral_eq_of_prunesTo entries]
      exact .refl _
    | _ => exact .ok rfl

end SchemaTypes
