import Mathlib.Logic.Relation
import SchemaTypes.Proofs.Outcomes
import SchemaTypes.Schema
import SchemaTypes.SourceFile

/-!
Expressions and their parts. Every expression that has a shape is an identifier or is told by the arguments of a call, and
what a shape carries are parts of the expression: nodes that are come to by going down from children to children.
-/

namespace SchemaTypes

open Syntax

/-! ### Calls of methods -/

/-- A call of a method on a receiver, both told by their texts. -/
def Syntax.Node.Calls (n : Node) (receiver method : Text) : Prop :=
  ∃ callee object property, n.kind = .callExpression ∧ n.child? .callee = some callee ∧
    callee.kind = .memberExpression ∧ callee.child? .receiver = some object ∧
    callee.child? .property = some property ∧ object.text = .ok receiver ∧ property.text = .ok method

namespace Shape

theorem ofNode_of_calls {n : Node} {receiver method : Text} (calls : n.Calls receiver method) :
    ofNode n = .ok (ofMethodCall receiver method n.callArguments) := by
  obtain ⟨callee, object, property, call, called, member, on, named, receives, names⟩ := calls
  have read : ofCall n callee = .ok (ofMethodCall receiver method n.callArguments) := by
    simp [ofCall, member, on, named, receives, names, bind, Except.bind, pure, Except.pure]
  simp [ofNode, call, called, read]

theorem ofCall_eq_ok {n callee : Node} {shape : Shape} (call : n.kind = .callExpression)
    (called : n.child? .callee = some callee) (read : ofCall n callee = .ok shape) :
    shape = .composeCall n.callArguments ∨ (∃ kind, shape = .unrecognized kind) ∨
      ∃ receiver method, n.Calls receiver method ∧ shape = ofMethodCall receiver method n.callArguments := by
  unfold ofCall at read
  split at read
  · obtain ⟨name, -, read⟩ := bind_eq_ok_iff.mp read
    split at read
    · cases read
      exact .inl rfl
    · cases read
      exact .inr (.inl ⟨_, rfl⟩)
  · split at read
    next member =>
      split at read
      next object property on named =>
        obtain ⟨receiver, receives, read⟩ := bind_eq_ok_iff.mp read
        obtain ⟨method, names, read⟩ := bind_eq_ok_iff.mp read
        cases read
        exact .inr (.inr ⟨receiver, method,
          ⟨callee, object, property, call, called, eq_of_beq member, on, named, receives, names⟩, rfl⟩)
      · cases read
        exact .inr (.inl ⟨_, rfl⟩)
    · cases read
      exact .inr (.inl ⟨_, rfl⟩)

/-- An expression has the shape of an identifier, of a composition or of a method's call, or is not recognized. -/
theorem ofNode_eq_ok {n : Node} {shape : Shape} (read : ofNode n = .ok shape) :
    (n.kind = .identifier ∧ ∃ name, n.text = .ok name ∧
      shape = (referenceBase? name).elim (.identifier name) .reference) ∨
    shape = .composeCall n.callArguments ∨ (∃ kind, shape = .unrecognized kind) ∨
      ∃ receiver method, n.Calls receiver method ∧ shape = ofMethodCall receiver method n.callArguments := by
  unfold ofNode at read
  split at read
  next identifier =>
    obtain ⟨name, named, read⟩ := bind_eq_ok_iff.mp read
    refine .inl ⟨eq_of_beq identifier, name, named, ?_⟩
    split at read
    next base found =>
      cases read
      rw [found, Option.elim_some]
    next found =>
      cases read
      rw [found, Option.elim_none]
  · right
    split at read
    next call =>
      split at read
      next callee called => exact ofCall_eq_ok (eq_of_beq call) called read
      · cases read
        exact .inr (.inl ⟨_, rfl⟩)
    · cases read
      exact .inr (.inl ⟨_, rfl⟩)

end Shape

/-! ### The shapes of calls -/

/-- The shapes that a call of some function with given arguments can have. -/
inductive CallShape (args : List Node) : Shape → Prop
  | primitive (type : Primitive) : CallShape args (.primitive type)
  | optionalOf {inner : Node} (member : inner ∈ args) : CallShape args (.optionalOf inner)
  | arrayOf {inner : Node} (member : inner ∈ args) : CallShape args (.arrayOf inner)
  | inlineObject {literal : Node} (member : literal ∈ args) (object : literal.kind = .object) :
      CallShape args (.inlineObject literal)
  | composeCall : CallShape args (.composeCall args)
  | moduleImport {key : Node} (member : key ∈ args) : CallShape args (.moduleImport key)
  | moduleTable {first : Node} (member : first ∈ args) (object : first.unwrap.kind = .object) :
      CallShape args (.moduleTable first.unwrap)
  | unrecognized (kind : Kind) : CallShape args (.unrecognized kind)

namespace Shape

theorem callShape_ofBuilderCall (method : Text) (args : List Node) : CallShape args (ofBuilderCall method args) := by
  have rest : CallShape args (ofBuilderCall.rest method args (.unrecognized .callExpression)) := by
    unfold ofBuilderCall.rest
    split
    · exact .primitive _
    · exact .unrecognized _
    next first others _ =>
      split
      next object =>
        simp only [Bool.and_eq_true, beq_iff_eq] at object
        exact .inlineObject List.mem_cons_self object.2
      · split
        next object =>
          simp only [Bool.and_eq_true, beq_iff_eq] at object
          exact .moduleTable List.mem_cons_self object.2
        · exact .unrecognized _
  unfold ofBuilderCall
  dsimp only
  split
  next inner =>
    split
    · exact .optionalOf List.mem_cons_self
    · split
      · exact .arrayOf List.mem_cons_self
      · exact rest
  · exact rest

theorem callShape_ofMethodCall (receiver method : Text) (args : List Node) :
    CallShape args (ofMethodCall receiver method args) := by
  have other : CallShape args (ofMethodCall.other receiver method args) := by
    unfold ofMethodCall.other
    split
    · exact callShape_ofBuilderCall method args
    · exact .unrecognized _
  unfold ofMethodCall
  split
  next key =>
    split
    · exact .moduleImport List.mem_cons_self
    · exact other
  · exact other

/-- An expression with a shape is an identifier, or its shape is that of a call. -/
theorem ofNode_cases {n : Node} {shape : Shape} (read : ofNode n = .ok shape) :
    (n.kind = .identifier ∧ ∃ name, n.text = .ok name ∧
      shape = (referenceBase? name).elim (.identifier name) .reference) ∨ CallShape n.callArguments shape := by
  rcases ofNode_eq_ok read with named | rfl | ⟨kind, rfl⟩ | ⟨receiver, method, -, rfl⟩
  · exact .inl named
  · exact .inr .composeCall
  · exact .inr (.unrecognized kind)
  · exact .inr (callShape_ofMethodCall receiver method n.callArguments)

theorem kind_of_inlineObject {n literal : Node} (read : ofNode n = .ok (.inlineObject literal)) :
    literal.kind = .object := by
  rcases ofNode_cases read with ⟨-, name, -, shape⟩ | call
  · cases based : referenceBase? name <;> rw [based] at shape <;> cases shape
  · cases call with
    | inlineObject _ object => exact object

end Shape

/-! ### Parts -/

namespace Syntax.Node

/-- A node is a part of another: it is that node or is come to by going down to children. -/
def PartOf (part whole : Node) : Prop := Relation.ReflTransGen (fun child parent => child ∈ parent.children) part whole

theorem PartOf.refl (n : Node) : n.PartOf n := Relation.ReflTransGen.refl

theorem PartOf.trans {part middle whole : Node} (inner : part.PartOf middle) (outer : middle.PartOf whole) :
    part.PartOf whole := Relation.ReflTransGen.trans inner outer

theorem partOf_of_mem_children {child n : Node} (member : child ∈ n.children) : child.PartOf n := .single member

theorem decode_of_text {n : Node} {t : Text} (named : n.text = .ok t) : Utf8.decode n.bytes = .ok t := by
  unfold text at named
  cases read : Utf8.decode n.bytes with
  | error fault =>
    rw [read] at named
    cases named
  | ok t =>
    rw [read] at named
    cases named
    rfl

theorem Spells.of_partOf {text : ByteArray} {part whole : Node} (spells : whole.Spells text)
    (inside : part.PartOf whole) : part.Spells text := by
  induction inside using Relation.ReflTransGen.head_induction_on with
  | refl => exact spells
  | head member _ ih =>
    obtain ⟨-, inner⟩ := ih
    exact inner _ member

mutual

/-- A node and all nodes inside it, in source order. -/
def parts : Node → List Node
  | .mk kind role bytes startRow endRow children => .mk kind role bytes startRow endRow children :: partsOfAll children

def partsOfAll : List Node → List Node
  | [] => []
  | child :: rest => parts child ++ partsOfAll rest

end

theorem mem_partsOfAll {part child : Node} (inside : part ∈ child.parts) {l : List Node} (member : child ∈ l) :
    part ∈ partsOfAll l := by
  induction l with
  | nil => cases member
  | cons first rest ih =>
    rw [partsOfAll]
    rcases List.mem_cons.mp member with rfl | later
    · exact List.mem_append_left _ inside
    · exact List.mem_append_right _ (ih later)

theorem mem_parts_of_partOf {part whole : Node} (inside : part.PartOf whole) : part ∈ whole.parts := by
  induction inside with
  | refl =>
    cases part
    rw [parts]
    exact List.mem_cons_self
  | @tail middle whole _ member ih =>
    cases whole
    rw [parts]
    exact List.mem_cons_of_mem _ (mem_partsOfAll ih member)

theorem partOf_of_mem_members {child n : Node} (member : child ∈ n.members) : child.PartOf n :=
  partOf_of_mem_children (List.mem_filter.mp member).1

theorem partOf_of_child?_eq_some {child n : Node} {role : Role} (found : n.child? role = some child) : child.PartOf n :=
  partOf_of_mem_children (List.mem_of_find?_eq_some found)

theorem map_node_placedChildren (n : Node) : n.placedChildren.map Placed.node = n.children := by
  have placed (before l : List Node) : (placedChildren.go before l).map Placed.node = l := by
    induction l generalizing before with
    | nil => rfl
    | cons child rest ih => rw [placedChildren.go, List.map_cons, ih]
  exact placed [] n.children

theorem partOf_of_mem_placedChildren {place : Placed} {n : Node} (member : place ∈ n.placedChildren) :
    place.node.PartOf n :=
  partOf_of_mem_children (map_node_placedChildren n ▸ List.mem_map_of_mem member)

mutual

/-- The declarators in a node are parts of it. -/
theorem partOf_of_mem_declaratorsIn {parent around : Option Placed} {before : List Node} {d : Declarator} :
    ∀ {n : Node}, d ∈ declaratorsIn parent around before n → d.node.PartOf n
  | .mk kind role bytes startRow endRow children, member => by
    rw [declaratorsIn] at member
    rcases List.mem_append.mp member with own | inner
    · split at own
      · rw [List.mem_singleton.mp own]
        exact .refl _
      · cases own
    · obtain ⟨child, listed, inside⟩ := partOf_of_mem_declaratorsInAll inner
      exact inside.trans (partOf_of_mem_children listed)

theorem partOf_of_mem_declaratorsInAll {parent around : Option Placed} {before : List Node} {d : Declarator} :
    ∀ {l : List Node}, d ∈ declaratorsInAll parent around before l → ∃ child ∈ l, d.node.PartOf child
  | [], member => by
    rw [declaratorsInAll] at member
    cases member
  | child :: rest, member => by
    rw [declaratorsInAll] at member
    rcases List.mem_append.mp member with here | further
    · exact ⟨child, List.mem_cons_self, partOf_of_mem_declaratorsIn here⟩
    · obtain ⟨other, listed, inside⟩ := partOf_of_mem_declaratorsInAll further
      exact ⟨other, List.mem_cons_of_mem child listed, inside⟩

end

theorem partOf_of_mem_callArguments {argument n : Node} (member : argument ∈ n.callArguments) : argument.PartOf n := by
  unfold callArguments at member
  split at member
  next list found =>
    split at member
    · exact (partOf_of_mem_members member).trans (partOf_of_child?_eq_some found)
    · cases member
  · cases member

theorem unwrap_partOf (n : Node) : n.unwrap.PartOf n := by
  fun_induction unwrap n with
  | case1 n _ _ => exact .refl n
  | case2 n _ inner _ listed ih => exact ih.trans (partOf_of_mem_members (listed ▸ List.mem_cons_self))
  | case3 n _ => exact .refl n

theorem partOf_of_mem_pairs {pair literal : Node} (member : pair ∈ literal.pairs) : pair.PartOf literal :=
  partOf_of_mem_members (List.mem_filter.mp member).1

theorem partOf_of_keyAndValue {pair value : Node} {name : Text} (read : pair.keyAndValue = .ok (some (name, value))) :
    value.PartOf pair := by
  unfold keyAndValue at read
  split at read
  · cases read
  · obtain ⟨found, -, read⟩ := bind_eq_ok_iff.mp read
    split at read
    next valued =>
      cases read
      exact partOf_of_child?_eq_some valued
    · cases read

end Syntax.Node

/-- What a shape carries are parts of the expression. -/
theorem Shape.partOf_of_mem_nodes {n m : Node} {shape : Shape} (read : ofNode n = .ok shape) (member : m ∈ shape.nodes) :
    m.PartOf n := by
  rcases ofNode_cases read with ⟨-, name, -, same⟩ | call
  · cases based : referenceBase? name <;> rw [based] at same <;> rw [same] at member <;> cases member
  · have carried : ∃ argument ∈ n.callArguments, m = argument ∨ m = argument.unwrap := by
      cases call with
      | primitive _ => cases member
      | optionalOf argument => exact ⟨_, argument, .inl (List.mem_singleton.mp member)⟩
      | arrayOf argument => exact ⟨_, argument, .inl (List.mem_singleton.mp member)⟩
      | inlineObject argument _ => exact ⟨_, argument, .inl (List.mem_singleton.mp member)⟩
      | composeCall => exact ⟨m, member, .inl rfl⟩
      | moduleImport argument => exact ⟨_, argument, .inl (List.mem_singleton.mp member)⟩
      | moduleTable argument _ => exact ⟨_, argument, .inr (List.mem_singleton.mp member)⟩
      | unrecognized _ => cases member
    obtain ⟨argument, listed, rfl | rfl⟩ := carried
    · exact Node.partOf_of_mem_callArguments listed
    · exact argument.unwrap_partOf.trans (Node.partOf_of_mem_callArguments listed)

/-! ### Sources of one literal -/

namespace Field

/-- The first member of a node, or the node itself if it has none. -/
def firstMember (n : Node) : Node := n.members.headD n

theorem firstMember_partOf (n : Node) : (firstMember n).PartOf n := by
  unfold firstMember
  cases listed : n.members with
  | nil => exact .refl n
  | cons first rest =>
    have member : first ∈ n.members := listed ▸ List.mem_cons_self
    exact Node.partOf_of_mem_members member

/-- The literal of a source that is nothing but a literal in parentheses. -/
def literalOf (source : String) : Node :=
  firstMember (firstMember (firstMember (Syntax.parse .typescript source.toUTF8)))

theorem literalOf_partOf (source : String) : (literalOf source).PartOf (Syntax.parse .typescript source.toUTF8) :=
  (firstMember_partOf _).trans ((firstMember_partOf _).trans (firstMember_partOf _))

end Field
end SchemaTypes
