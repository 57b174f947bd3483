import SchemaTypes.Syntax.Node

/-!
The shapes of builder expressions. Every expression the compiler looks at is put into one of a closed set of shapes by
its syntax alone.
-/

namespace SchemaTypes

open Syntax

inductive Primitive where
  | string
  | number
  | boolean
  | null
  deriving DecidableEq, Repr

def Primitive.typeName : Primitive → Text
  | string => "string"
  | number => "number"
  | boolean => "boolean"
  | null => "null"

inductive Shape where
  | primitive (type : Primitive)
  | optionalOf (inner : Node)
  | arrayOf (inner : Node)
  | inlineObject (literal : Node)
  /-- A name that ends in `Ref`, without that ending. -/
  | reference (base : Text)
  | composeCall (members : List Node)
  | moduleImport (key : Node)
  | moduleTable (entries : Node)
  | identifier (name : Text)
  | unrecognized (kind : Kind)

/-- Whether a node of this kind only wraps an expression. -/
def Syntax.Kind.isWrapper (k : Kind) : Bool :=
  k == .satisfiesExpression || k == .asExpression || k == .parenthesizedExpression

/-- The expression inside assertions and parentheses. -/
def Syntax.Node.unwrap (n : Node) : Node :=
  if n.kind.isWrapper then
    match _h : n.members with
    | [] => n
    | inner :: _ => inner.unwrap
  else n
termination_by sizeOf n
decreasing_by exact Node.sizeOf_lt_of_mem_members (_h ▸ List.mem_cons_self)

/-- The arguments of a call; a template in their place counts as none. -/
def Syntax.Node.callArguments (n : Node) : List Node :=
  match n.child? .arguments with
  | some list => if list.kind == .arguments then list.members else []
  | none => []

/-- The base of a name that ends in `Ref` and is longer than that. -/
def referenceBase? (name : Text) : Option Text :=
  match Text.dropEnd? "Ref" name with
  | some [] => none
  | base => base

/-- The primitive type a method of the builder makes. -/
def primitive? (method : Text) : Option Primitive :=
  if method = Text.ofString "String" then some .string
  else if method = Text.ofString "Number" then some .number
  else if method = Text.ofString "Boolean" then some .boolean
  else if method = Text.ofString "Null" then some .null
  else none

namespace Shape

/-- A call of a method of the builder. -/
def ofBuilderCall (method : Text) (args : List Node) : Shape :=
  let otherwise : Shape := .unrecognized .callExpression
  match args with
  | [inner] =>
    if method = Text.ofString "Optional" then .optionalOf inner
    else if method = Text.ofString "Array" then .arrayOf inner
    else rest method args otherwise
  | _ => rest method args otherwise
where
  rest (method : Text) (args : List Node) (otherwise : Shape) : Shape :=
    match primitive? method, args with
    | some type, _ => .primitive type
    | none, [] => otherwise
    | none, first :: _ =>
      if method = Text.ofString "Object" && first.kind == .object then .inlineObject first
      else if method = Text.ofString "Module" && first.unwrap.kind == .object then .moduleTable first.unwrap
      else otherwise

/-- A call of a method on some receiver. -/
def ofMethodCall (receiver method : Text) (args : List Node) : Shape :=
  match args with
  | [key] =>
    if receiver = Text.ofString "module" && method = Text.ofString "Import" then .moduleImport key
    else other
  | _ => other
where
  other : Shape := if receiver = Text.ofString "Type" then ofBuilderCall method args else .unrecognized .callExpression

/-- The shape of a call of a given function. -/
def ofCall (n callee : Node) : Except Error Shape := do
  if callee.kind == .identifier then
    if (← callee.text) = Text.ofString "compose" then return .composeCall n.callArguments
    else return .unrecognized .callExpression
  else if callee.kind == .memberExpression then
    match callee.child? .receiver, callee.child? .property with
    | some receiver, some method => return ofMethodCall (← receiver.text) (← method.text) n.callArguments
    | _, _ => return .unrecognized .callExpression
  else return .unrecognized .callExpression

def ofNode (n : Node) : Except Error Shape := do
  if n.kind == .identifier then
    let name ← n.text
    match referenceBase? name with
    | some base => return .reference base
    | none => return .identifier name
  else if n.kind == .callExpression then
    match n.child? .callee with
    | some callee => ofCall n callee
    | none => return .unrecognized .callExpression
  else return .unrecognized n.kind

/-- The nodes a shape carries. -/
def nodes : Shape → List Node
  | optionalOf inner => [inner]
  | arrayOf inner => [inner]
  | inlineObject literal => [literal]
  | composeCall members => members
  | moduleImport key => [key]
  | moduleTable entries => [entries]
  | primitive _ | reference _ | identifier _ | unrecognized _ => []

end Shape

theorem Syntax.Node.sizeOf_unwrap_le (n : Node) : sizeOf n.unwrap ≤ sizeOf n := by
  fun_induction Node.unwrap n with
  | case1 n _ _ => exact Nat.le_refl _
  | case2 n _ inner _ h ih =>
    exact Nat.le_trans ih (Nat.le_of_lt (sizeOf_lt_of_mem_members (h ▸ List.mem_cons_self)))
  | case3 n _ => exact Nat.le_refl _

theorem Syntax.Node.sizeOf_lt_of_mem_callArguments {n a : Node} (h : a ∈ n.callArguments) : sizeOf a < sizeOf n := by
  unfold callArguments at h
  split at h
  · rename_i list found
    split at h
    · exact Nat.lt_trans (sizeOf_lt_of_mem_members h) (sizeOf_lt_of_child?_eq_some found)
    · simp at h
  · simp at h

namespace Shape

theorem sizeOf_lt_of_mem_ofBuilderCall {method : Text} {args : List Node} {m : Node} {bound : Nat}
    (h : ∀ a ∈ args, sizeOf a < bound) (hm : m ∈ (ofBuilderCall method args).nodes) : sizeOf m < bound := by
  have rest : m ∈ (ofBuilderCall.rest method args (.unrecognized .callExpression)).nodes → sizeOf m < bound := by
    intro hm
    unfold ofBuilderCall.rest at hm
    split at hm
    · simp [nodes] at hm
    · simp [nodes] at hm
    · rename_i first _ _ _
      have hf := h first List.mem_cons_self
      split at hm
      · simp only [nodes, List.mem_singleton] at hm
        exact hm ▸ hf
      · split at hm
        · simp only [nodes, List.mem_singleton] at hm
          exact hm ▸ Nat.lt_of_le_of_lt (Node.sizeOf_unwrap_le first) hf
        · simp [nodes] at hm
  unfold ofBuilderCall at hm
  simp only at hm
  split at hm
  · rename_i inner
    have hi := h inner List.mem_cons_self
    split at hm
    · simp only [nodes, List.mem_singleton] at hm
      exact hm ▸ hi
    · split at hm
      · simp only [nodes, List.mem_singleton] at hm
        exact hm ▸ hi
      · exact rest hm
  · exact rest hm

theorem sizeOf_lt_of_mem_ofMethodCall {receiver method : Text} {args : List Node} {m : Node} {bound : Nat}
    (h : ∀ a ∈ args, sizeOf a < bound) (hm : m ∈ (ofMethodCall receiver method args).nodes) : sizeOf m < bound := by
  have other : m ∈ (ofMethodCall.other receiver method args).nodes → sizeOf m < bound := by
    intro hm
    unfold ofMethodCall.other at hm
    split at hm
    · exact sizeOf_lt_of_mem_ofBuilderCall h hm
    · simp [nodes] at hm
  unfold ofMethodCall at hm
  split at hm
  · rename_i key
    split at hm
    · simp only [nodes, List.mem_singleton] at hm
      exact hm ▸ h key List.mem_cons_self
    · exact other hm
  · exact other hm

/-- The nodes a shape carries are parts of the node it was read from. -/
theorem sizeOf_lt_of_mem_nodes {n m : Node} {s : Shape} (h : ofNode n = .ok s) (hm : m ∈ s.nodes) :
    sizeOf m < sizeOf n := by
  have args : ∀ a ∈ n.callArguments, sizeOf a < sizeOf n := fun a ha => Node.sizeOf_lt_of_mem_callArguments ha
  unfold ofNode at h
  split at h
  · cases ht : n.text with
    | error e => simp [ht, bind, Except.bind] at h
    | ok name =>
      simp only [ht, bind, Except.bind] at h
      split at h <;> cases h <;> simp [nodes] at hm
  · split at h
    · split at h
      · rename_i callee _
        unfold ofCall at h
        split at h
        · cases ht : callee.text with
          | error e => simp [ht, bind, Except.bind] at h
          | ok name =>
            simp only [ht, bind, Except.bind] at h
            split at h
            · cases h
              exact args m hm
            · cases h
              simp [nodes] at hm
        · split at h
          · split at h
            · rename_i receiver method _ _
              cases hr : receiver.text with
              | error e => simp [hr, bind, Except.bind] at h
              | ok r =>
                cases hp : method.text with
                | error e => simp [hr, hp, bind, Except.bind] at h
                | ok p =>
                  simp only [hr, hp, bind, Except.bind] at h
                  cases h
                  exact sizeOf_lt_of_mem_ofMethodCall args hm
            · cases h
              simp [nodes] at hm
          · cases h
            simp [nodes] at hm
      · cases h
        simp [nodes] at hm
    · cases h
      simp [nodes] at hm

end Shape
end SchemaTypes
