import SchemaTypes.Proofs.SyntaxParts

/-!
How expressions are read as schemas. The schema of an expression is told by its shape and the schemas of the parts that
the shape carries, and the fields of an object literal by its pairs, each on its own. Reading does not look at rows, so the
layout of an expression does not matter for its schema.
-/

namespace SchemaTypes

open Syntax

/-! ### Reading by shapes -/

namespace Schema

/-- The field that a pair builds. -/
def ofPair (pair : Node) : Except Error (Option (Text × Schema)) := do
  match ← pair.keyAndValue with
  | none => return none
  | some (name, value) => return (← ofNode value).map (name, ·)

theorem ofPair_of_keyAndValue {pair value : Node} {name : Text} (read : pair.keyAndValue = .ok (some (name, value))) :
    ofPair pair = (ofNode value).map (Option.map (name, ·)) := by
  rw [ofPair, read]
  change (ofNode value >>= fun found => pure (found.map (name, ·))) = _
  cases ofNode value <;> rfl

theorem ofPair_of_nameless {pair : Node} (read : pair.keyAndValue = .ok none) : ofPair pair = .ok none := by
  rw [ofPair, read]
  rfl

theorem ofPair_eq_some {pair : Node} {name : Text} {schema : Schema} (built : ofPair pair = .ok (some (name, schema))) :
    ∃ value, pair.keyAndValue = .ok (some (name, value)) ∧ ofNode value = .ok (some schema) := by
  cases read : pair.keyAndValue with
  | error e =>
    rw [ofPair, read] at built
    cases built
  | ok found =>
    cases found with
    | none =>
      rw [ofPair_of_nameless read] at built
      cases built
    | some named =>
      obtain ⟨name', value⟩ := named
      rw [ofPair_of_keyAndValue read] at built
      cases valued : ofNode value with
      | error e =>
        rw [valued] at built
        cases built
      | ok found =>
        cases found with
        | none =>
          rw [valued] at built
          cases built
        | some schema' =>
          rw [valued] at built
          cases built
          exact ⟨value, rfl, valued⟩

/-- The schema that a shape stands for. -/
def ofShape : Shape → Except Error (Option Schema)
  | .primitive type => .ok (some (.primitive type))
  | .reference base => .ok (some (.reference base))
  | .optionalOf inner => return (← ofNode inner).map .optional
  | .arrayOf inner => return (← ofNode inner).map .array
  | .inlineObject literal => return some (.object (← literal.pairs.filterMapM ofPair))
  | _ => .ok none

theorem ofPairs_eq_filterMapM (pairs : List Node) : ofPairs pairs = pairs.filterMapM ofPair := by
  induction pairs with
  | nil => rw [ofPairs]; rfl
  | cons pair rest ih =>
    rw [ofPairs, List.filterMapM_cons, ← ih]
    split
    next e read =>
      rw [ofPair, read]
      rfl
    next read =>
      rw [ofPair_of_nameless read]
      rfl
    next name value read =>
      rw [ofPair_of_keyAndValue read]
      cases ofNode value with
      | error e => rfl
      | ok found => cases found <;> rfl

theorem ofNode_eq_ofShape (n : Node) : ofNode n = Shape.ofNode n >>= ofShape := by
  rw [ofNode]
  split
  next e read => rw [read]; rfl
  next type read => rw [read]; rfl
  next base read => rw [read]; rfl
  next inner read => rw [read]; rfl
  next inner read => rw [read]; rfl
  next literal read =>
    rw [read, ofPairs_eq_filterMapM]
    rfl
  next shape other₁ other₂ other₃ other₄ other₅ read =>
    rw [read]
    cases shape with
    | primitive type => exact absurd rfl (other₁ type)
    | reference base => exact absurd rfl (other₂ base)
    | optionalOf inner => exact absurd rfl (other₃ inner)
    | arrayOf inner => exact absurd rfl (other₄ inner)
    | inlineObject literal => exact absurd rfl (other₅ literal)
    | _ => rfl

/-- Induction on how an expression is read: what holds of the expressions inside its shape, and of the values of the pairs
of an object literal, holds of the expression. -/
theorem reading_induction {motive : Node → Prop}
    (step : ∀ n,
      (∀ inner, Shape.ofNode n = .ok (.optionalOf inner) ∨ Shape.ofNode n = .ok (.arrayOf inner) → motive inner) →
      (∀ literal pair name value, Shape.ofNode n = .ok (.inlineObject literal) → pair ∈ literal.pairs →
        pair.keyAndValue = .ok (some (name, value)) → motive value) → motive n) (n : Node) : motive n := by
  refine step n (fun inner shape => ?_) (fun literal pair name value shape member read => ?_)
  · have smaller : sizeOf inner < sizeOf n := by
      rcases shape with shape | shape <;> exact Shape.sizeOf_lt_of_mem_nodes shape (by simp [Shape.nodes])
    exact reading_induction step inner
  · have smaller : sizeOf value < sizeOf n := calc
      sizeOf value < sizeOf pair := Node.sizeOf_lt_of_keyAndValue read
      _ < sizeOf literal := Node.sizeOf_lt_of_mem_members (List.mem_filter.mp member).1
      _ < sizeOf n := Shape.sizeOf_lt_of_mem_nodes shape (by simp [Shape.nodes])
    exact reading_induction step value
termination_by sizeOf n

end Schema

/-! ### Layout -/

namespace Syntax.Node

mutual

/-- A node without its rows. -/
def unplaced : Node → Node
  | .mk kind role bytes _ _ children => .mk kind role bytes 0 0 (unplacedAll children)

def unplacedAll : List Node → List Node
  | [] => []
  | child :: rest => unplaced child :: unplacedAll rest

end

@[simp] theorem kind_unplaced (n : Node) : n.unplaced.kind = n.kind := by
  cases n
  rw [unplaced]
  rfl

@[simp] theorem role_unplaced (n : Node) : n.unplaced.role = n.role := by
  cases n
  rw [unplaced]
  rfl

@[simp] theorem text_unplaced (n : Node) : n.unplaced.text = n.text := by
  cases n
  rw [unplaced]
  rfl

theorem unplacedAll_eq_map (l : List Node) : unplacedAll l = l.map unplaced := by
  induction l with
  | nil => rw [unplacedAll]; rfl
  | cons child rest ih => rw [unplacedAll, ih, List.map_cons]

theorem children_unplaced (n : Node) : n.unplaced.children = n.children.map unplaced := by
  cases n
  rw [unplaced, children, unplacedAll_eq_map]
  rfl

theorem members_unplaced (n : Node) : n.unplaced.members = n.members.map unplaced := by
  rw [members, children_unplaced, List.filter_map]
  simp only [members, Function.comp_def, kind_unplaced, isComment]

theorem pairs_unplaced (n : Node) : n.unplaced.pairs = n.pairs.map unplaced := by
  rw [pairs, members_unplaced, List.filter_map]
  simp only [pairs, Function.comp_def, kind_unplaced]

theorem child?_unplaced (n : Node) (role : Role) : n.unplaced.child? role = (n.child? role).map unplaced := by
  rw [child?, children_unplaced, List.find?_map]
  simp only [child?, Function.comp_def, role_unplaced]

theorem callArguments_unplaced (n : Node) : n.unplaced.callArguments = n.callArguments.map unplaced := by
  unfold callArguments
  rw [child?_unplaced]
  cases n.child? .arguments with
  | none => rfl
  | some list =>
    simp only [Option.map_some, kind_unplaced, members_unplaced]
    split <;> rfl

theorem unwrap_unplaced (n : Node) : n.unplaced.unwrap = n.unwrap.unplaced := by
  fun_induction unwrap n with
  | case1 n wrapper none =>
    rw [unwrap, if_pos (by rwa [kind_unplaced])]
    split
    · rfl
    next found =>
      rw [members_unplaced, none] at found
      cases found
  | case2 n wrapper inner rest listed ih =>
    rw [unwrap, if_pos (by rwa [kind_unplaced])]
    split
    next found =>
      rw [members_unplaced, listed] at found
      cases found
    next found =>
      rw [members_unplaced, listed, List.map_cons] at found
      cases found
      exact ih
  | case3 n plain =>
    rw [unwrap, if_neg (by rwa [kind_unplaced])]

theorem fieldName_unplaced (key : Node) : key.unplaced.fieldName = key.fieldName := by
  simp only [fieldName, kind_unplaced, text_unplaced]

theorem keyAndValue_unplaced (pair : Node) :
    pair.unplaced.keyAndValue = pair.keyAndValue.map (Option.map fun (name, value) => (name, value.unplaced)) := by
  unfold keyAndValue
  rw [child?_unplaced, child?_unplaced]
  cases pair.child? .key with
  | none => rfl
  | some key =>
    simp only [Option.map_some, fieldName_unplaced]
    cases key.fieldName with
    | error e => rfl
    | ok found =>
      cases found with
      | none => rfl
      | some name => cases pair.child? .value <;> rfl

end Syntax.Node

/-- A shape with the nodes that it carries changed. -/
def Shape.mapNodes (f : Node → Node) : Shape → Shape
  | .optionalOf inner => .optionalOf (f inner)
  | .arrayOf inner => .arrayOf (f inner)
  | .inlineObject literal => .inlineObject (f literal)
  | .composeCall members => .composeCall (members.map f)
  | .moduleImport key => .moduleImport (f key)
  | .moduleTable entries => .moduleTable (f entries)
  | .primitive type => .primitive type
  | .reference base => .reference base
  | .identifier name => .identifier name
  | .unrecognized kind => .unrecognized kind

namespace Shape

theorem ofBuilderCall_unplaced (method : Text) (args : List Node) :
    ofBuilderCall method (args.map Node.unplaced) = (ofBuilderCall method args).mapNodes Node.unplaced := by
  have rest : ofBuilderCall.rest method (args.map Node.unplaced) (.unrecognized .callExpression) =
      (ofBuilderCall.rest method args (.unrecognized .callExpression)).mapNodes Node.unplaced := by
    unfold ofBuilderCall.rest
    cases primitive? method with
    | some type => rfl
    | none =>
      cases args with
      | nil => rfl
      | cons first others =>
        simp only [List.map_cons, Node.kind_unplaced, Node.unwrap_unplaced]
        split
        · rfl
        · split <;> rfl
  unfold ofBuilderCall
  cases args with
  | nil => exact rest
  | cons first others =>
    cases others with
    | cons second others => exact rest
    | nil =>
      simp only [List.map_cons, List.map_nil] at rest ⊢
      split
      · rfl
      · split
        · rfl
        · exact rest

theorem ofMethodCall_unplaced (receiver method : Text) (args : List Node) :
    ofMethodCall receiver method (args.map Node.unplaced) =
      (ofMethodCall receiver method args).mapNodes Node.unplaced := by
  have other : ofMethodCall.other receiver method (args.map Node.unplaced) =
      (ofMethodCall.other receiver method args).mapNodes Node.unplaced := by
    unfold ofMethodCall.other
    split
    · exact ofBuilderCall_unplaced method args
    · rfl
  unfold ofMethodCall
  cases args with
  | nil => exact other
  | cons first others =>
    cases others with
    | cons second others => exact other
    | nil =>
      simp only [List.map_cons, List.map_nil] at other ⊢
      split
      · rfl
      · exact other

theorem ofCall_unplaced (n callee : Node) :
    ofCall n.unplaced callee.unplaced = (ofCall n callee).map (mapNodes Node.unplaced) := by
  unfold ofCall
  simp only [Node.kind_unplaced, Node.text_unplaced, Node.child?_unplaced, Node.callArguments_unplaced]
  split
  · cases callee.text with
    | error e => rfl
    | ok name =>
      change (if name = _ then _ else _) = Except.map _ (if name = _ then _ else _)
      split <;> rfl
  · split
    · cases callee.child? .receiver with
      | none => rfl
      | some receiver =>
        cases callee.child? .property with
        | none => rfl
        | some property =>
          simp only [Option.map_some, Node.text_unplaced, ofMethodCall_unplaced]
          cases receiver.text with
          | error e => rfl
          | ok name => cases property.text <;> rfl
    · rfl

/-- The shape of an expression does not depend on its rows. -/
theorem ofNode_unplaced (n : Node) : ofNode n.unplaced = (ofNode n).map (mapNodes Node.unplaced) := by
  unfold ofNode
  simp only [Node.kind_unplaced, Node.text_unplaced, Node.child?_unplaced]
  split
  · cases n.text with
    | error e => rfl
    | ok name =>
      cases based : referenceBase? name <;> simp [based, bind, Except.bind, pure, Except.pure, Except.map, mapNodes]
  · split
    · cases n.child? .callee with
      | none => rfl
      | some callee => exact ofCall_unplaced n callee
    · rfl

end Shape

namespace Schema

/-- The field of a pair does not depend on rows if the schema of its value does not. -/
theorem ofPair_unplaced {pair : Node}
    (same : ∀ name value, pair.keyAndValue = .ok (some (name, value)) → ofNode value.unplaced = ofNode value) :
    ofPair pair.unplaced = ofPair pair := by
  have unplaced := pair.keyAndValue_unplaced
  cases read : pair.keyAndValue with
  | error e =>
    rw [read] at unplaced
    rw [ofPair, ofPair, unplaced, read]
    rfl
  | ok found =>
    rw [read] at unplaced
    cases found with
    | none => rw [ofPair_of_nameless unplaced, ofPair_of_nameless read]
    | some named =>
      obtain ⟨name, value⟩ := named
      rw [ofPair_of_keyAndValue unplaced, ofPair_of_keyAndValue read, same name value read]

/-- The schema of an expression does not depend on its rows. -/
theorem ofNode_unplaced (n : Node) : ofNode n.unplaced = ofNode n := by
  induction n using reading_induction with
  | step n inside values =>
    rw [ofNode_eq_ofShape, ofNode_eq_ofShape, Shape.ofNode_unplaced]
    cases shape : Shape.ofNode n with
    | error e => rfl
    | ok read =>
      change ofShape (read.mapNodes Node.unplaced) = ofShape read
      cases read with
      | optionalOf inner =>
        have same := inside inner (.inl shape)
        simp only [Shape.mapNodes, ofShape, same]
      | arrayOf inner =>
        have same := inside inner (.inr shape)
        simp only [Shape.mapNodes, ofShape, same]
      | inlineObject literal =>
        have fields : literal.unplaced.pairs.filterMapM ofPair = literal.pairs.filterMapM ofPair := by
          rw [Node.pairs_unplaced, filterMapM_map]
          refine filterMapM_congr fun pair member => ofPair_unplaced fun name value read => ?_
          exact values literal pair name value shape member read
        simp only [Shape.mapNodes, ofShape, fields]
      | _ => rfl

end Schema
end SchemaTypes
