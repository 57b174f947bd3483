import SchemaTypes.DocComment
import SchemaTypes.Shape
import SchemaTypes.StringLiteral

/-!
Schemas as builder expressions write them. Reading an expression can fail on ill-formed text; an expression outside the
builder's vocabulary is read as no schema at all.
-/

namespace SchemaTypes

open Syntax

inductive Schema where
  | primitive (type : Primitive)
  | reference (base : Text)
  | optional (inner : Schema)
  | array (inner : Schema)
  | object (fields : List (Text × Schema))

/-- A field of an object literal with its documentation. -/
structure Field where
  name : Text
  schema : Schema
  doc : Option Text

/-- The name a key of an object literal gives to its field. Computed keys give none. -/
def Syntax.Node.fieldName (key : Node) : Except Error (Option Text) := do
  if key.kind == .propertyIdentifier || key.kind == .identifier || key.kind == .number then
    return some (← key.text)
  else if key.kind == .string then
    return some (← StringLiteral.value (← key.text))
  else return none

/-- The field name and the value of a `key: value` pair. -/
def Syntax.Node.keyAndValue (pair : Node) : Except Error (Option (Text × Node)) := do
  match pair.child? .key with
  | none => return none
  | some key =>
    match ← key.fieldName, pair.child? .value with
    | some name, some value => return some (name, value)
    | _, _ => return none

/-- The `key: value` pairs of an object literal. -/
def Syntax.Node.pairs (literal : Node) : List Node := literal.members.filter (·.kind == .pair)

theorem sizeOf_filter_le {α : Type} [SizeOf α] (p : α → Bool) (l : List α) : sizeOf (l.filter p) ≤ sizeOf l := by
  induction l with
  | nil => simp
  | cons a l ih =>
    by_cases h : p a
    · simp only [List.filter_cons_of_pos h, List.cons.sizeOf_spec]
      omega
    · rw [List.filter_cons_of_neg h, List.cons.sizeOf_spec]
      omega

theorem Syntax.Node.sizeOf_pairs_lt (literal : Node) : sizeOf literal.pairs < sizeOf literal := by
  cases literal with
  | mk kind role bytes startRow endRow children =>
    have h1 := sizeOf_filter_le (fun c : Node => c.kind.isNamed && !c.isComment) children
    have h2 := sizeOf_filter_le (fun c : Node => c.kind == .pair)
      (children.filter fun c : Node => c.kind.isNamed && !c.isComment)
    simp only [pairs, members, Node.children, Node.mk.sizeOf_spec]
    omega

theorem Syntax.Node.sizeOf_lt_of_keyAndValue {pair value : Node} {name : Text}
    (h : pair.keyAndValue = .ok (some (name, value))) : sizeOf value < sizeOf pair := by
  unfold keyAndValue at h
  split at h
  · cases h
  · rename_i key _
    cases hk : key.fieldName with
    | error e => simp [hk, bind, Except.bind] at h
    | ok found =>
      simp only [hk, bind, Except.bind] at h
      split at h
      · rename_i value' hv
        cases h
        exact sizeOf_lt_of_child?_eq_some hv
      · cases h

namespace Schema

mutual

/-- The schema that an expression builds. -/
def ofNode (n : Node) : Except Error (Option Schema) :=
  match _h : Shape.ofNode n with
  | .error e => .error e
  | .ok (.primitive type) => .ok (some (.primitive type))
  | .ok (.reference base) => .ok (some (.reference base))
  | .ok (.optionalOf inner) => return (← ofNode inner).map .optional
  | .ok (.arrayOf inner) => return (← ofNode inner).map .array
  | .ok (.inlineObject literal) => return some (.object (← ofPairs literal.pairs))
  | .ok _ => .ok none
termination_by sizeOf n
decreasing_by
  · exact Shape.sizeOf_lt_of_mem_nodes _h (by simp [Shape.nodes])
  · exact Shape.sizeOf_lt_of_mem_nodes _h (by simp [Shape.nodes])
  · exact Nat.lt_trans (Node.sizeOf_pairs_lt literal) (Shape.sizeOf_lt_of_mem_nodes _h (by simp [Shape.nodes]))

/-- The fields that pairs build. A pair without a field name or a schema is left out. -/
def ofPairs : List Node → Except Error (List (Text × Schema))
  | [] => .ok []
  | pair :: rest =>
    match _h : pair.keyAndValue with
    | .error e => .error e
    | .ok none => ofPairs rest
    | .ok (some (name, value)) => do
      match ← ofNode value with
      | none => ofPairs rest
      | some schema => return (name, schema) :: (← ofPairs rest)
termination_by pairs => sizeOf pairs
decreasing_by
  · simp only [List.cons.sizeOf_spec]; omega
  · have := Node.sizeOf_lt_of_keyAndValue _h
    simp only [List.cons.sizeOf_spec]; omega
  · simp only [List.cons.sizeOf_spec]; omega
  · simp only [List.cons.sizeOf_spec]; omega

end

end Schema

/-- The field that a pair in its place describes. Its documentation is looked at only if it is asked for. -/
def Field.ofPair (withDocs : Bool) (pair : Placed) : Except Error (Option Field) := do
  match ← pair.node.keyAndValue with
  | none => return none
  | some (name, value) =>
    match ← Schema.ofNode value with
    | none => return none
    | some schema =>
      let doc ← if withDocs then pair.lastDoc else pure none
      return some ⟨name, schema, doc⟩

/-- The fields of an object literal, in source order. -/
def Field.ofLiteral (withDocs : Bool) (literal : Node) : Except Error (List Field) :=
  (literal.placedChildren.filter (·.node.kind == .pair)).filterMapM (Field.ofPair withDocs)

end SchemaTypes
