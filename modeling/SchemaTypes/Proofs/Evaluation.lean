import SchemaTypes.Proofs.AliasScope

/-!
Types in one recursion over the syntax. An expression is evaluated to its type directly, an object literal by describing
its fields, and these by evaluating the values of its pairs. Reading the expression as a schema first and writing the
type of the schema afterwards gives the same type, and the same error on ill-formed text.
-/

namespace SchemaTypes

open Syntax

theorem Syntax.Node.sizeOf_lt_of_mem_placedChildren {place : Placed} {n : Node} (member : place ∈ n.placedChildren) :
    sizeOf place.node < sizeOf n :=
  sizeOf_lt_of_mem_children (map_node_placedChildren n ▸ List.mem_map_of_mem member)

mutual

/-- The type of an expression on a line of a given depth. -/
def evaluate (aliases : AliasTable) (depth : Int) (expression : Node) : Except Error (Option TypeText) :=
  match _h : Shape.ofNode expression with
  | .error e => .error e
  | .ok (.optionalOf inner) => return (← evaluate aliases depth inner).map fun type => ⟨type.text, true⟩
  | .ok (.arrayOf inner) => return (← evaluate aliases depth inner).map fun type => ⟨type.text ++ "[]", false⟩
  | .ok (.primitive type) => .ok (some ⟨type.typeName, false⟩)
  | .ok (.inlineObject literal) => return some ⟨← renderInlineObject aliases depth literal, false⟩
  | .ok (.reference base) => .ok (some ⟨(aliases.get? base).getD base, false⟩)
  | .ok _ => .ok none
termination_by (sizeOf expression, 0)
decreasing_by
  all_goals exact Prod.Lex.left _ _ (Shape.sizeOf_lt_of_mem_nodes _h (by simp [Shape.nodes]))

/-- The type of an object literal, its fields one level deeper. -/
def renderInlineObject (aliases : AliasTable) (depth : Int) (literal : Node) : Except Error Text := do
  let fields ← describeFields false aliases (depth + 1) literal
  return objectText depth (fields.map fun field => fieldLine (depth + 1) field.name field.type)
termination_by (sizeOf literal, 1)
decreasing_by exact Prod.Lex.right _ Nat.zero_lt_one

/-- The fields of an object literal. A pair without a field name, or whose value has no type, is left out. -/
def describeFields (withDocs : Bool) (aliases : AliasTable) (depth : Int) (literal : Node) :
    Except Error (List DescribedField) :=
  (literal.placedChildren.filter (·.node.kind == .pair)).attach.filterMapM fun pair =>
    match _h : pair.val.node.keyAndValue with
    | .error e => .error e
    | .ok none => .ok none
    | .ok (some (name, value)) => do
      match ← evaluate aliases depth value with
      | none => return none
      | some type =>
        let doc ← if withDocs then pair.val.lastDoc else pure none
        return some ⟨name, type, doc⟩
termination_by (sizeOf literal, 0)
decreasing_by
  exact Prod.Lex.left _ _ (Nat.lt_trans (Node.sizeOf_lt_of_keyAndValue _h)
    (Node.sizeOf_lt_of_mem_placedChildren (List.mem_filter.mp pair.property).1))

end

/-- The fields of a literal are the described ones if the types of its values are the inferred ones. -/
theorem describeFields_of_values {withDocs : Bool} {aliases : AliasTable} {depth : Int} {literal : Node}
    (values : ∀ pair ∈ literal.pairs, ∀ name value, pair.keyAndValue = .ok (some (name, value)) →
      evaluate aliases depth value = inferType aliases depth value) :
    describeFields withDocs aliases depth literal =
      (Field.ofLiteral withDocs literal).map (List.map (Field.describe aliases depth)) := by
  have described : (Field.ofLiteral withDocs literal).map (List.map (Field.describe aliases depth)) =
      (literal.placedChildren.filter (·.node.kind == .pair)).filterMapM (describePair withDocs aliases depth) := by
    rw [Field.ofLiteral, ← filterMapM_map_result]
    exact filterMapM_congr fun pair _ => (describePair_eq withDocs aliases depth pair).symm
  rw [described, ← List.attach_map_subtype_val (literal.placedChildren.filter _), filterMapM_map, describeFields]
  refine filterMapM_congr fun pair _ => ?_
  have listed : pair.val.node ∈ literal.pairs :=
    map_node_filter_placedChildren literal ▸ List.mem_map_of_mem pair.property
  unfold describePair
  split
  next e read =>
    rw [read]
    rfl
  next read =>
    rw [read]
    rfl
  next name value read =>
    rw [read, values pair.val.node listed name value read]
    rfl

theorem Schema.fieldLines_eq_map (aliases : AliasTable) (depth : Int) (fields : List (Text × Schema)) :
    fieldLines aliases depth fields =
      fields.map fun (name, schema) => fieldLine depth name (schema.typeText aliases depth) := by
  induction fields with
  | nil => rw [fieldLines]; rfl
  | cons field rest ih => rw [fieldLines, ih]; rfl

/-- The type of an object literal is that of the schema of its fields. -/
theorem renderInlineObject_of_values {aliases : AliasTable} {depth : Int} {literal : Node}
    (values : ∀ pair ∈ literal.pairs, ∀ name value, pair.keyAndValue = .ok (some (name, value)) →
      evaluate aliases (depth + 1) value = inferType aliases (depth + 1) value) :
    renderInlineObject aliases depth literal =
      (literal.pairs.filterMapM Schema.ofPair).map fun fields =>
        ((Schema.object fields).typeText aliases depth).text := by
  rw [renderInlineObject, describeFields_of_values values, ofLiteral_undocumented]
  cases literal.pairs.filterMapM Schema.ofPair with
  | error e => rfl
  | ok fields =>
    simp only [Except.map, List.map_map, bind, Except.bind, pure, Except.pure, Schema.typeText,
      Schema.fieldLines_eq_map]
    rfl

/-- What a wrapper does to a type can be done before or after the type is written. -/
theorem map_typeText_wrapped {aliases : AliasTable} {depth : Int} {wrap : Schema → Schema} {write : TypeText → TypeText}
    (written : ∀ schema, (wrap schema).typeText aliases depth = write (schema.typeText aliases depth))
    (read : Except Error (Option Schema)) :
    (do return (← read.map (Option.map (·.typeText aliases depth))).map write) =
      (do return (← read).map wrap : Except Error (Option Schema)).map (Option.map (·.typeText aliases depth)) := by
  cases read with
  | error e => rfl
  | ok found =>
    cases found with
    | none => rfl
    | some schema => exact congrArg (Except.ok ∘ some) (written schema).symm

/-- Evaluating an expression is reading its schema and writing the type of the schema. -/
theorem evaluate_eq_inferType (aliases : AliasTable) (depth : Int) (expression : Node) :
    evaluate aliases depth expression = inferType aliases depth expression := by
  induction expression using Schema.reading_induction generalizing depth with
  | step n inside values =>
    rw [evaluate, inferType_eq_map, Schema.ofNode_eq_ofShape]
    split
    next e read =>
      rw [read]
      rfl
    next inner read =>
      rw [read, inside inner (.inl read), inferType_eq_map]
      exact map_typeText_wrapped (fun schema => by rw [Schema.typeText]) (Schema.ofNode inner)
    next inner read =>
      rw [read, inside inner (.inr read), inferType_eq_map]
      exact map_typeText_wrapped (fun schema => by rw [Schema.typeText]) (Schema.ofNode inner)
    next type read =>
      rw [read]
      simp [bind, Except.bind, Schema.ofShape, Except.map, Schema.typeText]
    next literal read =>
      rw [read, renderInlineObject_of_values fun pair member name value keyed =>
        values literal pair name value read member keyed (depth + 1)]
      change _ = Except.map _ (do return some (Schema.object (← literal.pairs.filterMapM Schema.ofPair)))
      cases literal.pairs.filterMapM Schema.ofPair with
      | error e => rfl
      | ok fields => simp [bind, Except.bind, pure, Except.pure, Except.map, Schema.typeText]
    next base read =>
      rw [read]
      simp [bind, Except.bind, Schema.ofShape, Except.map, Schema.typeText]
    next shape other₁ other₂ other₃ other₄ other₅ read =>
      rw [read]
      cases shape with
      | optionalOf inner => exact absurd rfl (other₁ inner)
      | arrayOf inner => exact absurd rfl (other₂ inner)
      | primitive type => exact absurd rfl (other₃ type)
      | inlineObject literal => exact absurd rfl (other₄ literal)
      | reference base => exact absurd rfl (other₅ base)
      | _ => rfl

/-- Describing the fields of a literal is reading them and writing their types. -/
theorem describeFields_eq (withDocs : Bool) (aliases : AliasTable) (depth : Int) (literal : Node) :
    describeFields withDocs aliases depth literal =
      (Field.ofLiteral withDocs literal).map (List.map (Field.describe aliases depth)) :=
  describeFields_of_values fun _ _ _ value _ => evaluate_eq_inferType aliases depth value

end SchemaTypes
