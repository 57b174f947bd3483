import SchemaTypes.Proofs.SchemaReading
import SchemaTypes.Proofs.TypeStructure

/-!
What the types of expressions depend on. Which pairs of an object literal become fields, and whether these may be left
out, is settled by the syntax alone. Aliases are looked up only at the bases of the references in the expression, and the
depth only shows in the text of types. A pair that becomes no field leaves no trace.
-/

namespace SchemaTypes

open Syntax

/-! ### References -/

/-- An identifier in an expression is a reference with a base. -/
def Syntax.Node.RefersTo (expression : Node) (base : Text) : Prop :=
  ∃ (node : Node) (name : Text), node.PartOf expression ∧ node.kind = .identifier ∧ node.text = .ok name ∧
    referenceBase? name = some base

theorem Syntax.Node.RefersTo.of_part {part whole : Node} {base : Text} (refers : part.RefersTo base)
    (inside : part.PartOf whole) : whole.RefersTo base := by
  obtain ⟨node, name, further, identifier, named, based⟩ := refers
  exact ⟨node, name, further.trans inside, identifier, named, based⟩

/-- The bases of all references in an expression, in source order. -/
def Syntax.Node.referenceBases (expression : Node) : List Text :=
  (expression.parts.filter (·.kind == .identifier)).filterMap fun node => node.text.toOption.bind referenceBase?

theorem Syntax.Node.RefersTo.mem_referenceBases {expression : Node} {base : Text} (refers : expression.RefersTo base) :
    base ∈ expression.referenceBases := by
  obtain ⟨node, name, inside, identifier, named, based⟩ := refers
  refine List.mem_filterMap.mpr ⟨node, List.mem_filter.mpr ⟨mem_parts_of_partOf inside, by simp [identifier]⟩, ?_⟩
  simp [named, Except.toOption, based]

theorem Shape.refersTo_of_reference {n : Node} {base : Text} (read : ofNode n = .ok (.reference base)) :
    n.RefersTo base := by
  rcases ofNode_cases read with ⟨identifier, name, named, shape⟩ | call
  · refine ⟨n, name, .refl n, identifier, named, ?_⟩
    cases based : referenceBase? name with
    | none =>
      rw [based] at shape
      cases shape
    | some found =>
      rw [based] at shape
      cases shape
      rfl
  · cases call

namespace Schema

mutual

/-- The bases of the references in a schema. -/
def bases : Schema → List Text
  | .primitive _ => []
  | .reference base => [base]
  | .optional inner => inner.bases
  | .array inner => inner.bases
  | .object fields => fieldBases fields

def fieldBases : List (Text × Schema) → List Text
  | [] => []
  | (_, schema) :: rest => schema.bases ++ fieldBases rest

end

theorem mem_fieldBases {fields : List (Text × Schema)} {base : Text} :
    base ∈ fieldBases fields ↔ ∃ field ∈ fields, base ∈ field.2.bases := by
  induction fields with
  | nil => simp [fieldBases]
  | cons field rest ih =>
    obtain ⟨name, schema⟩ := field
    rw [fieldBases, List.mem_append, ih]
    simp

mutual

/-- Tables that agree on the bases of a schema give it the same type. -/
theorem typeText_of_agree {aliases aliases' : AliasTable} (depth : Int) (schema : Schema)
    (agree : ∀ base ∈ schema.bases, aliases'.get? base = aliases.get? base) :
    schema.typeText aliases' depth = schema.typeText aliases depth := by
  cases schema with
  | primitive type => simp only [typeText]
  | reference base => simp only [typeText, agree base (by simp [bases])]
  | optional inner =>
    rw [bases] at agree
    simp only [typeText, typeText_of_agree depth inner agree]
  | array inner =>
    rw [bases] at agree
    simp only [typeText, typeText_of_agree depth inner agree]
  | object fields =>
    rw [bases] at agree
    simp only [typeText, fieldLines_of_agree (depth + 1) fields agree]

theorem fieldLines_of_agree {aliases aliases' : AliasTable} (depth : Int) (fields : List (Text × Schema))
    (agree : ∀ base ∈ fieldBases fields, aliases'.get? base = aliases.get? base) :
    fieldLines aliases' depth fields = fieldLines aliases depth fields := by
  cases fields with
  | nil => simp only [fieldLines]
  | cons field rest =>
    obtain ⟨name, schema⟩ := field
    rw [fieldBases] at agree
    have here := typeText_of_agree depth schema fun base member => agree base (List.mem_append_left _ member)
    have further := fieldLines_of_agree depth rest fun base member => agree base (List.mem_append_right _ member)
    simp only [fieldLines, here, further]

end

/-- Every base of a schema is that of a reference in the expression it was read from. -/
theorem refersTo_of_mem_bases {n : Node} {schema : Schema} {base : Text} (read : ofNode n = .ok (some schema))
    (member : base ∈ schema.bases) : n.RefersTo base := by
  induction n using reading_induction generalizing schema with
  | step n inside values =>
    rw [ofNode_eq_ofShape] at read
    obtain ⟨shape, shaped, read⟩ := bind_eq_ok_iff.mp read
    cases shape with
    | primitive type =>
      cases read
      simp [bases] at member
    | reference base' =>
      cases read
      rw [bases, List.mem_singleton] at member
      exact member ▸ Shape.refersTo_of_reference shaped
    | optionalOf inner =>
      obtain ⟨found, innerRead, same⟩ := bind_eq_ok_iff.mp read
      cases found with
      | none => cases same
      | some element =>
        cases same
        rw [bases] at member
        have part : inner.PartOf n := Shape.partOf_of_mem_nodes shaped (by simp [Shape.nodes])
        exact (inside inner (.inl shaped) innerRead member).of_part part
    | arrayOf inner =>
      obtain ⟨found, innerRead, same⟩ := bind_eq_ok_iff.mp read
      cases found with
      | none => cases same
      | some element =>
        cases same
        rw [bases] at member
        have part : inner.PartOf n := Shape.partOf_of_mem_nodes shaped (by simp [Shape.nodes])
        exact (inside inner (.inr shaped) innerRead member).of_part part
    | inlineObject literal =>
      obtain ⟨fields, fieldsRead, same⟩ := bind_eq_ok_iff.mp read
      cases same
      rw [bases, mem_fieldBases] at member
      obtain ⟨⟨name, schema⟩, listed, member⟩ := member
      obtain ⟨pair, paired, built⟩ := mem_of_filterMapM fieldsRead _ listed
      obtain ⟨value, keyed, valueRead⟩ := ofPair_eq_some built
      have part : value.PartOf n := (Node.partOf_of_keyAndValue keyed).trans
        ((Node.partOf_of_mem_pairs paired).trans (Shape.partOf_of_mem_nodes shaped (by simp [Shape.nodes])))
      exact (values literal pair name value shaped paired keyed valueRead member).of_part part
    | _ => cases read

end Schema

/-! ### Inferred types -/

theorem inferType_eq_map (aliases : AliasTable) (depth : Int) (expression : Node) :
    inferType aliases depth expression = (Schema.ofNode expression).map (Option.map (·.typeText aliases depth)) := by
  rw [inferType]
  cases Schema.ofNode expression <;> rfl

/-- Whether an expression has a type, and the mark of the type, do not depend on aliases and depth. -/
theorem optional_inferType (aliases : AliasTable) (depth : Int) (expression : Node) :
    (inferType aliases depth expression).map (Option.map TypeText.optional) =
      (Schema.ofNode expression).map (Option.map Schema.isOptional) := by
  rw [inferType_eq_map]
  cases Schema.ofNode expression with
  | error e => rfl
  | ok found =>
    cases found with
    | none => rfl
    | some schema =>
      simp only [Except.map, Option.map_some]
      rw [Schema.optional_typeText]

/-- Tables that agree on the references in an expression give it the same type. -/
theorem inferType_of_agree {aliases aliases' : AliasTable} (depth : Int) (expression : Node)
    (agree : ∀ base, expression.RefersTo base → aliases'.get? base = aliases.get? base) :
    inferType aliases' depth expression = inferType aliases depth expression := by
  rw [inferType_eq_map, inferType_eq_map]
  cases read : Schema.ofNode expression with
  | error e => rfl
  | ok found =>
    cases found with
    | none => rfl
    | some schema =>
      have same := schema.typeText_of_agree depth fun base member => agree base (Schema.refersTo_of_mem_bases read member)
      simp only [Except.map, Option.map_some, same]

/-! ### Described fields -/

/-- A field as it is described: with its type on a line of some depth. -/
structure DescribedField where
  name : Text
  type : TypeText
  doc : Option Text

/-- What a description has besides the text of the type: the name, the mark and the documentation. -/
def DescribedField.outline (field : DescribedField) : Text × Bool × Option Text :=
  (field.name, field.type.optional, field.doc)

def Field.describe (aliases : AliasTable) (depth : Int) (field : Field) : DescribedField :=
  ⟨field.name, field.schema.typeText aliases depth, field.doc⟩

/-- A pair in its place as it is described, by the type of its value. -/
def describePair (withDocs : Bool) (aliases : AliasTable) (depth : Int) (pair : Placed) :
    Except Error (Option DescribedField) := do
  match ← pair.node.keyAndValue with
  | none => return none
  | some (name, value) =>
    match ← inferType aliases depth value with
    | none => return none
    | some type =>
      let doc ← if withDocs then pair.lastDoc else pure none
      return some ⟨name, type, doc⟩

/-- The pairs of an object literal that become fields, in source order and as they are described. -/
def describePairs (withDocs : Bool) (aliases : AliasTable) (depth : Int) (literal : Node) :
    Except Error (List (Placed × DescribedField)) :=
  (literal.placedChildren.filter (·.node.kind == .pair)).filterMapM fun pair =>
    (describePair withDocs aliases depth pair).map (Option.map (pair, ·))

theorem describePair_eq (withDocs : Bool) (aliases : AliasTable) (depth : Int) (pair : Placed) :
    describePair withDocs aliases depth pair =
      (Field.ofPair withDocs pair).map (Option.map (Field.describe aliases depth)) := by
  unfold describePair Field.ofPair
  cases pair.node.keyAndValue with
  | error e => rfl
  | ok found =>
    cases found with
    | none => rfl
    | some named =>
      obtain ⟨name, value⟩ := named
      simp only [bind, Except.bind, inferType_eq_map]
      cases Schema.ofNode value with
      | error e => rfl
      | ok found =>
        cases found with
        | none => rfl
        | some schema =>
          cases withDocs with
          | false => rfl
          | true => cases pair.lastDoc <;> simp [Except.map, pure, Except.pure, Field.describe]

/-- The pairs that become fields, with their fields, before anything is looked up. -/
def fieldPairs (withDocs : Bool) (literal : Node) : Except Error (List (Placed × Field)) :=
  (literal.placedChildren.filter (·.node.kind == .pair)).filterMapM fun pair =>
    (Field.ofPair withDocs pair).map (Option.map (pair, ·))

theorem describePairs_eq (withDocs : Bool) (aliases : AliasTable) (depth : Int) (literal : Node) :
    describePairs withDocs aliases depth literal =
      (fieldPairs withDocs literal).map (List.map fun (pair, field) => (pair, field.describe aliases depth)) := by
  rw [describePairs, fieldPairs, ← filterMapM_map_result]
  refine filterMapM_congr fun pair _ => ?_
  rw [describePair_eq]
  cases Field.ofPair withDocs pair with
  | error e => rfl
  | ok found => cases found <;> rfl

/-- Without their places, the described pairs are the fields of the literal. -/
theorem map_snd_describePairs (withDocs : Bool) (aliases : AliasTable) (depth : Int) (literal : Node) :
    (describePairs withDocs aliases depth literal).map (List.map Prod.snd) =
      (Field.ofLiteral withDocs literal).map (List.map (Field.describe aliases depth)) := by
  rw [describePairs, Field.ofLiteral, ← filterMapM_map_result, ← filterMapM_map_result]
  refine filterMapM_congr fun pair _ => ?_
  rw [describePair_eq]
  cases Field.ofPair withDocs pair with
  | error e => rfl
  | ok found => cases found <;> rfl

/-- Which pairs become fields, and their outlines, do not depend on aliases and depth. -/
theorem outline_describePairs (withDocs : Bool) (aliases : AliasTable) (depth : Int) (literal : Node) :
    (describePairs withDocs aliases depth literal).map (List.map fun (pair, field) => (pair, field.outline)) =
      (fieldPairs withDocs literal).map
        (List.map fun (pair, field) => (pair, field.name, field.schema.isOptional, field.doc)) := by
  rw [describePairs_eq]
  cases fieldPairs withDocs literal with
  | error e => rfl
  | ok found =>
    simp only [Except.map, List.map_map, Except.ok.injEq]
    refine List.map_congr_left fun pair _ => ?_
    simp only [Function.comp_apply, DescribedField.outline, Field.describe, Schema.optional_typeText]

theorem describePair_of_agree {withDocs : Bool} {aliases aliases' : AliasTable} (depth : Int) {pair : Placed}
    (agree : ∀ base, pair.node.RefersTo base → aliases'.get? base = aliases.get? base) :
    describePair withDocs aliases' depth pair = describePair withDocs aliases depth pair := by
  unfold describePair
  cases read : pair.node.keyAndValue with
  | error e => rfl
  | ok found =>
    cases found with
    | none => rfl
    | some named =>
      obtain ⟨name, value⟩ := named
      have part := Node.partOf_of_keyAndValue read
      have same := inferType_of_agree depth value fun base refers => agree base (refers.of_part part)
      simp only [bind, Except.bind, same]

theorem describePairs_of_agree {withDocs : Bool} {aliases aliases' : AliasTable} (depth : Int) {literal : Node}
    (agree : ∀ base, literal.RefersTo base → aliases'.get? base = aliases.get? base) :
    describePairs withDocs aliases' depth literal = describePairs withDocs aliases depth literal := by
  refine filterMapM_congr fun pair member => ?_
  have part := Node.partOf_of_mem_placedChildren (List.mem_filter.mp member).1
  rw [describePair_of_agree depth fun base refers => agree base (refers.of_part part)]

/-! ### Dropped pairs -/

/-- A pair becomes no field: it has no field name or no value, or the value is not in the builder's vocabulary. -/
def Syntax.Node.IsDropped (pair : Node) : Prop :=
  pair.keyAndValue = .ok none ∨
    ∃ name value, pair.keyAndValue = .ok (some (name, value)) ∧ Schema.ofNode value = .ok none

theorem Schema.ofPair_of_isDropped {pair : Node} (dropped : pair.IsDropped) : Schema.ofPair pair = .ok none := by
  rcases dropped with nameless | ⟨name, value, read, outside⟩
  · exact ofPair_of_nameless nameless
  · rw [ofPair_of_keyAndValue read, outside]
    rfl

theorem Syntax.Node.isDropped_of_ofPair {pair : Node} (built : Schema.ofPair pair = .ok none) : pair.IsDropped := by
  cases read : pair.keyAndValue with
  | error e =>
    rw [Schema.ofPair, read] at built
    cases built
  | ok found =>
    cases found with
    | none => exact .inl read
    | some named =>
      obtain ⟨name, value⟩ := named
      rw [Schema.ofPair_of_keyAndValue read] at built
      refine .inr ⟨name, value, read, ?_⟩
      cases outside : Schema.ofNode value with
      | error e =>
        rw [outside] at built
        cases built
      | ok found =>
        cases found with
        | none => rfl
        | some schema =>
          rw [outside] at built
          cases built

theorem map_node_filter_placedChildren (literal : Node) :
    (literal.placedChildren.filter (·.node.kind == .pair)).map Placed.node = literal.pairs := by
  have moved : (literal.placedChildren.filter (·.node.kind == .pair)).map Placed.node =
      (literal.placedChildren.map Placed.node).filter (·.kind == .pair) := by
    rw [List.filter_map]
    rfl
  rw [moved, Node.map_node_placedChildren, Node.pairs, Node.members, List.filter_filter]
  refine List.filter_congr fun child _ => ?_
  cases told : child.kind == .pair with
  | false => rfl
  | true =>
    -- a pair is neither punctuation nor a comment
    rw [Node.isComment, eq_of_beq told]
    rfl

/-- Without documentation, the fields of a literal are those of its pairs, wherever they stand. -/
theorem ofLiteral_undocumented (literal : Node) :
    Field.ofLiteral false literal =
      (literal.pairs.filterMapM Schema.ofPair).map (List.map fun (name, schema) => ⟨name, schema, none⟩) := by
  rw [← map_node_filter_placedChildren, filterMapM_map, ← filterMapM_map_result, Field.ofLiteral]
  refine filterMapM_congr fun pair _ => ?_
  unfold Field.ofPair Schema.ofPair
  cases pair.node.keyAndValue with
  | error e => rfl
  | ok found =>
    cases found with
    | none => rfl
    | some named =>
      obtain ⟨name, value⟩ := named
      simp only [bind, Except.bind]
      cases Schema.ofNode value with
      | error e => rfl
      | ok found => cases found <;> rfl

/-- A dropped pair may be taken out of a literal, however the rows of the others change. -/
theorem ofLiteral_without_dropped {literal literal' dropped : Node} {before after : List Node}
    (split : literal.pairs = before ++ dropped :: after)
    (others : literal'.pairs.map Node.unplaced = (before ++ after).map Node.unplaced) (drop : dropped.IsDropped) :
    Field.ofLiteral false literal' = Field.ofLiteral false literal := by
  have unplaced (pairs : List Node) :
      pairs.filterMapM Schema.ofPair = (pairs.map Node.unplaced).filterMapM Schema.ofPair := by
    rw [filterMapM_map]
    refine filterMapM_congr fun pair _ => (Schema.ofPair_unplaced fun _ value _ => ?_).symm
    exact Schema.ofNode_unplaced value
  have same : literal'.pairs.filterMapM Schema.ofPair = literal.pairs.filterMapM Schema.ofPair := calc
    literal'.pairs.filterMapM Schema.ofPair = (literal'.pairs.map Node.unplaced).filterMapM Schema.ofPair := unplaced _
    _ = ((before ++ after).map Node.unplaced).filterMapM Schema.ofPair := by rw [others]
    _ = (before ++ after).filterMapM Schema.ofPair := (unplaced _).symm
    _ = literal.pairs.filterMapM Schema.ofPair := by
      rw [split, filterMapM_append_of_none (Schema.ofPair_of_isDropped drop)]
  rw [ofLiteral_undocumented, ofLiteral_undocumented, same]

/-- What aliases and depth can change. Under any two tables and at any two depths, an expression has a type or none or
raises alike, with one mark, and an object literal keeps the same pairs as fields, in source order and with the same names,
marks and documentation. At one depth, tables that give the same answer for the base of every reference in an expression or
a literal give the same types, to the letter. And a pair that is dropped has no part in the fields: without documentation,
a literal that has all the other pairs, on whatever rows, has the same fields. -/
theorem aliases_and_depth_scope (aliases aliases' : AliasTable) (depth depth' : Int) :
    (∀ expression, (inferType aliases depth expression).map (Option.map TypeText.optional) =
      (inferType aliases' depth' expression).map (Option.map TypeText.optional)) ∧
    (∀ withDocs literal,
      (describePairs withDocs aliases depth literal).map (List.map Prod.snd) =
        (Field.ofLiteral withDocs literal).map (List.map (Field.describe aliases depth)) ∧
      (describePairs withDocs aliases depth literal).map (List.map fun (pair, field) => (pair, field.outline)) =
        (describePairs withDocs aliases' depth' literal).map (List.map fun (pair, field) => (pair, field.outline))) ∧
    (∀ expression : Node, (∀ base, expression.RefersTo base → aliases'.get? base = aliases.get? base) →
      inferType aliases' depth expression = inferType aliases depth expression) ∧
    (∀ withDocs (literal : Node), (∀ base, literal.RefersTo base → aliases'.get? base = aliases.get? base) →
      describePairs withDocs aliases' depth literal = describePairs withDocs aliases depth literal) ∧
    (∀ (literal literal' dropped : Node) (before after : List Node), literal.pairs = before ++ dropped :: after →
      literal'.pairs.map Node.unplaced = (before ++ after).map Node.unplaced → dropped.IsDropped →
      (describePairs false aliases depth literal').map (List.map Prod.snd) =
        (describePairs false aliases depth literal).map (List.map Prod.snd)) := by
  refine ⟨fun expression => ?_, fun withDocs literal => ⟨map_snd_describePairs withDocs aliases depth literal, ?_⟩,
    fun expression agree => inferType_of_agree depth expression agree,
    fun withDocs literal agree => describePairs_of_agree depth agree,
    fun literal literal' dropped before after split others drop => ?_⟩
  · rw [optional_inferType, optional_inferType]
  · rw [outline_describePairs, outline_describePairs]
  · rw [map_snd_describePairs, map_snd_describePairs, ofLiteral_without_dropped split others drop]

/-- A node without some of its children. -/
def Syntax.Node.without (drops : Node → Bool) : Node → Node
  | .mk kind role bytes startRow endRow children =>
    .mk kind role bytes startRow endRow (children.filter (!drops ·))

theorem Syntax.Node.pairs_without (drops : Node → Bool) (literal : Node) :
    (literal.without drops).pairs = literal.pairs.filter (!drops ·) := by
  cases literal
  simp only [without, pairs, members, children, List.filter_filter, Bool.and_comm, Bool.and_left_comm]

/-- An array of a reference that has an alias. -/
def aliasedArray : Node := Field.literalOf "(Type.Array(XRef))"

/-- A literal with a reference that has an alias, a pair that is dropped, and an array of a reference that has none. -/
def droppedPair : Node := Field.literalOf "(\x7ba:XRef,b:1,c:Type.Array(YRef)\x7d)"

def fewAliases : AliasTable := .ofList [("X", "T")]

def moreAliases : AliasTable := .ofList [("X", "T"), ("Z", "U")]

theorem moreAliases_agree {base : Text} (listed : base ∈ [("X" : Text), ("Y" : Text)]) :
    moreAliases.get? base = fewAliases.get? base := by
  have agree : ∀ base ∈ [("X" : Text), ("Y" : Text)], moreAliases.get? base = fewAliases.get? base := by decide
  exact agree base listed

set_option maxRecDepth 100000 in
theorem aliases_and_depth_scope_droppedPair :
    let shorter := droppedPair.without (·.bytes == "b:1".toUTF8.toList)
    (inferType fewAliases 1 aliasedArray).toOption.join.map TypeText.text = some ("T[]" : Text) ∧
    inferType moreAliases 1 aliasedArray = inferType fewAliases 1 aliasedArray ∧
    (describePairs false fewAliases 1 droppedPair).toOption.map
      (List.map fun (_, field) => (field.name, field.type.text)) =
        some [(("a" : Text), ("T" : Text)), (("c" : Text), ("Y[]" : Text))] ∧
    describePairs false moreAliases 1 droppedPair = describePairs false fewAliases 1 droppedPair ∧
    (describePairs false fewAliases 1 shorter).map (List.map Prod.snd) =
      (describePairs false fewAliases 1 droppedPair).map (List.map Prod.snd) := by
  intro shorter
  have array : aliasedArray.referenceBases = [("X" : Text)] := by decide +kernel
  have references : droppedPair.referenceBases = [("X" : Text), ("Y" : Text)] := by decide +kernel
  have seen : droppedPair.pairs.map (fun pair =>
      (pair.bytes == "b:1".toUTF8.toList, (Schema.ofPair pair).toOption.map Option.isNone)) =
        [(false, some false), (true, some true), (false, some false)] := by
    decide +kernel
  obtain ⟨-, -, types, fields, pairs⟩ := aliases_and_depth_scope fewAliases moreAliases 1 1
  refine ⟨by decide +kernel, types aliasedArray fun base refers => ?_, by decide +kernel,
    fields false droppedPair fun base refers => ?_, ?_⟩
  · have member := refers.mem_referenceBases
    rw [array] at member
    exact moreAliases_agree (List.mem_cons.mpr (.inl (List.mem_singleton.mp member)))
  · have member := refers.mem_referenceBases
    rw [references] at member
    exact moreAliases_agree member
  · obtain ⟨first, rest, listed, firstSeen, seen⟩ := List.map_eq_cons_iff.mp seen
    obtain ⟨second, rest, rfl, secondSeen, seen⟩ := List.map_eq_cons_iff.mp seen
    obtain ⟨third, rest, rfl, thirdSeen, seen⟩ := List.map_eq_cons_iff.mp seen
    obtain rfl := List.map_eq_nil_iff.mp seen
    simp only [Prod.mk.injEq] at firstSeen secondSeen thirdSeen
    have kept : shorter.pairs = [first] ++ [third] := by
      rw [Node.pairs_without, listed]
      simp only [List.filter, firstSeen.1, secondSeen.1, thirdSeen.1, Bool.not_false, Bool.not_true,
        List.singleton_append]
    have drop : second.IsDropped := Node.isDropped_of_ofPair (eq_ok_none_of_toOption secondSeen.2)
    exact pairs droppedPair shorter second [first] [third] listed (by rw [kept]) drop

end SchemaTypes
