import SchemaTypes.Compilation.Generate

/-!
What type blocks depend on. A block reads the alias table only by looking base names up, and it has at least the line
that opens it. So blocks put under each other are their lines put under each other.
-/

namespace SchemaTypes

theorem Text.join_append (separator : Text) {front back : List Text} (first : front ≠ []) (second : back ≠ []) :
    Text.join separator (front ++ back) = Text.join separator front ++ separator ++ Text.join separator back := by
  induction front with
  | nil => exact absurd rfl first
  | cons t rest ih =>
    cases rest with
    | nil =>
      cases back with
      | nil => exact absurd rfl second
      | cons u back => rfl
    | cons u rest =>
      have further := ih (List.cons_ne_nil u rest)
      simp only [List.cons_append, Text.join] at further ⊢
      rw [further]
      simp only [List.append_assoc]

theorem Text.join_flatten (separator : Text) {blocks : List (List Text)} (nonempty : ∀ block ∈ blocks, block ≠ []) :
    Text.join separator blocks.flatten = Text.join separator (blocks.map (Text.join separator)) := by
  induction blocks with
  | nil => rfl
  | cons block rest ih =>
    have here := nonempty block List.mem_cons_self
    have further := ih fun other member => nonempty other (List.mem_cons_of_mem block member)
    cases rest with
    | nil => simp [Text.join]
    | cons next rest =>
      have there : (next :: rest).flatten ≠ [] := by
        have opening := nonempty next (List.mem_cons_of_mem block List.mem_cons_self)
        simp [opening]
      rw [List.flatten_cons, Text.join_append separator here there, further]
      rfl

mutual

theorem Schema.typeText_congr {aliases aliases' : AliasTable} (same : ∀ base, aliases'.get? base = aliases.get? base)
    (depth : Int) (schema : Schema) : schema.typeText aliases' depth = schema.typeText aliases depth := by
  cases schema with
  | primitive type => simp only [Schema.typeText]
  | reference base => simp only [Schema.typeText, same]
  | optional inner => simp only [Schema.typeText, Schema.typeText_congr same depth inner]
  | array inner => simp only [Schema.typeText, Schema.typeText_congr same depth inner]
  | object fields => simp only [Schema.typeText, Schema.fieldLines_congr same (depth + 1) fields]

theorem Schema.fieldLines_congr {aliases aliases' : AliasTable} (same : ∀ base, aliases'.get? base = aliases.get? base)
    (depth : Int) (fields : List (Text × Schema)) :
    Schema.fieldLines aliases' depth fields = Schema.fieldLines aliases depth fields := by
  cases fields with
  | nil => simp only [Schema.fieldLines]
  | cons field rest =>
    obtain ⟨name, schema⟩ := field
    simp only [Schema.fieldLines, Schema.typeText_congr same depth schema, Schema.fieldLines_congr same depth rest]

end

namespace Declaration

/-- Tables that are the same mapping give the same block, whatever the order of their entries. -/
theorem blockLines_congr {aliases aliases' : AliasTable} (same : ∀ base, aliases'.get? base = aliases.get? base)
    (declaration : Declaration) (type : Text) :
    declaration.blockLines type aliases' = declaration.blockLines type aliases := by
  have fieldBlocks : Field.blockLines aliases' = Field.blockLines aliases := by
    funext field
    simp only [Field.blockLines, Field.line, Schema.typeText_congr same]
  simp only [blockLines, fieldBlocks]

theorem blockLines_eq_ok {declaration : Declaration} {type : Text} {aliases : AliasTable} {lines : List Text}
    (success : declaration.blockLines type aliases = .ok lines) :
    ∃ (doc : Option Text) (fields : List (List Field)),
      declaration.objects.mapM (Field.ofLiteral true) = .ok fields ∧
      lines = doc.toList ++ [("export type " ++ type ++ " = \x7b" : Text)] ++
        fields.flatten.flatMap (Field.blockLines aliases) ++ [("\x7d" : Text)] := by
  unfold blockLines at success
  cases described : declaration.objects.mapM (Field.ofLiteral true) with
  | error e =>
    simp only [described, bind, Except.bind] at success
    split at success
    · split at success <;> cases success
    · cases success
  | ok fields =>
    simp only [described, bind, Except.bind] at success
    split at success
    · split at success
      · cases success
      next doc _ => exact ⟨doc, fields, rfl, (Except.ok.inj success).symm⟩
    · exact ⟨none, fields, rfl, (Except.ok.inj success).symm⟩

theorem blockLines_ne_nil {declaration : Declaration} {type : Text} {aliases : AliasTable} {lines : List Text}
    (success : declaration.blockLines type aliases = .ok lines) : lines ≠ [] := by
  obtain ⟨doc, fields, -, rfl⟩ := blockLines_eq_ok success
  simp

end Declaration
end SchemaTypes
