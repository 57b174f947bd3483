import SchemaTypes.Proofs.FieldNames
import SchemaTypes.Proofs.Outcomes
import SchemaTypes.SourceFile
import SchemaTypes.TypeText

/-!
Written types are uniquely readable. The structure of a type is what its text shows: leaves with their names, arrays, and
objects with the names and the marks of their fields in order. Two types on lines of one depth have one text exactly if
they have one structure.

The argument reads both texts from the left. A leaf ends at a bracket or a line end, an object at its closing brace, and
the brace is told from a further field by the indentation before it.
-/

namespace SchemaTypes

/-- What the text of a type shows. A field has its name, its mark and its type. -/
inductive TypeStructure where
  | leaf (name : Text)
  | array (element : TypeStructure)
  | object (fields : List (Text × Bool × TypeStructure))

/-- Whether a name can be told from an inline object and from the brackets and line ends after it. -/
def isReadableName (name : Text) : Bool :=
  name.all (fun c => c ≠ 0x0A && c ≠ 0x5B) && name.head?.any (· ≠ 0x7B)

theorem Primitive.isReadableName_typeName (type : Primitive) : isReadableName type.typeName = true := by
  cases type <;> decide

namespace Schema

def isOptional : Schema → Bool
  | .optional _ => true
  | _ => false

mutual

/-- The structure of a schema's type. A mark counts where it is a field's own, and is dropped everywhere else. -/
def typeStructure (aliases : AliasTable) : Schema → TypeStructure
  | .primitive type => .leaf type.typeName
  | .reference base => .leaf ((aliases.get? base).getD base)
  | .optional inner => inner.typeStructure aliases
  | .array inner => .array (inner.typeStructure aliases)
  | .object fields => .object (fieldStructures aliases fields)

def fieldStructures (aliases : AliasTable) : List (Text × Schema) → List (Text × Bool × TypeStructure)
  | [] => []
  | (name, schema) :: rest => (name, schema.isOptional, schema.typeStructure aliases) :: fieldStructures aliases rest

end

mutual

/-- The names that the references of a schema resolve to. -/
def resolvedNames (aliases : AliasTable) : Schema → List Text
  | .primitive _ => []
  | .reference base => [(aliases.get? base).getD base]
  | .optional inner => inner.resolvedNames aliases
  | .array inner => inner.resolvedNames aliases
  | .object fields => fieldResolvedNames aliases fields

def fieldResolvedNames (aliases : AliasTable) : List (Text × Schema) → List Text
  | [] => []
  | (_, schema) :: rest => schema.resolvedNames aliases ++ fieldResolvedNames aliases rest

end

end Schema

namespace TypeStructure

mutual

def text (depth : Int) : TypeStructure → Text
  | .leaf name => name
  | .array element => element.text depth ++ "[]"
  | .object fields => objectText depth (fieldTexts (depth + 1) fields)

def fieldTexts (depth : Int) : List (Text × Bool × TypeStructure) → List Text
  | [] => []
  | (name, optional, type) :: rest => fieldLine depth name ⟨type.text depth, optional⟩ :: fieldTexts depth rest

end

mutual

def leaves : TypeStructure → List Text
  | .leaf name => [name]
  | .array element => element.leaves
  | .object fields => fieldLeaves fields

def fieldLeaves : List (Text × Bool × TypeStructure) → List Text
  | [] => []
  | (_, _, type) :: rest => type.leaves ++ fieldLeaves rest

end

end TypeStructure

/-! ### The text of a schema is the text of its structure -/

namespace Schema

theorem optional_typeText (aliases : AliasTable) (depth : Int) (schema : Schema) :
    (schema.typeText aliases depth).optional = schema.isOptional := by
  cases schema <;> simp only [typeText, isOptional]

mutual

theorem text_typeText (aliases : AliasTable) (depth : Int) (schema : Schema) :
    (schema.typeText aliases depth).text = (schema.typeStructure aliases).text depth := by
  cases schema with
  | primitive type => simp only [typeText, typeStructure, TypeStructure.text]
  | reference base => simp only [typeText, typeStructure, TypeStructure.text]
  | optional inner => simp only [typeText, typeStructure, text_typeText aliases depth inner]
  | array inner => simp only [typeText, typeStructure, TypeStructure.text, text_typeText aliases depth inner]
  | object fields =>
    simp only [typeText, typeStructure, TypeStructure.text, fieldLines_eq_fieldTexts aliases (depth + 1) fields]

theorem fieldLines_eq_fieldTexts (aliases : AliasTable) (depth : Int) (fields : List (Text × Schema)) :
    fieldLines aliases depth fields = TypeStructure.fieldTexts depth (fieldStructures aliases fields) := by
  cases fields with
  | nil => simp only [fieldLines, fieldStructures, TypeStructure.fieldTexts]
  | cons field rest =>
    obtain ⟨name, schema⟩ := field
    simp only [fieldLines, fieldStructures, TypeStructure.fieldTexts, fieldLines_eq_fieldTexts aliases depth rest]
    rw [← text_typeText aliases depth schema, ← optional_typeText aliases depth schema]

end

mutual

theorem isReadableName_of_mem_leaves {aliases : AliasTable} {schema : Schema}
    (readable : ∀ name ∈ schema.resolvedNames aliases, isReadableName name = true) :
    ∀ name ∈ (schema.typeStructure aliases).leaves, isReadableName name = true := by
  intro name member
  cases schema with
  | primitive type =>
    simp only [typeStructure, TypeStructure.leaves, List.mem_singleton] at member
    exact member ▸ type.isReadableName_typeName
  | reference base =>
    simp only [typeStructure, TypeStructure.leaves] at member
    simp only [resolvedNames] at readable
    exact readable name member
  | optional inner =>
    simp only [typeStructure] at member
    simp only [resolvedNames] at readable
    exact isReadableName_of_mem_leaves readable name member
  | array inner =>
    simp only [typeStructure, TypeStructure.leaves] at member
    simp only [resolvedNames] at readable
    exact isReadableName_of_mem_leaves readable name member
  | object fields =>
    simp only [typeStructure, TypeStructure.leaves] at member
    simp only [resolvedNames] at readable
    exact isReadableName_of_mem_fieldLeaves readable name member

theorem isReadableName_of_mem_fieldLeaves {aliases : AliasTable} {fields : List (Text × Schema)}
    (readable : ∀ name ∈ fieldResolvedNames aliases fields, isReadableName name = true) :
    ∀ name ∈ TypeStructure.fieldLeaves (fieldStructures aliases fields), isReadableName name = true := by
  intro name member
  cases fields with
  | nil =>
    simp only [fieldStructures, TypeStructure.fieldLeaves] at member
    cases member
  | cons field rest =>
    obtain ⟨fieldName, schema⟩ := field
    simp only [fieldStructures, TypeStructure.fieldLeaves, List.mem_append] at member
    simp only [fieldResolvedNames, List.mem_append] at readable
    rcases member with here | further
    · exact isReadableName_of_mem_leaves (fun name member => readable name (.inl member)) name here
    · exact isReadableName_of_mem_fieldLeaves (fun name member => readable name (.inr member)) name further

end

end Schema

/-! ### The pieces of a text -/

theorem Text.join_concat (separator : Text) (lines : List Text) (last : Text) :
    Text.join separator (lines ++ [last]) = lines.flatMap (· ++ separator) ++ last := by
  induction lines with
  | nil => rfl
  | cons line rest ih =>
    cases rest with
    | nil => simp [Text.join]
    | cons next rest =>
      simp only [List.cons_append, Text.join, List.flatMap_cons] at ih ⊢
      rw [ih]
      simp only [List.append_assoc]

theorem objectText_eq (depth : Int) (lines : List Text) :
    objectText depth lines = 0x7B :: 0x0A :: (lines.flatMap (· ++ [0x0A]) ++ (indent depth ++ [0x7D])) := by
  unfold objectText
  rw [← List.cons_append, Text.join_concat]
  rfl

/-- A deeper line is indented by two more spaces, unless both lines stand at the margin. -/
theorem indent_succ (depth : Int) :
    indent (depth + 1) = indent depth ++ [0x20, 0x20] ∨ indent (depth + 1) = [] ∧ indent depth = [] := by
  unfold indent
  by_cases inside : 0 ≤ depth
  · have deeper : 2 * (depth + 1).toNat = 2 * depth.toNat + 2 := by omega
    rw [deeper, ← List.replicate_append_replicate]
    exact .inl rfl
  · have margin : (depth + 1).toNat = 0 ∧ depth.toNat = 0 := by omega
    rw [margin.1, margin.2]
    exact .inr ⟨rfl, rfl⟩

/-- The line that closes an object is not the line of a further field. -/
theorem closing_ne_fieldLine (depth : Int) (name t t' : Text) :
    indent depth ++ 0x7D :: t ≠ indent (depth + 1) ++ (FieldName.format name ++ t') := by
  intro same
  obtain ⟨first, rest, written, start⟩ := FieldName.exists_format_eq_cons name
  rcases indent_succ depth with deeper | ⟨margin, margin'⟩
  · rw [deeper, List.append_assoc] at same
    have brace := (List.cons.inj (List.append_cancel_left same)).1
    exact absurd brace (by decide)
  · rw [margin, margin', written] at same
    have brace : (0x7D : CodePoint) = first := (List.cons.inj same).1
    subst brace
    revert start
    decide

/-- Pairs of brackets, one for each level of arrays. -/
def brackets : Nat → Text
  | 0 => []
  | n + 1 => 0x5B :: 0x5D :: brackets n

theorem brackets_append_inj {n m : Nat} {t t' : Text} (outside : ∀ c ∈ t.head?, c = 0x0A)
    (outside' : ∀ c ∈ t'.head?, c = 0x0A) (same : brackets n ++ t = brackets m ++ t') : n = m ∧ t = t' := by
  induction n generalizing m with
  | zero =>
    cases m with
    | zero => exact ⟨rfl, same⟩
    | succ m =>
      have bracket : t.head? = some 0x5B := congrArg List.head? same
      exact absurd (outside 0x5B bracket) (by decide)
  | succ n ih =>
    cases m with
    | zero =>
      have bracket : t'.head? = some 0x5B := (congrArg List.head? same).symm
      exact absurd (outside' 0x5B bracket) (by decide)
    | succ m =>
      obtain ⟨rfl, after⟩ := ih (List.cons.inj (List.cons.inj same).2).2
      exact ⟨rfl, after⟩

theorem head?_lineEnd (t : Text) : ∀ c ∈ List.head? (0x0A :: t), c = 0x0A := by
  intro c head
  exact (Option.some.inj head).symm

theorem head?_brackets_append {n : Nat} {t : Text} (outside : ∀ c ∈ t.head?, c = 0x0A) :
    ∀ c ∈ (brackets n ++ t).head?, c = 0x0A ∨ c = 0x5B := by
  intro c head
  cases n with
  | zero => exact .inl (outside c head)
  | succ n => exact .inr (Option.some.inj head).symm

/-! ### Reading a text from the left -/

namespace TypeStructure

/-- Arrays of a structure, nested to a number of levels. -/
def nested : Nat → TypeStructure → TypeStructure
  | 0, element => element
  | n + 1, element => nested n (.array element)

theorem text_array_append (depth : Int) (element : TypeStructure) (n : Nat) :
    (TypeStructure.array element).text depth ++ brackets n = element.text depth ++ brackets (n + 1) := by
  simp only [text, List.append_assoc]
  rfl

/-- A name before brackets or a line end. -/
theorem readableName_append_inj {name name' : Text} {n m : Nat} {t t' : Text} (readable : isReadableName name = true)
    (readable' : isReadableName name' = true) (outside : ∀ c ∈ t.head?, c = 0x0A)
    (outside' : ∀ c ∈ t'.head?, c = 0x0A) (same : name ++ (brackets n ++ t) = name' ++ (brackets m ++ t')) :
    name = name' ∧ n = m ∧ t = t' := by
  have stops : ∀ {n : Nat} {t : Text}, (∀ c ∈ t.head?, c = 0x0A) →
      ∀ c ∈ (brackets n ++ t).head?, (c ≠ 0x0A && c ≠ 0x5B : Bool) = false := by
    intro n t outside c head
    rcases head?_brackets_append outside c head with rfl | rfl <;> decide
  have inside : ∀ {name : Text}, isReadableName name = true → ∀ c ∈ name, (c ≠ 0x0A && c ≠ 0x5B : Bool) = true := by
    intro name readable
    exact List.all_eq_true.mp (Bool.and_eq_true_iff.mp readable).1
  obtain ⟨rfl, after⟩ := Text.append_inj_of_class (fun c => c ≠ 0x0A && c ≠ 0x5B) (inside readable) (inside readable')
    (stops outside) (stops outside') same
  obtain ⟨rfl, rest⟩ := brackets_append_inj outside outside' after
  exact ⟨rfl, rfl, rest⟩

/-- No readable name starts like an object. -/
theorem readableName_append_ne_brace {name : Text} (readable : isReadableName name = true) (t t' : Text) :
    name ++ t ≠ 0x7B :: t' := by
  intro same
  cases name with
  | nil => cases readable
  | cons first rest =>
    have brace : first = 0x7B := (List.cons.inj same).1
    subst brace
    simp [isReadableName] at readable

/-- The mark of a field and the colon after it. -/
theorem mark_append_inj {optional optional' : Bool} {t t' : Text}
    (same : Text.ofString (if optional then "?" else "") ++ (Text.ofString ": " ++ t) =
      Text.ofString (if optional' then "?" else "") ++ (Text.ofString ": " ++ t')) :
    optional = optional' ∧ t = t' := by
  cases optional <;> cases optional'
  · exact ⟨rfl, List.append_cancel_left same⟩
  · exact absurd (List.cons.inj same).1 (by decide)
  · exact absurd (List.cons.inj same).1 (by decide)
  · exact ⟨rfl, List.append_cancel_left (List.append_cancel_left same)⟩

/-- A mark or a colon does not go on as a bare name could. -/
theorem head?_mark_append (optional : Bool) (t : Text) :
    ∀ c ∈ (Text.ofString (if optional then "?" else "") ++ (Text.ofString ": " ++ t)).head?,
      FieldName.isBarePoint c = false := by
  intro c head
  cases optional
  · have colon : 0x3A = c := Option.some.inj head
    subst colon
    decide
  · have mark : 0x3F = c := Option.some.inj head
    subst mark
    decide

/-- The brace that closes an object, after the lines of its fields. -/
theorem text_object_append (depth : Int) (fields : List (Text × Bool × TypeStructure)) (t : Text) :
    (TypeStructure.object fields).text depth ++ t =
      0x7B :: 0x0A :: ((fieldTexts (depth + 1) fields).flatMap (· ++ [0x0A]) ++ (indent depth ++ 0x7D :: t)) := by
  simp only [text, objectText_eq, List.cons_append, List.append_assoc, List.nil_append]

/-- The pieces of the first field's line. -/
theorem fieldTexts_cons_append (depth : Int) (name : Text) (optional : Bool) (type : TypeStructure)
    (rest : List (Text × Bool × TypeStructure)) (t : Text) :
    (fieldTexts depth ((name, optional, type) :: rest)).flatMap (· ++ [0x0A]) ++ t =
      indent depth ++ (FieldName.format name ++ (Text.ofString (if optional then "?" else "") ++
        (Text.ofString ": " ++ (type.text depth ++
          (brackets 0 ++ 0x0A :: ((fieldTexts depth rest).flatMap (· ++ [0x0A]) ++ t)))))) := by
  simp only [fieldTexts, fieldLine, brackets, List.flatMap_cons, List.append_assoc, List.cons_append, List.nil_append]

theorem leaf_append_inj {depth : Int} {name : Text} {type' : TypeStructure} {n m : Nat} {t t' : Text}
    (readable : isReadableName name = true) (readable' : ∀ name ∈ type'.leaves, isReadableName name = true)
    (outside : ∀ c ∈ t.head?, c = 0x0A) (outside' : ∀ c ∈ t'.head?, c = 0x0A)
    (same : name ++ (brackets n ++ t) = type'.text depth ++ (brackets m ++ t')) :
    nested n (.leaf name) = nested m type' ∧ t = t' := by
  cases type' with
  | leaf name' =>
    simp only [text] at same
    have there := readable' name' (by simp only [leaves, List.mem_singleton])
    obtain ⟨rfl, rfl, after⟩ := readableName_append_inj readable there outside outside' same
    exact ⟨rfl, after⟩
  | array element' =>
    rw [← List.append_assoc (text depth _), text_array_append, List.append_assoc] at same
    simp only [leaves] at readable'
    exact leaf_append_inj (m := m + 1) readable readable' outside outside' same
  | object fields' =>
    rw [text_object_append] at same
    exact absurd same (readableName_append_ne_brace readable _ _)

/-- An object is read once its fields are, whatever arrays the other type is made of. -/
theorem object_append_inj {depth : Int} {fields : List (Text × Bool × TypeStructure)} {type' : TypeStructure}
    {n m : Nat} {t t' : Text} (readable' : ∀ name ∈ type'.leaves, isReadableName name = true)
    (outside : ∀ c ∈ t.head?, c = 0x0A) (outside' : ∀ c ∈ t'.head?, c = 0x0A)
    (read : ∀ {fields' : List (Text × Bool × TypeStructure)} {t t' : Text},
      (∀ name ∈ fieldLeaves fields', isReadableName name = true) →
      (fieldTexts (depth + 1) fields).flatMap (· ++ [0x0A]) ++ (indent depth ++ 0x7D :: t) =
        (fieldTexts (depth + 1) fields').flatMap (· ++ [0x0A]) ++ (indent depth ++ 0x7D :: t') →
      fields = fields' ∧ t = t')
    (same : (TypeStructure.object fields).text depth ++ (brackets n ++ t) =
      type'.text depth ++ (brackets m ++ t')) :
    nested n (.object fields) = nested m type' ∧ t = t' := by
  cases type' with
  | leaf name' =>
    rw [text_object_append] at same
    simp only [text] at same
    have there := readable' name' (by simp only [leaves, List.mem_singleton])
    exact absurd same.symm (readableName_append_ne_brace there _ _)
  | array element' =>
    rw [← List.append_assoc (text depth (array _)), text_array_append, List.append_assoc] at same
    simp only [leaves] at readable'
    exact object_append_inj (m := m + 1) readable' outside outside' read same
  | object fields' =>
    rw [text_object_append, text_object_append] at same
    simp only [leaves] at readable'
    obtain ⟨rfl, after⟩ := read readable' (List.cons.inj (List.cons.inj same).2).2
    obtain ⟨rfl, rest⟩ := brackets_append_inj outside outside' after
    exact ⟨rfl, rest⟩

mutual

theorem text_append_inj {depth : Int} {type type' : TypeStructure} {n m : Nat} {t t' : Text}
    (readable : ∀ name ∈ type.leaves, isReadableName name = true)
    (readable' : ∀ name ∈ type'.leaves, isReadableName name = true) (outside : ∀ c ∈ t.head?, c = 0x0A)
    (outside' : ∀ c ∈ t'.head?, c = 0x0A)
    (same : type.text depth ++ (brackets n ++ t) = type'.text depth ++ (brackets m ++ t')) :
    nested n type = nested m type' ∧ t = t' := by
  cases type with
  | leaf name =>
    have here := readable name (by simp only [leaves, List.mem_singleton])
    simp only [text] at same
    exact leaf_append_inj here readable' outside outside' same
  | array element =>
    rw [← List.append_assoc, text_array_append, List.append_assoc] at same
    simp only [leaves] at readable
    exact text_append_inj (n := n + 1) readable readable' outside outside' same
  | object fields =>
    simp only [leaves] at readable
    exact object_append_inj readable' outside outside' (fun there => fieldTexts_append_inj readable there) same

theorem fieldTexts_append_inj {depth : Int} {fields fields' : List (Text × Bool × TypeStructure)} {t t' : Text}
    (readable : ∀ name ∈ fieldLeaves fields, isReadableName name = true)
    (readable' : ∀ name ∈ fieldLeaves fields', isReadableName name = true)
    (same : (fieldTexts (depth + 1) fields).flatMap (· ++ [0x0A]) ++ (indent depth ++ 0x7D :: t) =
      (fieldTexts (depth + 1) fields').flatMap (· ++ [0x0A]) ++ (indent depth ++ 0x7D :: t')) :
    fields = fields' ∧ t = t' := by
  match fields, fields' with
  | [], [] =>
    simp only [fieldTexts] at same
    exact ⟨rfl, (List.cons.inj (List.append_cancel_left same)).2⟩
  | [], (name', optional', type') :: rest' =>
    rw [fieldTexts_cons_append] at same
    simp only [fieldTexts] at same
    exact absurd same (closing_ne_fieldLine depth name' _ _)
  | (name, optional, type) :: rest, [] =>
    rw [fieldTexts_cons_append] at same
    simp only [fieldTexts] at same
    exact absurd same.symm (closing_ne_fieldLine depth name _ _)
  | (name, optional, type) :: rest, (name', optional', type') :: rest' =>
    rw [fieldTexts_cons_append, fieldTexts_cons_append] at same
    simp only [fieldLeaves, List.mem_append] at readable readable'
    obtain ⟨rfl, afterName⟩ := FieldName.format_append_inj (head?_mark_append optional _) (head?_mark_append optional' _)
      (List.append_cancel_left same)
    obtain ⟨rfl, afterMark⟩ := mark_append_inj afterName
    obtain ⟨sameType, afterType⟩ := text_append_inj (n := 0) (m := 0) (fun name member => readable name (.inl member))
      (fun name member => readable' name (.inl member)) (head?_lineEnd _) (head?_lineEnd _) afterMark
    obtain ⟨rfl, after⟩ := fieldTexts_append_inj (fun name member => readable name (.inr member))
      (fun name member => readable' name (.inr member)) (List.cons.inj afterType).2
    have sameHead : type = type' := sameType
    exact ⟨by rw [sameHead], after⟩

end

/-- Two structures with readable leaves are one if their texts are. -/
theorem text_inj {depth : Int} {type type' : TypeStructure} (readable : ∀ name ∈ type.leaves, isReadableName name = true)
    (readable' : ∀ name ∈ type'.leaves, isReadableName name = true) (same : type.text depth = type'.text depth) :
    type = type' := by
  have whole : type.text depth ++ (brackets 0 ++ []) = type'.text depth ++ (brackets 0 ++ []) :=
    congrArg (· ++ (brackets 0 ++ [])) same
  exact (text_append_inj readable readable' (by simp) (by simp) whole).1

end TypeStructure

/-! ### Expressions -/

/-- The structure of the type that an expression stands for. -/
def inferStructure (aliases : AliasTable) (expression : Syntax.Node) : Except Error (Option TypeStructure) :=
  return (← Schema.ofNode expression).map (·.typeStructure aliases)

/-- The names that the references in an expression resolve to. -/
def resolvedNamesIn (aliases : AliasTable) (expression : Syntax.Node) : List Text :=
  match Schema.ofNode expression with
  | .ok (some schema) => schema.resolvedNames aliases
  | _ => []

theorem inferType_eq_ok_some_iff {aliases : AliasTable} {depth : Int} {expression : Syntax.Node} {type : TypeText} :
    inferType aliases depth expression = .ok (some type) ↔
      ∃ schema, Schema.ofNode expression = .ok (some schema) ∧ schema.typeText aliases depth = type := by
  constructor
  · intro evaluated
    obtain ⟨found, read, typed⟩ := bind_eq_ok_iff.mp evaluated
    cases found with
    | none => cases typed
    | some schema => exact ⟨schema, read, Option.some.inj (Except.ok.inj typed)⟩
  · rintro ⟨schema, read, rfl⟩
    rw [inferType, read]
    rfl

/-- A type is written as its structure is, and the structure's leaves are readable if the references are. -/
theorem exists_inferStructure {aliases : AliasTable} {depth : Int} {expression : Syntax.Node} {type : TypeText}
    (evaluated : inferType aliases depth expression = .ok (some type))
    (readable : ∀ name ∈ resolvedNamesIn aliases expression, isReadableName name = true) :
    ∃ shown, inferStructure aliases expression = .ok (some shown) ∧ type.text = shown.text depth ∧
      ∀ name ∈ shown.leaves, isReadableName name = true := by
  obtain ⟨schema, read, rfl⟩ := inferType_eq_ok_some_iff.mp evaluated
  simp only [resolvedNamesIn, read] at readable
  refine ⟨schema.typeStructure aliases, ?_, schema.text_typeText aliases depth,
    Schema.isReadableName_of_mem_leaves readable⟩
  rw [inferStructure, read]
  rfl

/-- Two expressions on lines of one depth have one type text exactly if they have one structure: the same arrays and
inline objects, in each object the same fields in the same order, with the same decoded names and the same marks, and the
same names at the leaves. -/
theorem inferType_text_eq_iff {aliases aliases' : AliasTable} {depth : Int} {expression expression' : Syntax.Node}
    {type type' : TypeText} (evaluated : inferType aliases depth expression = .ok (some type))
    (evaluated' : inferType aliases' depth expression' = .ok (some type'))
    (readable : ∀ name ∈ resolvedNamesIn aliases expression, isReadableName name = true)
    (readable' : ∀ name ∈ resolvedNamesIn aliases' expression', isReadableName name = true) :
    type.text = type'.text ↔
      ∃ shown, inferStructure aliases expression = .ok (some shown) ∧
        inferStructure aliases' expression' = .ok (some shown) := by
  obtain ⟨shown, inferred, written, leaves⟩ := exists_inferStructure evaluated readable
  obtain ⟨shown', inferred', written', leaves'⟩ := exists_inferStructure evaluated' readable'
  rw [written, written', inferred, inferred']
  constructor
  · intro same
    have one : shown = shown' := TypeStructure.text_inj leaves leaves' same
    exact ⟨shown', by rw [one], rfl⟩
  · rintro ⟨both, here, there⟩
    have one : shown = both := Option.some.inj (Except.ok.inj here)
    have other : shown' = both := Option.some.inj (Except.ok.inj there)
    rw [one, other]

/-- The value of `A` in a source. -/
def valueOfA (source : String) : Syntax.Node :=
  let file := SourceFile.parse .standard (.ofText "/w/a.ts") source.toUTF8
  ((file.binding? "A").toOption.join.bind Declarator.value?).getD file.root

/-- A quote as a field name, and a leaf that an alias names. -/
def plainSpelling : Syntax.Node := valueOfA "const A=Type.Object(\x7b\"'\":Type.Array(XRef)\x7d)"

/-- The same name with an escape, the same leaf by its own name, and a mark that the array drops. -/
def escapedSpelling : Syntax.Node := valueOfA "const A=Type.Object(\x7b'\\'':Type.Array(Type.Optional(YRef))\x7d)"

/-- What the two are evaluated with. -/
def spellingAliases : AliasTable := .ofList [("X", "Y")]

set_option maxRecDepth 100000 in
theorem inferStructure_spellings :
    ∃ shown, inferStructure spellingAliases plainSpelling = .ok (some shown) ∧
      inferStructure .empty escapedSpelling = .ok (some shown) := by
  have seen : ((Schema.ofNode plainSpelling).toOption.join.map fun schema =>
      ((schema.typeText spellingAliases 0).text, schema.resolvedNames spellingAliases)) =
        some (Text.ofString "\x7b\n  '\\'': Y[]\n\x7d", [Text.ofString "Y"]) := by decide +kernel
  have seen' : ((Schema.ofNode escapedSpelling).toOption.join.map fun schema =>
      ((schema.typeText .empty 0).text, schema.resolvedNames .empty)) =
        some (Text.ofString "\x7b\n  '\\'': Y[]\n\x7d", [Text.ofString "Y"]) := by decide +kernel
  obtain ⟨schema, read, shape⟩ := exists_eq_ok_some seen
  obtain ⟨schema', read', shape'⟩ := exists_eq_ok_some seen'
  obtain ⟨written, names⟩ := Prod.mk.inj shape
  obtain ⟨written', names'⟩ := Prod.mk.inj shape'
  have evaluated : inferType spellingAliases 0 plainSpelling = .ok (some (schema.typeText spellingAliases 0)) :=
    inferType_eq_ok_some_iff.mpr ⟨schema, read, rfl⟩
  have evaluated' : inferType .empty 0 escapedSpelling = .ok (some (schema'.typeText .empty 0)) :=
    inferType_eq_ok_some_iff.mpr ⟨schema', read', rfl⟩
  refine (inferType_text_eq_iff evaluated evaluated' ?_ ?_).mp (written.trans written'.symm)
  · simp only [resolvedNamesIn, read, names]
    decide
  · simp only [resolvedNamesIn, read', names']
    decide

end SchemaTypes
