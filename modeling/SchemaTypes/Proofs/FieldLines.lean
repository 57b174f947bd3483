import SchemaTypes.Proofs.OrderedMap
import SchemaTypes.Proofs.QuotedNames
import SchemaTypes.Proofs.Words.Lines

/-!
The lines of fields. A name is written as one token, save for names that are left without quotes wrongly: those that end
in a line feed and those with digits of other scripts. A type has the lines of its inline objects, since references and
their targets stand on one line. So the schema and the name of a field tell how many lines it takes up.
-/

namespace SchemaTypes

open Syntax

theorem CodePoint.endsLine_eq_false_iff {c : CodePoint} : c.endsLine = false ↔ c.val ≠ 0x0A ∧ c.val ≠ 0x0D := by
  rw [endsLine, Bool.or_eq_false_iff, decide_eq_false_iff_not, decide_eq_false_iff_not, Fin.ext_iff, Fin.ext_iff]
  exact Iff.rfl

theorem Text.countP_of_isUnbroken {t : Text} (unbroken : t.IsUnbroken) : t.countP CodePoint.endsLine = 0 := by
  rw [List.countP_eq_zero]
  simpa [IsUnbroken] using unbroken

/-! ### Names as tokens -/

namespace FieldName

open StringLiteral

/-- A run of ASCII digits. -/
def isAsciiDigits (t : Text) : Bool := !t.isEmpty && t.all fun c => 0x30 ≤ c.val && c.val ≤ 0x39

/-- A text is one token that names a property, and no line ends in it: an ASCII identifier, ASCII digits or a literal in
quotes. -/
structure IsToken (t : Text) : Prop where
  spelled : isIdentifier t = true ∨ isAsciiDigits t = true ∨ IsSingleQuoted t
  unbroken : t.IsUnbroken

/-- A name is written without quotes though it needs them: for the line feed at its end, which is not looked at, or for
digits of a script other than ASCII. -/
def IsMiswritten (name : Text) : Prop :=
  isBare name = true ∧ (name.getLast? = some 0x0A ∨ ∃ c ∈ name, 0x80 ≤ c.val)

theorem range_of_isLetterOrDigit {c : CodePoint} (inside : isLetterOrDigit c = true) : 0x24 ≤ c.val ∧ c.val < 0x80 := by
  have underscore : (0x5F : CodePoint).val = 0x5F := rfl
  have dollar : (0x24 : CodePoint).val = 0x24 := rfl
  simp only [isLetterOrDigit, isLetter, Bool.or_eq_true, Bool.and_eq_true, decide_eq_true_eq, Fin.ext_iff, underscore,
    dollar] at inside
  omega

theorem range_of_isIdentifier {t : Text} (identifier : isIdentifier t = true) :
    ∀ c ∈ t, 0x24 ≤ c.val ∧ c.val < 0x80 := by
  intro c member
  cases t with
  | nil => cases member
  | cons first rest =>
    simp only [isIdentifier, Bool.and_eq_true, List.all_eq_true] at identifier
    rcases List.mem_cons.mp member with rfl | later
    · exact range_of_isLetterOrDigit (by simp [isLetterOrDigit, identifier.1])
    · exact range_of_isLetterOrDigit (identifier.2 c later)

theorem range_of_isDecimalDigit {c : CodePoint} (digit : c.isDecimalDigit = true) :
    (0x30 ≤ c.val ∧ c.val ≤ 0x39) ∨ 0x80 ≤ c.val := by
  obtain ⟨⟨low, high⟩, listed, inside⟩ := List.any_eq_true.mp digit
  have ranges : (decimalDigitRanges.all fun range => range == (0x30, 0x39) || 0x80 ≤ range.1) = true := by decide
  have range := List.all_eq_true.mp ranges _ listed
  simp only [Bool.or_eq_true, Bool.and_eq_true, beq_iff_eq, decide_eq_true_eq, Prod.mk.injEq] at inside range
  omega

theorem isAsciiDigits_of_isDigits {t : Text} (digits : isDigits t = true) (low : ∀ c ∈ t, c.val < 0x80) :
    isAsciiDigits t = true := by
  simp only [isDigits, isAsciiDigits, Bool.and_eq_true, List.all_eq_true, decide_eq_true_eq] at digits ⊢
  refine ⟨digits.1, fun c member => ?_⟩
  have range := range_of_isDecimalDigit (digits.2 c member)
  have ascii := low c member
  omega

theorem unbroken_quote (name : Text) : (quote name).IsUnbroken := by
  intro c member
  have feed : c ≠ 0x0A := by
    rintro rfl
    exact not_mem_quote (by decide) name member
  have carriage : c ≠ 0x0D := by
    rintro rfl
    exact not_mem_quote (by decide) name member
  simp [CodePoint.endsLine, feed, carriage]

/-- What is looked at of a bare name has no end of a line in it. -/
theorem unbroken_of_body {t : Text} (body : (isIdentifier t || isDigits t) = true) : t.IsUnbroken := by
  intro c member
  rw [CodePoint.endsLine_eq_false_iff]
  rcases Bool.or_eq_true_iff.mp body with identifier | digits
  · have range := range_of_isIdentifier identifier c member
    omega
  · simp only [isDigits, Bool.and_eq_true, List.all_eq_true] at digits
    have range := range_of_isDecimalDigit (digits.2 c member)
    omega

theorem isBare_of_last {name : Text} (last : name.getLast? ≠ some 0x0A) :
    isBare name = (isIdentifier name || isDigits name) := by
  simp [isBare, last]

theorem isBare_concat (front : Text) : isBare (front ++ [0x0A]) = (isIdentifier front || isDigits front) := by
  simp [isBare]

/-- A name is written as one token unless it is bare and needs quotes. -/
theorem isToken_format_iff (name : Text) : IsToken (format name) ↔ ¬ IsMiswritten name := by
  by_cases bare : isBare name = true
  · rw [format, if_pos bare]
    constructor
    · rintro ⟨spelled, unbroken⟩ ⟨-, last | ⟨c, member, high⟩⟩
      · exact absurd (unbroken _ (List.mem_of_getLast? last)) (by decide)
      · rcases spelled with identifier | digits | quoted
        · have range := range_of_isIdentifier identifier c member
          omega
        · simp only [isAsciiDigits, Bool.and_eq_true, List.all_eq_true, decide_eq_true_eq] at digits
          have range := digits.2 c member
          omega
        · obtain ⟨body, rfl⟩ := quoted.delimited
          exact head?_of_isBare bare rfl
    · intro fine
      have last : name.getLast? ≠ some 0x0A := fun last => fine ⟨bare, .inl last⟩
      have low : ∀ c ∈ name, c.val < 0x80 := by
        intro c member
        by_cases high : 0x80 ≤ c.val
        · exact absurd ⟨bare, .inr ⟨c, member, high⟩⟩ fine
        · omega
      rw [isBare_of_last last] at bare
      refine ⟨?_, unbroken_of_body bare⟩
      rcases Bool.or_eq_true_iff.mp bare with identifier | digits
      · exact .inl identifier
      · exact .inr (.inl (isAsciiDigits_of_isDigits digits low))
  · rw [format, if_neg bare]
    refine ⟨fun _ miswritten => bare miswritten.1, fun _ => ?_⟩
    exact ⟨.inr (.inr (quote_isSingleQuoted name)), unbroken_quote name⟩

/-- The ends of lines in a written name. -/
def breaks (name : Text) : Nat := if isBare name = true ∧ name.getLast? = some 0x0A then 1 else 0

theorem countP_format (name : Text) : (format name).countP CodePoint.endsLine = breaks name := by
  by_cases bare : isBare name = true
  · rw [format, if_pos bare, breaks]
    by_cases last : name.getLast? = some 0x0A
    · rw [if_pos ⟨bare, last⟩]
      obtain ⟨front, rfl⟩ := List.getLast?_eq_some_iff.mp last
      rw [isBare_concat] at bare
      rw [List.countP_append, Text.countP_of_isUnbroken (unbroken_of_body bare)]
      rfl
    · rw [if_neg fun both => last both.2]
      rw [isBare_of_last last] at bare
      exact Text.countP_of_isUnbroken (unbroken_of_body bare)
  · rw [format, if_neg bare, breaks, if_neg fun both => bare both.1]
    exact Text.countP_of_isUnbroken (unbroken_quote name)

end FieldName

/-! ### Lines of types -/

/-- The number of lines that a text takes up. -/
def Text.lineCount (t : Text) : Nat := t.countP CodePoint.endsLine + 1

theorem Text.lineCount_of_isUnbroken {t : Text} (unbroken : t.IsUnbroken) : t.lineCount = 1 := by
  rw [lineCount, countP_of_isUnbroken unbroken]

theorem Text.lineCount_join {ts : List Text} (nonempty : ts ≠ []) :
    (Text.join "\n" ts).lineCount = (ts.map Text.lineCount).sum := by
  induction ts with
  | nil => exact absurd rfl nonempty
  | cons t rest ih =>
    cases rest with
    | nil => simp [join]
    | cons next rest =>
      have further := ih (by simp)
      have feed : (("\n" : Text) : List CodePoint).countP CodePoint.endsLine = 1 := by decide
      rw [List.map_cons, List.sum_cons, ← further]
      simp only [join, lineCount, List.countP_append, feed]
      omega

theorem countP_indent (depth : Int) : (indent depth).countP CodePoint.endsLine = 0 := by
  refine Text.countP_of_isUnbroken fun c member => ?_
  rw [List.eq_of_mem_replicate member]
  rfl

theorem lineCount_fieldLine (depth : Int) (name : Text) (type : TypeText) :
    (fieldLine depth name type).lineCount = type.text.lineCount + FieldName.breaks name := by
  have mark : (Text.ofString (if type.optional then "?" else "")).countP CodePoint.endsLine = 0 := by
    split <;> decide
  have colon : (": " : Text).countP CodePoint.endsLine = 0 := by decide
  simp only [fieldLine, Text.lineCount, List.countP_append, countP_indent, FieldName.countP_format, mark, colon]
  omega

theorem lineCount_objectText (depth : Int) (lines : List Text) :
    (objectText depth lines).lineCount = (lines.map Text.lineCount).sum + 2 := by
  have opening : (("\x7b" : Text)).lineCount = 1 := by decide
  have closing : (indent depth ++ ("\x7d" : Text)).lineCount = 1 := by
    have brace : ("\x7d" : Text).countP CodePoint.endsLine = 0 := by decide
    rw [Text.lineCount, List.countP_append, countP_indent, brace]
  rw [objectText, Text.lineCount_join (by simp)]
  simp only [List.map_cons, List.map_append, List.map_nil, List.sum_cons, List.sum_append, List.sum_nil, opening,
    closing]
  omega

namespace Schema

/-- No inline object is in a schema. -/
def isSimple : Schema → Bool
  | .primitive _ => true
  | .reference _ => true
  | .optional inner => inner.isSimple
  | .array inner => inner.isSimple
  | .object _ => false

mutual

/-- The lines that the type of a schema takes up. -/
def lineCount : Schema → Nat
  | .primitive _ => 1
  | .reference _ => 1
  | .optional inner => inner.lineCount
  | .array inner => inner.lineCount
  | .object fields => fieldsLineCount fields + 2

/-- The lines that fields take up under each other. -/
def fieldsLineCount : List (Text × Schema) → Nat
  | [] => 0
  | (name, schema) :: rest => (schema.lineCount + FieldName.breaks name) + fieldsLineCount rest

end

theorem one_le_lineCount : ∀ schema : Schema, 1 ≤ schema.lineCount
  | .primitive _ => by simp [lineCount]
  | .reference _ => by simp [lineCount]
  | .optional inner => by simp only [lineCount, one_le_lineCount inner]
  | .array inner => by simp only [lineCount, one_le_lineCount inner]
  | .object fields => by simp [lineCount]

theorem lineCount_eq_one_iff : ∀ schema : Schema, schema.lineCount = 1 ↔ schema.isSimple = true
  | .primitive _ => by simp [lineCount, isSimple]
  | .reference _ => by simp [lineCount, isSimple]
  | .optional inner => by simp only [lineCount, isSimple, lineCount_eq_one_iff inner]
  | .array inner => by simp only [lineCount, isSimple, lineCount_eq_one_iff inner]
  | .object fields => by simp [lineCount, isSimple]

mutual

/-- The type of a schema takes up the lines of the inline objects in it. -/
theorem lineCount_typeText {aliases : AliasTable}
    (targets : ∀ type ∈ aliases.values, type.IsUnbroken) (depth : Int) (schema : Schema)
    (bases : ∀ base ∈ schema.bases, base.IsUnbroken) :
    (schema.typeText aliases depth).text.lineCount = schema.lineCount := by
  cases schema with
  | primitive type =>
    rw [typeText, lineCount]
    cases type <;> decide
  | reference base =>
    rw [typeText, lineCount]
    cases found : aliases.get? base with
    | none => exact Text.lineCount_of_isUnbroken (bases base (by simp [Schema.bases]))
    | some type => exact Text.lineCount_of_isUnbroken (targets type (OrderedMap.mem_values_of_get? found))
  | optional inner =>
    rw [Schema.bases] at bases
    rw [typeText, lineCount, lineCount_typeText targets depth inner bases]
  | array inner =>
    rw [Schema.bases] at bases
    have brackets : ("[]" : Text).countP CodePoint.endsLine = 0 := by decide
    have element := lineCount_typeText targets depth inner bases
    rw [Text.lineCount] at element
    rw [typeText, lineCount, Text.lineCount, List.countP_append, brackets]
    exact element
  | object fields =>
    rw [Schema.bases] at bases
    rw [typeText, lineCount, lineCount_objectText, lineCount_fieldLines targets (depth + 1) fields bases]

theorem lineCount_fieldLines {aliases : AliasTable}
    (targets : ∀ type ∈ aliases.values, type.IsUnbroken) (depth : Int) (fields : List (Text × Schema))
    (bases : ∀ base ∈ fieldBases fields, base.IsUnbroken) :
    ((fieldLines aliases depth fields).map Text.lineCount).sum = fieldsLineCount fields := by
  cases fields with
  | nil => rfl
  | cons field rest =>
    obtain ⟨name, schema⟩ := field
    rw [fieldBases] at bases
    have here := lineCount_typeText targets depth schema fun base member =>
      bases base (List.mem_append_left _ member)
    have further := lineCount_fieldLines targets depth rest fun base member =>
      bases base (List.mem_append_right _ member)
    rw [fieldLines, List.map_cons, List.sum_cons, lineCount_fieldLine, here, further, fieldsLineCount]

end

end Schema

/-! ### Lines of fields -/

namespace Field

/-- A field of a literal has the schema of a part of the literal. -/
theorem exists_of_mem_ofLiteral {withDocs : Bool} {literal : Node} {fields : List Field}
    (read : ofLiteral withDocs literal = .ok fields) {field : Field} (member : field ∈ fields) :
    ∃ value : Node, value.PartOf literal ∧ Schema.ofNode value = .ok (some field.schema) := by
  obtain ⟨pair, listed, built⟩ := mem_of_filterMapM read _ member
  have place := Node.partOf_of_mem_placedChildren (List.mem_filter.mp listed).1
  obtain ⟨found, keyed, built⟩ := bind_eq_ok_iff.mp built
  cases found with
  | none => cases built
  | some named =>
    obtain ⟨name, value⟩ := named
    obtain ⟨found, valueRead, built⟩ := bind_eq_ok_iff.mp built
    cases found with
    | none => cases built
    | some schema =>
      have described : schema = field.schema := by
        dsimp only at built
        split at built
        · obtain ⟨doc, -, built⟩ := bind_eq_ok_iff.mp built
          cases built
          rfl
        · cases built
          rfl
      rw [← described]
      exact ⟨value, (Node.partOf_of_keyAndValue keyed).trans place, valueRead⟩

/-- The name of a field of a literal is written as one token, unless it is left without quotes wrongly. The field takes up
the lines of its type, and one more if its name is left without quotes and ends in a line feed. So it takes up one line
just if there is no inline object in its type and its name does not end so. -/
theorem key_and_lines {parser : TreeParser} (lawful : parser.Lawful) {dialect : Dialect} {bytes : ByteArray}
    {literal : Node} (inside : literal.PartOf (parser.parse dialect bytes)) {withDocs : Bool} {fields : List Field}
    (read : ofLiteral withDocs literal = .ok fields) {aliases : AliasTable}
    (targets : ∀ type ∈ aliases.values, type.IsUnbroken) (depth : Int) {field : Field}
    (member : field ∈ fields) :
    (FieldName.IsToken (FieldName.format field.name) ↔ ¬ FieldName.IsMiswritten field.name) ∧
    (field.line aliases depth).lineCount = field.schema.lineCount + FieldName.breaks field.name ∧
    ((field.line aliases depth).lineCount = 1 ↔ field.schema.isSimple = true ∧
      ¬ (FieldName.isBare field.name = true ∧ field.name.getLast? = some 0x0A)) := by
  obtain ⟨value, part, valueRead⟩ := exists_of_mem_ofLiteral read member
  have bases : ∀ base ∈ field.schema.bases, base.IsUnbroken := fun base listed =>
    (Schema.refersTo_of_mem_bases valueRead listed).isUnbroken lawful (part.trans inside)
  have lines : (field.line aliases depth).lineCount = field.schema.lineCount + FieldName.breaks field.name := by
    rw [line, lineCount_fieldLine, field.schema.lineCount_typeText targets depth bases]
  refine ⟨FieldName.isToken_format_iff field.name, lines, ?_⟩
  rw [lines, ← Schema.lineCount_eq_one_iff, FieldName.breaks]
  split
  next broken =>
    have least := field.schema.one_le_lineCount
    have nonzero : field.schema.lineCount ≠ 0 := by omega
    simp [nonzero, broken]
  next whole => simp [whole]

/-- A name in quotes with an alias in its type, and a name that is left without quotes wrongly. -/
def mixedKeys : Node := literalOf "(\x7b'a-b':Type.Array(XRef),'b\\n':Type.Object(\x7bc:YRef\x7d)\x7d)"

def mixedAliases : AliasTable := .ofList [("X", "Z")]

set_option maxRecDepth 100000 in
theorem key_and_lines_mixedKeys :
    ∃ fields, ofLiteral false mixedKeys = .ok fields ∧ fields.map name = [Text.ofString "a-b", Text.ofString "b\n"] ∧
      ∀ field ∈ fields,
        (FieldName.IsToken (FieldName.format field.name) ↔ ¬ FieldName.IsMiswritten field.name) ∧
        (field.line mixedAliases 1).lineCount = field.schema.lineCount + FieldName.breaks field.name ∧
        ((field.line mixedAliases 1).lineCount = 1 ↔ field.schema.isSimple = true ∧
          ¬ (FieldName.isBare field.name = true ∧ field.name.getLast? = some 0x0A)) := by
  have seen : (ofLiteral false mixedKeys).toOption.map (List.map name) =
      some [Text.ofString "a-b", Text.ofString "b\n"] := by decide +kernel
  obtain ⟨fields, read, names⟩ := exists_eq_ok_of_toOption seen
  have inside : mixedKeys.PartOf (Syntax.parse .typescript _) := literalOf_partOf _
  have targets : ∀ type ∈ mixedAliases.values, type.IsUnbroken := by
    have unbroken : (mixedAliases.values.all fun type => type.all (!·.endsLine)) = true := by decide
    simpa [Text.IsUnbroken] using unbroken
  exact ⟨fields, read, names, fun field member => key_and_lines TreeParser.standard_lawful inside read targets 1 member⟩

set_option maxRecDepth 100000 in
/-- A name that ends in a line feed is no token as it is written, and its field takes up two lines. -/
theorem broken_lineFeedKey :
    ((ofLiteral false (literalOf "(\x7b'a\\n':Type.String()\x7d)")).toOption.map
      (List.map fun field => (field.name, field.line .empty 1))) =
        some [(Text.ofString "a\n", Text.ofString "  a\n: string")] ∧
    ¬ FieldName.IsToken (FieldName.format "a\n") ∧ (Text.ofString "  a\n: string").lineCount = 2 := by
  refine ⟨by decide +kernel, ?_, by decide⟩
  rw [FieldName.isToken_format_iff]
  exact fun fine => fine ⟨by decide, .inl (by decide)⟩

end Field

end SchemaTypes
