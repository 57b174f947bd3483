import SchemaTypes.Proofs.FieldLines
import SchemaTypes.Proofs.OrderedMap

/-!
What references stand for in a request. Each entry claims two names for its type: the public name, and the base name of
the schema. Of several claims to one name the last one counts, so the order of the entries only matters where two of them
claim a name for different types.
-/

namespace SchemaTypes

open Syntax

/-! ### Endings of names -/

theorem Text.dropEnd?_eq_some_iff {ending t base : Text} : dropEnd? ending t = some base ↔ t = base ++ ending := by
  rw [dropEnd?, Option.map_eq_some_iff]
  constructor
  · rintro ⟨front, found, rfl⟩
    rw [← List.reverse_inj, dropStart?_eq_some found, List.reverse_append, List.reverse_reverse]
  · rintro rfl
    refine ⟨base.reverse, ?_, List.reverse_reverse base⟩
    rw [List.reverse_append, dropStart?_append]

theorem referenceBase?_append {base : Text} (nonempty : base ≠ []) :
    referenceBase? (base ++ ("Ref" : Text)) = some base := by
  have found : Text.dropEnd? "Ref" (base ++ ("Ref" : Text)) = some base := Text.dropEnd?_eq_some_iff.mpr rfl
  unfold referenceBase?
  rw [found]
  cases base with
  | nil => exact absurd rfl nonempty
  | cons c rest => rfl

/-- A name is the base of a schema name: without one `SchemaDefinition` or `Schema` at its end, or the whole of it if it
has neither. -/
def IsBaseOf (base name : Text) : Prop :=
  name = base ++ ("SchemaDefinition" : Text) ∨ name = base ++ ("Schema" : Text) ∨
    name = base ∧ ∀ front : Text, name ≠ front ++ ("SchemaDefinition" : Text) ∧ name ≠ front ++ ("Schema" : Text)

theorem getLast?_append_definition (base : Text) :
    (base ++ ("SchemaDefinition" : Text)).getLast? = some 0x6E := by
  rw [List.getLast?_append]
  rfl

theorem getLast?_append_schema (base : Text) : (base ++ ("Schema" : Text)).getLast? = some 0x61 := by
  rw [List.getLast?_append]
  rfl

theorem dropSchemaEnding_eq_iff {name base : Text} : dropSchemaEnding name = base ↔ IsBaseOf base name := by
  unfold dropSchemaEnding IsBaseOf
  cases long : Text.dropEnd? "SchemaDefinition" name with
  | some front =>
    have split := Text.dropEnd?_eq_some_iff.mp long
    subst split
    constructor
    · rintro rfl
      exact .inl rfl
    · rintro (same | same | ⟨-, none⟩)
      · exact List.append_cancel_right same
      · -- the two endings differ in their last letters
        have last := (getLast?_append_definition front).symm.trans (congrArg List.getLast? same)
        rw [getLast?_append_schema] at last
        exact absurd last (by decide)
      · exact absurd rfl (none front).1
  | none =>
    have notLong (front : Text) : name ≠ front ++ ("SchemaDefinition" : Text) := fun same => by
      rw [Text.dropEnd?_eq_some_iff.mpr same] at long
      cases long
    cases short : Text.dropEnd? "Schema" name with
    | some front =>
      have split := Text.dropEnd?_eq_some_iff.mp short
      constructor
      · rintro rfl
        exact .inr (.inl split)
      · rintro (same | same | ⟨-, none⟩)
        · exact absurd same (notLong base)
        · exact List.append_cancel_right (split.symm.trans same)
        · exact absurd split (none front).2
    | none =>
      have notShort (front : Text) : name ≠ front ++ ("Schema" : Text) := fun same => by
        rw [Text.dropEnd?_eq_some_iff.mpr same] at short
        cases short
      constructor
      · intro same
        exact .inr (.inr ⟨same, fun front => ⟨notLong front, notShort front⟩⟩)
      · rintro (same | same | ⟨same, -⟩)
        · exact absurd same (notLong base)
        · exact absurd same (notShort base)
        · exact same

/-- A name that stands on one line is the base name of the schemas it is the base of. A line feed at the end of a schema
name stays at the end of its base name, which then is no such name. -/
theorem schemaBaseName_eq_iff {name base : Text} (unbroken : base.IsUnbroken) :
    schemaBaseName name = base ↔ IsBaseOf base name := by
  have noFeed : base.getLast? ≠ some 0x0A := fun last =>
    absurd (unbroken 0x0A (List.mem_of_getLast? last)) (by decide)
  unfold schemaBaseName
  split
  next feed =>
    constructor
    · rintro rfl
      simp at noFeed
    · rintro (rfl | rfl | ⟨rfl, -⟩)
      · rw [getLast?_append_definition] at feed
        exact absurd feed (by decide)
      · rw [getLast?_append_schema] at feed
        exact absurd feed (by decide)
      · exact absurd feed noFeed
  · exact dropSchemaEnding_eq_iff

/-! ### Claims -/

namespace AliasTable

/-- An entry of a request claims a name, as its public name or as the base name of its schema. -/
def Claims (entry : Text × Text) (name : Text) : Prop := entry.2 = name ∨ IsBaseOf name entry.1

/-- What the table has for a name: the type of the last entry that puts something there. -/
theorem get?_ofRequest (request : Request) (name : Text) :
    (ofRequest request).get? name =
      (request.entries.reverse.find? fun entry => entry.2 = name || schemaBaseName entry.1 = name).map Prod.snd := by
  have each (table : AliasTable) (entry : Text × Text) :
      ((table.insert (schemaBaseName entry.1) entry.2).insert entry.2 entry.2).get? name =
        if (decide (entry.2 = name) || decide (schemaBaseName entry.1 = name)) = true then some entry.2
        else table.get? name := by
    rw [OrderedMap.get?_insert, OrderedMap.get?_insert]
    by_cases published : entry.2 = name <;> simp [published]
  rw [ofRequest, OrderedMap.get?_foldl _ _ each, OrderedMap.get?_empty, Option.or_none]

section Resolution

variable {name : Text} (unbroken : name.IsUnbroken)
include unbroken

theorem puts_iff_claims (entry : Text × Text) :
    (decide (entry.2 = name) || decide (schemaBaseName entry.1 = name)) = true ↔ Claims entry name := by
  rw [Bool.or_eq_true, decide_eq_true_eq, decide_eq_true_eq, schemaBaseName_eq_iff unbroken, Claims]

/-- The last entry that claims a name decides. -/
theorem get?_ofRequest_of_last {request : Request} {before after : List (Text × Text)} {entry : Text × Text}
    (split : request.entries = before ++ entry :: after) (claims : Claims entry name)
    (latest : ∀ later ∈ after, ¬ Claims later name) : (ofRequest request).get? name = some entry.2 := by
  have found : (request.entries.reverse.find? fun entry => entry.2 = name || schemaBaseName entry.1 = name) =
      some entry := by
    apply OrderedMap.find?_reverse_eq_some_iff.mpr
    refine ⟨before, after, split, (puts_iff_claims unbroken entry).mpr claims, fun later member => ?_⟩
    have silent := latest later member
    rwa [← puts_iff_claims unbroken, Bool.not_eq_true] at silent
  rw [get?_ofRequest, found]
  rfl

theorem get?_ofRequest_of_unclaimed {request : Request} (unclaimed : ∀ entry ∈ request.entries, ¬ Claims entry name) :
    (ofRequest request).get? name = none := by
  rw [get?_ofRequest, Option.map_eq_none_iff, List.find?_eq_none]
  intro entry member
  rw [puts_iff_claims unbroken]
  exact unclaimed entry (List.mem_reverse.mp member)

/-- Where all claims to a name agree, any one of them tells what the table has for it. -/
theorem get?_ofRequest_of_agree {request : Request} {entry : Text × Text} (member : entry ∈ request.entries)
    (claims : Claims entry name)
    (agree : ∀ other ∈ request.entries, Claims other name → other.2 = entry.2) :
    (ofRequest request).get? name = some entry.2 := by
  rw [get?_ofRequest]
  cases found : request.entries.reverse.find? fun entry => entry.2 = name || schemaBaseName entry.1 = name with
  | none =>
    have silent := List.find?_eq_none.mp found entry (List.mem_reverse.mpr member)
    exact absurd ((puts_iff_claims unbroken entry).mpr claims) silent
  | some last =>
    have put := List.find?_some found
    have claimed := (puts_iff_claims unbroken last).mp put
    have listed := List.mem_reverse.mp (List.mem_of_find?_eq_some found)
    rw [Option.map_some, agree last listed claimed]

/-- Where all claims to a name agree, the order of the entries does not matter for it. -/
theorem get?_ofRequest_of_perm {request request' : Request} (same : request'.entries.Perm request.entries)
    (agree : ∀ one ∈ request.entries, ∀ other ∈ request.entries, Claims one name → Claims other name → one.2 = other.2) :
    (ofRequest request').get? name = (ofRequest request).get? name := by
  by_cases claimed : ∃ entry ∈ request.entries, Claims entry name
  · obtain ⟨entry, member, claims⟩ := claimed
    rw [get?_ofRequest_of_agree unbroken member claims fun other listed claims' =>
        agree other listed entry member claims' claims,
      get?_ofRequest_of_agree unbroken (same.mem_iff.mpr member) claims fun other listed claims' =>
        agree other (same.mem_iff.mp listed) entry member claims' claims]
  · have unclaimed : ∀ entry ∈ request.entries, ¬ Claims entry name := fun entry member claims =>
      claimed ⟨entry, member, claims⟩
    rw [get?_ofRequest_of_unclaimed unbroken unclaimed,
      get?_ofRequest_of_unclaimed unbroken fun entry member => unclaimed entry (same.mem_iff.mp member)]

end Resolution

/-! ### References -/

/-- The type of a reference is what its base stands for. -/
theorem inferType_of_reference {node : Node} {base : Text} (identifier : node.kind = .identifier)
    (text : node.text = .ok (base ++ ("Ref" : Text))) (nonempty : base ≠ []) (aliases : AliasTable) (depth : Int) :
    inferType aliases depth node = .ok (some { text := (aliases.get? base).getD base }) := by
  have shape : Shape.ofNode node = .ok (.reference base) := by
    have named : (node.kind == .identifier) = true := by rw [identifier]; rfl
    simp only [Shape.ofNode, named, if_true, text, bind, Except.bind, referenceBase?_append nonempty]
    rfl
  rw [inferType_eq_map, Schema.ofNode_eq_ofShape, shape]
  change Except.ok (some (Schema.typeText aliases depth (.reference base))) = _
  rw [Schema.typeText]

/-- What a reference in a source stands for, in the table of a request. It stands for the type of the last entry that has
its base as public name or as base name of the schema, and for its base if there is none. So if no two entries claim the
base for different types, two orders of the request give the reference one type, and this is the type of each entry that
claims the base. -/
theorem reference_resolves {parser : TreeParser} (lawful : parser.Lawful) {dialect : Dialect} {bytes : ByteArray}
    {node : Node} {base : Text} (inside : node.PartOf (parser.parse dialect bytes)) (identifier : node.kind = .identifier)
    (text : node.text = .ok (base ++ ("Ref" : Text))) (nonempty : base ≠ []) (request : Request) (depth : Int) :
    (∀ before entry after, request.entries = before ++ entry :: after → Claims entry base →
      (∀ later ∈ after, ¬ Claims later base) →
      inferType (ofRequest request) depth node = .ok (some { text := entry.2, optional := false })) ∧
    ((∀ entry ∈ request.entries, ¬ Claims entry base) →
      inferType (ofRequest request) depth node = .ok (some { text := base, optional := false })) ∧
    ((∀ one ∈ request.entries, ∀ other ∈ request.entries, Claims one base → Claims other base → one.2 = other.2) →
      (∀ request' : Request, request'.entries.Perm request.entries →
        inferType (ofRequest request') depth node = inferType (ofRequest request) depth node) ∧
      ∀ entry ∈ request.entries, Claims entry base →
        inferType (ofRequest request) depth node = .ok (some { text := entry.2, optional := false })) := by
  have refers : node.RefersTo base := ⟨node, _, .refl node, identifier, text, referenceBase?_append nonempty⟩
  have unbroken : base.IsUnbroken := refers.isUnbroken lawful inside
  have typed := fun request => inferType_of_reference identifier text nonempty (ofRequest request) depth
  refine ⟨fun before entry after split claims latest => ?_, fun unclaimed => ?_,
    fun agree => ⟨fun request' same => ?_, fun entry member claims => ?_⟩⟩
  · rw [typed, get?_ofRequest_of_last unbroken split claims latest]
    rfl
  · rw [typed, get?_ofRequest_of_unclaimed unbroken unclaimed]
    rfl
  · rw [typed, typed, get?_ofRequest_of_perm unbroken same agree]
  · rw [typed, get?_ofRequest_of_agree unbroken member claims fun other listed claims' =>
      agree other listed entry member claims' claims]
    rfl

/-- The reference of a source that is nothing but a reference. -/
def soleReference : Node := Field.firstMember (Field.firstMember (Syntax.parse .typescript "XRef".toUTF8))

/-- A public name that a later schema claims by its base name. -/
def reclaimedName : Request := ⟨[("Y", "X"), ("XSchemaDefinition", "A"), ("XSchemaSchema", "B")], by decide⟩

set_option maxRecDepth 100000 in
theorem reference_resolves_reclaimedName :
    inferType (ofRequest reclaimedName) 1 soleReference = .ok (some { text := "A", optional := false }) := by
  have inside : soleReference.PartOf (Syntax.parse .typescript "XRef".toUTF8) :=
    (Field.firstMember_partOf _).trans (Field.firstMember_partOf _)
  have seen : soleReference.kind = .identifier ∧ soleReference.text.toOption = some ("XRef" : Text) := by decide +kernel
  have text : soleReference.text = .ok (("X" : Text) ++ ("Ref" : Text)) := eq_ok_of_toOption seen.2
  have latest : ∀ later ∈ [(("XSchemaSchema" : Text), ("B" : Text))], ¬ Claims later "X" := by
    intro later member claims
    have unbroken : Text.IsUnbroken "X" := by
      have clean : (("X" : Text).all (!·.endsLine)) = true := by decide
      simpa [Text.IsUnbroken] using clean
    rw [List.mem_singleton.mp member, ← puts_iff_claims unbroken] at claims
    exact absurd claims (by decide)
  have resolves := reference_resolves TreeParser.standard_lawful inside seen.1 text (by decide) reclaimedName 1
  exact resolves.1 [(("Y" : Text), ("X" : Text))] (("XSchemaDefinition" : Text), ("A" : Text)) _ rfl (.inr (.inl rfl)) latest

end AliasTable
end SchemaTypes
