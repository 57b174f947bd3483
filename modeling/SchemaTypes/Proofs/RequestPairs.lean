import Mathlib.Data.List.Forall2
import Mathlib.Data.List.TakeWhile
import SchemaTypes.CommandLine.Usage
import SchemaTypes.Proofs.OrderedMap
import SchemaTypes.Proofs.Outcomes
import SchemaTypes.Request

/-!
Requests on the command line. A value is told by what stands on the two sides of its first equals sign, without the white
space around it. A list of values is refused by the first one that is no pair, and is otherwise the table of its pairs.
So a request can be written as a list of pairs and read back, with any white space around its names.
-/

namespace SchemaTypes

/-! ### White space around a text -/

namespace Text

/-- There is nothing but white space in a text. -/
def IsBlank (t : Text) : Prop := ∀ c ∈ t, c.isBlank = true

/-- There is no white space at the two ends of a text. -/
def IsTrimmed (t : Text) : Prop := ∀ c, t.head? = some c ∨ t.getLast? = some c → c.isBlank = false

/-- A text is another one with white space around it. -/
def Pads (t core : Text) : Prop :=
  core.IsTrimmed ∧ ∃ front back : Text, front.IsBlank ∧ back.IsBlank ∧ t = front ++ core ++ back

theorem trimStart_append_of_isBlank {front : Text} (blank : front.IsBlank) (t : Text) :
    trimStart (front ++ t) = trimStart t :=
  List.dropWhile_append_of_pos blank

theorem trimStart_of_head? {t : Text} (solid : ∀ c, t.head? = some c → c.isBlank = false) : trimStart t = t := by
  cases t with
  | nil => rfl
  | cons c rest =>
    have kept := solid c rfl
    simp [trimStart, kept]

theorem trimStart_of_isBlank {t : Text} (blank : t.IsBlank) : trimStart t = [] :=
  List.dropWhile_eq_nil_iff.mpr blank

theorem exists_trimStart (t : Text) :
    (∃ front : Text, front.IsBlank ∧ t = front ++ trimStart t) ∧
      ∀ c, (trimStart t).head? = some c → c.isBlank = false := by
  constructor
  · exact ⟨t.takeWhile CodePoint.isBlank, fun c member => List.mem_takeWhile_imp member,
      List.takeWhile_append_dropWhile.symm⟩
  · intro c first
    have solid := List.head?_dropWhile_not CodePoint.isBlank t
    rw [show (t.dropWhile CodePoint.isBlank).head? = some c from first] at solid
    exact solid

theorem Pads.trim_eq {t core : Text} (pads : t.Pads core) : t.trim = core := by
  obtain ⟨trimmed, front, back, blankFront, blankBack, rfl⟩ := pads
  have behind : IsBlank back.reverse := fun c member => blankBack c (List.mem_reverse.mp member)
  rw [trim, List.append_assoc, trimStart_append_of_isBlank blankFront]
  cases core with
  | nil =>
    rw [List.nil_append, trimStart_of_isBlank blankBack]
    rfl
  | cons c rest =>
    have opened : trimStart (c :: rest ++ back) = c :: rest ++ back := by
      apply trimStart_of_head?
      intro first found
      exact trimmed first (.inl found)
    rw [opened, trimEnd, List.reverse_append, trimStart_append_of_isBlank behind, trimStart_of_head?,
      List.reverse_reverse]
    intro last found
    rw [List.head?_reverse] at found
    exact trimmed last (.inr found)

/-- Trimming finds the text that white space was put around. -/
theorem trim_eq_iff {t core : Text} : t.trim = core ↔ t.Pads core := by
  refine ⟨?_, Pads.trim_eq⟩
  rintro rfl
  obtain ⟨⟨front, blankFront, opened⟩, solid⟩ := exists_trimStart t
  obtain ⟨⟨back, blankBack, closed⟩, firm⟩ := exists_trimStart (trimStart t).reverse
  have split : trimStart t = t.trim ++ back.reverse := by
    rw [← List.reverse_inj, List.reverse_append, List.reverse_reverse, trim, trimEnd, List.reverse_reverse]
    exact closed
  refine ⟨?_, front, back.reverse, blankFront, fun c member => blankBack c (List.mem_reverse.mp member), ?_⟩
  · rintro c (first | last)
    · apply solid
      rw [split, List.head?_append, first]
      rfl
    · apply firm
      rw [← List.getLast?_reverse]
      exact last
  · rw [List.append_assoc, ← split]
    exact opened

theorem trim_eq_nil_iff {t : Text} : t.trim = [] ↔ t.IsBlank := by
  rw [trim_eq_iff]
  constructor
  · rintro ⟨-, front, back, blankFront, blankBack, rfl⟩ c member
    rw [List.append_nil, List.mem_append] at member
    exact member.elim (blankFront c) (blankBack c)
  · intro blank
    exact ⟨by simp [IsTrimmed], t, [], blank, by simp [IsBlank], by simp⟩

end Text

/-! ### Single values -/

namespace Request

/-- What stands before and after the first equals sign of a value. -/
def Sides (value left right : Text) : Prop := value = left ++ 0x3D :: right ∧ 0x3D ∉ left

/-- A value is a pair of a schema and a type, with any white space around the two. -/
def Names (value : Text) (pair : Text × Text) : Prop :=
  ∃ left right, Sides value left right ∧ left.Pads pair.1 ∧ right.Pads pair.2 ∧ pair.1 ≠ [] ∧ pair.2 ≠ []

/-- A value has no equals sign, or nothing but white space on one side of its first. -/
def Malformed (value : Text) : Prop :=
  0x3D ∉ value ∨ ∃ left right, Sides value left right ∧ (left.IsBlank ∨ right.IsBlank)

theorem splitPair_eq_some_iff {value left right : Text} :
    splitPair value = some (left, right) ↔ Sides value left right := by
  induction value generalizing left with
  | nil => simp [splitPair, Sides]
  | cons c rest ih =>
    by_cases equals : c = 0x3D
    · subst equals
      rw [splitPair, if_pos rfl, Option.some.injEq, Prod.mk.injEq]
      constructor
      · rintro ⟨rfl, rfl⟩
        exact ⟨rfl, by simp⟩
      · rintro ⟨split, absent⟩
        cases left with
        | nil => exact ⟨rfl, (List.cons.inj split).2⟩
        | cons first others =>
          obtain ⟨rfl, -⟩ := List.cons.inj split
          exact absurd List.mem_cons_self absent
    · rw [splitPair, if_neg equals, Option.map_eq_some_iff]
      constructor
      · rintro ⟨⟨before, after⟩, found, same⟩
        cases same
        obtain ⟨split, absent⟩ := ih.mp found
        refine ⟨by rw [split]; rfl, ?_⟩
        rintro (_ | member)
        · exact equals rfl
        · exact absent ‹_›
      · rintro ⟨split, absent⟩
        cases left with
        | nil => exact absurd (List.cons.inj split).1 equals
        | cons first others =>
          obtain ⟨rfl, further⟩ := List.cons.inj split
          have outside : 0x3D ∉ others := fun member => absent (List.mem_cons_of_mem c member)
          exact ⟨(others, right), ih.mpr ⟨further, outside⟩, rfl⟩

theorem splitPair_eq_none_iff {value : Text} : splitPair value = none ↔ 0x3D ∉ value := by
  induction value with
  | nil => simp [splitPair]
  | cons c rest ih =>
    by_cases equals : c = 0x3D
    · simp [splitPair, equals]
    · have other : ¬ 0x3D = c := fun same => equals same.symm
      simp [splitPair, equals, other, ih]

theorem parsePair_of_sides {value left right : Text} (sides : Sides value left right) :
    parsePair value = if left.trim = [] ∨ right.trim = [] then none else some (left.trim, right.trim) := by
  simp [parsePair, splitPair_eq_some_iff.mpr sides]

theorem parsePair_eq_none_iff {value : Text} : parsePair value = none ↔ Malformed value := by
  cases split : splitPair value with
  | none =>
    have absent := splitPair_eq_none_iff.mp split
    simp [parsePair, split, Malformed, absent]
  | some sides =>
    obtain ⟨left, right⟩ := sides
    have known := splitPair_eq_some_iff.mp split
    have present : 0x3D ∈ value := by simp [known.1]
    have refused : parsePair value = none ↔ left.IsBlank ∨ right.IsBlank := by
      rw [parsePair_of_sides known, ← Text.trim_eq_nil_iff, ← Text.trim_eq_nil_iff]
      split <;> simp [*]
    rw [refused]
    constructor
    · intro blank
      exact .inr ⟨left, right, known, blank⟩
    · rintro (absent | ⟨left', right', known', blank⟩)
      · exact absurd present absent
      · -- the first equals sign has one place only
        cases (splitPair_eq_some_iff.mpr known').symm.trans split
        exact blank

theorem parsePair_eq_some_iff {value : Text} {pair : Text × Text} : parsePair value = some pair ↔ Names value pair := by
  constructor
  · intro read
    cases split : splitPair value with
    | none => simp [parsePair, split] at read
    | some sides =>
      obtain ⟨left, right⟩ := sides
      have known := splitPair_eq_some_iff.mp split
      rw [parsePair_of_sides known] at read
      split at read
      · cases read
      next solid =>
        cases read
        rw [not_or] at solid
        exact ⟨left, right, known, Text.trim_eq_iff.mp rfl, Text.trim_eq_iff.mp rfl, solid.1, solid.2⟩
  · rintro ⟨left, right, sides, schema, type, someSchema, someType⟩
    rw [parsePair_of_sides sides, schema.trim_eq, type.trim_eq, if_neg (not_or.mpr ⟨someSchema, someType⟩)]

/-! ### Lists of values -/

/-- The pair of a value, or the value itself if it is none. -/
def readPair (value : Text) : Except Text (Text × Text) := (parsePair value).elim (.error value) .ok

theorem readPair_eq_ok_iff {value : Text} {pair : Text × Text} : readPair value = .ok pair ↔ Names value pair := by
  rw [← parsePair_eq_some_iff, readPair]
  cases parsePair value <;> simp

theorem exists_readPair_iff {value : Text} : (∃ pair, readPair value = .ok pair) ↔ ¬ Malformed value := by
  rw [← parsePair_eq_none_iff, readPair]
  cases parsePair value <;> simp

theorem readPair_eq_error_iff {value refused : Text} :
    readPair value = .error refused ↔ Malformed value ∧ refused = value := by
  rw [← parsePair_eq_none_iff, readPair]
  cases parsePair value <;> simp [eq_comm]

/-- Reading a list of values is reading each of them and then filling a table. -/
theorem parse_eq_mapM (values : List Text) : parse values = (values.mapM readPair).map .ofList := by
  have each : parse values = values.foldlM (fun request value =>
      (readPair value).map fun pair => request.insert pair.1 pair.2) .empty := by
    unfold parse
    congr 1
    funext request value
    rw [readPair]
    cases parsePair value <;> rfl
  rw [each, foldlM_map_result]
  rfl

theorem parse_eq_error_iff {values : List Text} {refused : Text} :
    parse values = .error refused ↔
      ∃ before after, values = before ++ refused :: after ∧ Malformed refused ∧ ∀ earlier ∈ before, ¬ Malformed earlier := by
  have failed : parse values = .error refused ↔ values.mapM readPair = .error refused := by
    rw [parse_eq_mapM]
    cases values.mapM readPair <;> simp [Except.map]
  rw [failed, mapM_eq_error_iff]
  simp only [readPair_eq_error_iff, exists_readPair_iff]
  constructor
  · rintro ⟨before, value, after, split, wellFormed, malformed, rfl⟩
    exact ⟨before, after, split, malformed, wellFormed⟩
  · rintro ⟨before, after, split, malformed, wellFormed⟩
    exact ⟨before, refused, after, split, wellFormed, malformed, rfl⟩

/-- Values that are pairs give the table of their pairs. -/
theorem parse_of_names {values : List Text} {pairs : List (Text × Text)} (named : List.Forall₂ Names values pairs) :
    parse values = .ok (.ofList pairs) := by
  have read : values.mapM readPair = .ok pairs := by
    induction named with
    | nil => rfl
    | cons first _ ih =>
      rw [List.mapM_cons, readPair_eq_ok_iff.mpr first, ih]
      rfl
  rw [parse_eq_mapM, read]
  rfl

theorem exists_names {values : List Text} (wellFormed : ∀ value ∈ values, ¬ Malformed value) :
    ∃ pairs, List.Forall₂ Names values pairs := by
  induction values with
  | nil => exact ⟨[], .nil⟩
  | cons value rest ih =>
    obtain ⟨pairs, named⟩ := ih fun other member => wellFormed other (List.mem_cons_of_mem value member)
    obtain ⟨pair, read⟩ := exists_readPair_iff.mpr (wellFormed value List.mem_cons_self)
    exact ⟨pair :: pairs, .cons (readPair_eq_ok_iff.mp read) named⟩

theorem not_malformed_of_parse {values : List Text} {request : Request} (read : parse values = .ok request) :
    ∀ value ∈ values, ¬ Malformed value := by
  rw [parse_eq_mapM] at read
  cases found : values.mapM readPair with
  | error refused =>
    rw [found] at read
    cases read
  | ok pairs =>
    intro value member
    exact exists_readPair_iff.mp ((mapM_ok_of_mem found).1 value member)

/-! ### Writing requests -/

/-- An entry that can be written as a pair. Only the name of the schema may not have an equals sign in it. -/
structure Writable (entry : Text × Text) : Prop where
  schema_ne_nil : entry.1 ≠ []
  schema_isTrimmed : entry.1.IsTrimmed
  equals_not_mem_schema : 0x3D ∉ entry.1
  type_ne_nil : entry.2 ≠ []
  type_isTrimmed : entry.2.IsTrimmed

/-- A value is an entry written as a pair, with white space around its names. -/
def Writes (value : Text) (entry : Text × Text) : Prop :=
  ∃ a b c d : Text, a.IsBlank ∧ b.IsBlank ∧ c.IsBlank ∧ d.IsBlank ∧
    value = a ++ entry.1 ++ b ++ 0x3D :: (c ++ entry.2 ++ d)

theorem Writes.names {value : Text} {entry : Text × Text} (writes : Writes value entry) (writable : Writable entry) :
    Names value entry := by
  obtain ⟨a, b, c, d, blankA, blankB, blankC, blankD, rfl⟩ := writes
  have solid {t : Text} (blank : t.IsBlank) : 0x3D ∉ t := fun member => absurd (blank _ member) (by decide)
  have first : 0x3D ∉ a ++ entry.1 ++ b := by
    simp [solid blankA, solid blankB, writable.equals_not_mem_schema]
  exact ⟨a ++ entry.1 ++ b, c ++ entry.2 ++ d, ⟨rfl, first⟩, ⟨writable.schema_isTrimmed, a, b, blankA, blankB, rfl⟩,
    ⟨writable.type_isTrimmed, c, d, blankC, blankD, rfl⟩, writable.schema_ne_nil, writable.type_ne_nil⟩

/-- Which lists of values are requests, and which ones. A list is refused just if one of its values has no equals sign, or
nothing but white space before or after its first one, and the message then shows the first such value. Any other list is
the request with the names of its schemas in the order in which each of them is met first, and with the type that each of
them has last. So a request whose names can be written is read back from its pairs as it was, in its order, whatever white
space is put around the names. -/
theorem parse_exact :
    (∀ values,
      ((∃ refused, parse values = .error refused) ↔ ∃ value ∈ values, Malformed value) ∧
      (∀ refused, parse values = .error refused →
        (∃ before after, values = before ++ refused :: after ∧ Malformed refused ∧
          ∀ earlier ∈ before, ¬ Malformed earlier) ∧
        (CommandLine.UsageError.invalidPair refused).message = "Expected SchemaName=TypeName, got " ++ refused.quoted) ∧
      ((∀ value ∈ values, ¬ Malformed value) → ∃ pairs request, List.Forall₂ Names values pairs ∧
        parse values = .ok request ∧ request.keys = (pairs.map Prod.fst).eraseDups ∧
        ∀ schema type, request.get? schema = some type ↔
          ∃ before after, pairs = before ++ (schema, type) :: after ∧ ∀ later ∈ after, later.1 ≠ schema)) ∧
    ∀ (request : Request) (values : List Text), (∀ entry ∈ request.entries, Writable entry) →
      List.Forall₂ Writes values request.entries → parse values = .ok request := by
  refine ⟨fun values => ⟨⟨?_, ?_⟩, fun refused failed => ⟨parse_eq_error_iff.mp failed, rfl⟩, ?_⟩, ?_⟩
  · rintro ⟨refused, failed⟩
    obtain ⟨before, after, rfl, malformed, -⟩ := parse_eq_error_iff.mp failed
    exact ⟨refused, by simp, malformed⟩
  · rintro ⟨value, member, malformed⟩
    cases outcome : parse values with
    | error refused => exact ⟨refused, rfl⟩
    | ok request => exact absurd malformed (not_malformed_of_parse outcome value member)
  · intro wellFormed
    obtain ⟨pairs, named⟩ := exists_names wellFormed
    exact ⟨pairs, .ofList pairs, named, parse_of_names named, OrderedMap.keys_ofList pairs,
      fun _ _ => OrderedMap.get?_ofList_eq_some_iff⟩
  · intro request values writable written
    have named : List.Forall₂ Names values request.entries := by
      apply List.forall₂_iff_zip.mpr
      refine ⟨written.length_eq, fun inside => ?_⟩
      exact (List.forall₂_zip written inside).names (writable _ (List.of_mem_zip inside).2)
    rw [parse_of_names named, OrderedMap.ofList_entries]

/-- A type with an equals sign in it, and white space around the names. -/
theorem parse_exact_spacedPairs :
    parse [" Box\t= A=B ", "Cup=C"] = .ok ⟨[("Box", "A=B"), ("Cup", "C")], by decide⟩ := by
  have trimmed (t : Text) (first last : CodePoint) (opens : t.head? = some first) (closes : t.getLast? = some last)
      (solid : first.isBlank = false ∧ last.isBlank = false) : t.IsTrimmed := by
    rintro c (here | here)
    · cases here.symm.trans opens
      exact solid.1
    · cases here.symm.trans closes
      exact solid.2
  apply parse_exact.2
  · intro entry member
    rcases List.mem_cons.mp member with rfl | member
    · exact ⟨by decide, trimmed _ 0x42 0x78 rfl rfl (by decide), by decide, by decide,
        trimmed _ 0x41 0x42 rfl rfl (by decide)⟩
    · rw [List.mem_singleton.mp member]
      exact ⟨by decide, trimmed _ 0x43 0x70 rfl rfl (by decide), by decide, by decide,
        trimmed _ 0x43 0x43 rfl rfl (by decide)⟩
  · have none : Text.IsBlank [] := by simp [Text.IsBlank]
    have space : Text.IsBlank [0x20] := by simp [Text.IsBlank]; decide
    have tab : Text.IsBlank [0x09] := by simp [Text.IsBlank]; decide
    exact .cons ⟨[0x20], [0x09], [0x20], [0x20], space, tab, space, space, rfl⟩
      (.cons ⟨[], [], [], [], none, none, none, none, rfl⟩ .nil)

end Request
end SchemaTypes
