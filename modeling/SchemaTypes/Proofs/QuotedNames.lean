import SchemaTypes.Proofs.FieldNames
import SchemaTypes.Proofs.StringSpellings

/-!
Quoted names as string literals. A name that is written between quotes is a complete literal on one line: its closing quote
is the first one that no backslash escapes. Each code point of the name is written as one piece of the literal that stands
for it, so the value of the literal is the name.
-/

namespace SchemaTypes

namespace StringLiteral

/-- What comes next after a text is escaped: of the backslashes at its end each escapes the one after it, and the last one
is left over. -/
def EscapesNext (t : Text) : Prop := (t.reverse.takeWhile (· = 0x5C)).length % 2 = 1

/-- A text is one literal in single quotes: it starts with a quote, and of the quotes after that the last code point is the
first one, and the only one, that is not escaped. -/
structure IsSingleQuoted (t : Text) : Prop where
  delimited : ∃ body, t = 0x27 :: (body ++ [0x27])
  closing : ∀ before after, t = 0x27 :: (before ++ 0x27 :: after) → (¬ EscapesNext before ↔ after = [])

theorem escapesNext_concat_backslash (t : Text) : EscapesNext (t ++ [0x5C]) ↔ ¬ EscapesNext t := by
  have one_more : ((t ++ [0x5C]).reverse.takeWhile (· = 0x5C)).length = (t.reverse.takeWhile (· = 0x5C)).length + 1 := by
    simp
  unfold EscapesNext
  omega

theorem not_escapesNext_concat {c : CodePoint} (other : c ≠ 0x5C) (t : Text) : ¬ EscapesNext (t ++ [c]) := by
  have none : (t ++ [c]).reverse.takeWhile (· = 0x5C) = [] := by simp [other]
  rw [EscapesNext, none]
  simp

end StringLiteral

namespace FieldName

open StringLiteral

/-! ### Where a quoted name ends -/

/-- No code point is left open: what is written after it is not escaped. -/
theorem not_escapesNext_append_escaped {t : Text} (settled : ¬ EscapesNext t) (c : CodePoint) :
    ¬ EscapesNext (t ++ escaped c) := by
  rw [escaped_eq]
  cases marked : mark? c with
  | none => exact not_escapesNext_concat (mark?_eq_none marked).1 t
  | some mark =>
    have split : t ++ [0x5C, mark] = t ++ [0x5C] ++ [mark] := by simp
    simp only [split]
    by_cases backslash : mark = 0x5C
    · rw [backslash, escapesNext_concat_backslash, escapesNext_concat_backslash]
      simpa using settled
    · exact not_escapesNext_concat backslash _

theorem not_escapesNext_append_flatMap {t : Text} (settled : ¬ EscapesNext t) (name : Text) :
    ¬ EscapesNext (t ++ name.flatMap escaped) := by
  induction name generalizing t with
  | nil => simpa using settled
  | cons c rest ih =>
    rw [List.flatMap_cons, ← List.append_assoc]
    exact ih (not_escapesNext_append_escaped settled c)

theorem not_escapesNext_flatMap (name : Text) : ¬ EscapesNext (name.flatMap escaped) := by
  have nothing : ¬ EscapesNext [] := by simp [EscapesNext]
  simpa using not_escapesNext_append_flatMap nothing name

/-- A quote between the quotes is one of the name, written with its backslash. -/
theorem exists_of_flatMap_escaped {name before after : Text} (split : name.flatMap escaped = before ++ 0x27 :: after) :
    ∃ front : Text, before = front.flatMap escaped ++ [0x5C] := by
  induction name generalizing before with
  | nil => simp at split
  | cons c rest ih =>
    rw [List.flatMap_cons, escaped_eq] at split
    cases marked : mark? c with
    | none =>
      rw [marked] at split
      cases before with
      | nil =>
        simp only [List.cons_append, List.nil_append, List.cons.injEq] at split
        exact absurd split.1 (mark?_eq_none marked).2
      | cons first before =>
        simp only [List.cons_append, List.nil_append, List.cons.injEq] at split
        obtain ⟨front, rfl⟩ := ih split.2
        refine ⟨c :: front, ?_⟩
        rw [List.flatMap_cons, escaped_eq, marked, ← split.1]
        simp
    | some mark =>
      rw [marked] at split
      cases before with
      | nil =>
        simp only [List.cons_append, List.nil_append, List.cons.injEq] at split
        exact absurd split.1 (by decide)
      | cons first before =>
        simp only [List.cons_append, List.nil_append, List.cons.injEq] at split
        obtain ⟨rfl, split⟩ := split
        cases before with
        | nil => exact ⟨[], rfl⟩
        | cons second before =>
          simp only [List.cons_append, List.cons.injEq] at split
          obtain ⟨rfl, split⟩ := split
          obtain ⟨front, rfl⟩ := ih split
          refine ⟨c :: front, ?_⟩
          rw [List.flatMap_cons, escaped_eq, marked]
          simp

/-- A quoted name is one literal. -/
theorem quote_isSingleQuoted (name : Text) : IsSingleQuoted (quote name) where
  delimited := ⟨name.flatMap escaped, rfl⟩
  closing := by
    intro before after split
    have inside : name.flatMap escaped ++ [0x27] = before ++ 0x27 :: after := (List.cons.inj split).2
    cases ending : after.getLast? with
    | none =>
      have last : after = [] := List.getLast?_eq_none_iff.mp ending
      subst last
      have same : name.flatMap escaped = before := (List.append_inj' inside rfl).1
      subst same
      simp [not_escapesNext_flatMap]
    | some final =>
      obtain ⟨more, rfl⟩ := List.getLast?_eq_some_iff.mp ending
      have earlier : name.flatMap escaped = before ++ 0x27 :: more := by
        have moved : before ++ 0x27 :: (more ++ [final]) = before ++ 0x27 :: more ++ [final] := by simp
        exact (List.append_inj' (inside.trans moved) rfl).1
      obtain ⟨front, rfl⟩ := exists_of_flatMap_escaped earlier
      have escapes : EscapesNext (front.flatMap escaped ++ [0x5C]) :=
        (escapesNext_concat_backslash _).mpr (not_escapesNext_flatMap front)
      simp [escapes]

/-! ### What a quoted name holds -/

/-- The control characters that are not written as they are. -/
def controlPoints : List CodePoint := [0x0A, 0x0D, 0x09]

theorem not_mem_escaped {d : CodePoint} (control : d ∈ controlPoints) (c : CodePoint) : d ∉ escaped c := by
  simp only [controlPoints, List.mem_cons, List.not_mem_nil, or_false] at control
  unfold escaped
  split_ifs with backslash quote feed carriage tab
  case neg =>
    rw [List.mem_singleton]
    rintro rfl
    rcases control with same | same | same
    · exact feed same
    · exact carriage same
    · exact tab same
  all_goals rcases control with rfl | rfl | rfl <;> decide

theorem not_mem_quote {d : CodePoint} (control : d ∈ controlPoints) (name : Text) : d ∉ quote name := by
  have mark : d ≠ 0x27 := by
    rintro rfl
    revert control
    decide
  simp only [quote, List.mem_append, List.mem_flatMap, List.mem_singleton, not_or, not_exists, not_and]
  exact ⟨⟨mark, fun c _ => not_mem_escaped control c⟩, mark⟩

/-! ### What a quoted name stands for -/

/-- A code point is written as one piece that stands for it. -/
theorem exists_piece (c : CodePoint) :
    ∃ piece : Piece, piece.spelling = escaped c ∧ piece.outcome = .ok [c] ∧
      piece ≠ .continuation .carriageReturn := by
  unfold escaped
  split_ifs with backslash quote feed carriage tab
  · exact ⟨.itself 0x5C (by decide) (by decide), rfl, by rw [backslash]; rfl, by simp⟩
  · exact ⟨.itself 0x27 (by decide) (by decide), rfl, by rw [quote]; rfl, by simp⟩
  · exact ⟨.control 0x6E 0x0A (by decide), rfl, by rw [feed]; rfl, by simp⟩
  · exact ⟨.control 0x72 0x0D (by decide), rfl, by rw [carriage]; rfl, by simp⟩
  · exact ⟨.control 0x74 0x09 (by decide), rfl, by rw [tab]; rfl, by simp⟩
  · exact ⟨.raw c backslash, rfl, rfl, by simp⟩

theorem decode_flatMap_escaped (name : Text) : decode (name.flatMap escaped) = .ok name := by
  induction name with
  | nil => rfl
  | cons c rest ih =>
    obtain ⟨piece, spelled, stands, other⟩ := exists_piece c
    have step := piece.decodeFrom_spelling (rest.flatMap escaped) fun same => absurd same other
    rw [spelled, stands] at step
    rw [decode] at ih ⊢
    rw [List.flatMap_cons, step, ih]
    rfl

theorem value_quote (name : Text) : value (quote name) = .ok name := by
  have inside : ((quote name).drop 1).dropLast = name.flatMap escaped := List.dropLast_concat
  rw [value, inside, decode_flatMap_escaped]
  rfl

/-! ### Written names -/

theorem format_injective : Function.Injective format := by
  intro name name' same
  have alone : format name ++ [] = format name' ++ [] := by rw [same]
  exact (format_append_inj (by simp) (by simp) alone).1

/-- A name is written as it is, and then without a quote in front, or as one literal in single quotes that has no line
break and no tab in it and whose value is the name. So two names are never written alike. -/
theorem format_bare_or_quoted :
    (∀ name, if isBare name then format name = name ∧ name.head? ≠ some 0x27
      else IsSingleQuoted (format name) ∧ (∀ d ∈ controlPoints, d ∉ format name) ∧ value (format name) = .ok name) ∧
    Function.Injective format := by
  refine ⟨fun name => ?_, format_injective⟩
  by_cases bare : isBare name = true
  · rw [if_pos bare, format, if_pos bare]
    exact ⟨rfl, head?_of_isBare bare⟩
  · rw [if_neg bare, format, if_neg bare]
    exact ⟨quote_isSingleQuoted name, fun d control => not_mem_quote control name, value_quote name⟩

end FieldName
end SchemaTypes
