import Mathlib.Tactic.SplitIfs
import SchemaTypes.Naming
import SchemaTypes.StringLiteral

/-!
Field names as they are written. A name is written bare or between quotes, and which of the two it is shows in its first
code point. A bare name ends where a code point follows that no bare name holds, and a quoted one at the first quote that
no backslash stands before. So a written name can be told from whatever is written after it.
-/

namespace SchemaTypes

/-- A text of one class of code points ends where a code point of another class follows. -/
theorem Text.append_inj_of_class (p : CodePoint → Bool) {s s' t t' : Text} (inside : ∀ c ∈ s, p c = true)
    (inside' : ∀ c ∈ s', p c = true) (outside : ∀ c ∈ t.head?, p c = false) (outside' : ∀ c ∈ t'.head?, p c = false)
    (same : s ++ t = s' ++ t') : s = s' ∧ t = t' := by
  have stops : ∀ {u : Text}, (∀ c ∈ u.head?, p c = false) → u.takeWhile p = [] := by
    intro u outside
    cases u with
    | nil => rfl
    | cons c rest => exact List.takeWhile_cons_of_neg (by simp [outside c rfl])
  have taken : s = s' := by
    have front := congrArg (List.takeWhile p) same
    rwa [List.takeWhile_append_of_pos inside, List.takeWhile_append_of_pos inside', stops outside, stops outside',
      List.append_nil, List.append_nil] at front
  subst taken
  exact ⟨rfl, List.append_cancel_left same⟩

namespace FieldName

/-! ### Bare names -/

/-- The code points of bare names. -/
def isBarePoint (c : CodePoint) : Bool := isLetterOrDigit c || c.isDecimalDigit || c = 0x0A

theorem isBarePoint_of_isIdentifier {t : Text} (identifier : isIdentifier t = true) : ∀ c ∈ t, isBarePoint c = true := by
  intro c member
  cases t with
  | nil => cases member
  | cons first rest =>
    simp only [isIdentifier, Bool.and_eq_true, List.all_eq_true] at identifier
    rcases List.mem_cons.mp member with rfl | later
    · simp [isBarePoint, isLetterOrDigit, identifier.1]
    · simp [isBarePoint, identifier.2 c later]

theorem isBarePoint_of_isDigits {t : Text} (digits : isDigits t = true) : ∀ c ∈ t, isBarePoint c = true := by
  intro c member
  simp only [isDigits, Bool.and_eq_true, List.all_eq_true] at digits
  simp [isBarePoint, digits.2 c member]

theorem isBarePoint_of_isBare {name : Text} (bare : isBare name = true) : ∀ c ∈ name, isBarePoint c = true := by
  have body : ∀ {t : Text}, (isIdentifier t || isDigits t) = true → ∀ c ∈ t, isBarePoint c = true := by
    intro t shape
    rcases Bool.or_eq_true_iff.mp shape with identifier | digits
    · exact isBarePoint_of_isIdentifier identifier
    · exact isBarePoint_of_isDigits digits
  unfold isBare at bare
  dsimp only at bare
  split at bare
  next last =>
    -- the line feed at the end is not looked at, but it is a point of the name
    obtain ⟨front, rfl⟩ := List.getLast?_eq_some_iff.mp last
    rw [List.dropLast_concat] at bare
    intro c member
    rcases List.mem_append.mp member with before | atEnd
    · exact body bare c before
    · rw [List.mem_singleton.mp atEnd]
      rfl
  · exact body bare

/-! ### Quoted names -/

/-- The letter after the backslash, for a code point that is written with one. -/
def mark? (c : CodePoint) : Option CodePoint :=
  if c = 0x5C then some 0x5C
  else if c = 0x27 then some 0x27
  else if c = 0x0A then some 0x6E
  else if c = 0x0D then some 0x72
  else if c = 0x09 then some 0x74
  else none

theorem escaped_eq (c : CodePoint) :
    escaped c = match mark? c with
      | some mark => [0x5C, mark]
      | none => [c] := by
  unfold escaped mark?
  split_ifs <;> rfl

/-- The letter stands for the code point that it is written for. -/
theorem simpleEscape_of_mark? {c mark : CodePoint} (marked : mark? c = some mark) :
    StringLiteral.simpleEscape mark = c := by
  unfold mark? at marked
  split_ifs at marked with backslash quote feed carriage tab
  all_goals
    cases marked
    rw [‹c = _›]
    decide

theorem mark?_inj {c c' mark : CodePoint} (marked : mark? c = some mark) (marked' : mark? c' = some mark) : c = c' :=
  (simpleEscape_of_mark? marked).symm.trans (simpleEscape_of_mark? marked')

theorem mark?_eq_none {c : CodePoint} (plain : mark? c = none) : c ≠ 0x5C ∧ c ≠ 0x27 := by
  constructor
  · rintro rfl
    cases plain
  · rintro rfl
    cases plain

theorem escaped_append_inj {c c' : CodePoint} {t t' : Text} (same : escaped c ++ t = escaped c' ++ t') :
    c = c' ∧ t = t' := by
  rw [escaped_eq, escaped_eq] at same
  cases marked : mark? c with
  | some mark =>
    cases marked' : mark? c' with
    | some mark' =>
      simp only [marked, marked', List.cons_append, List.nil_append, List.cons.injEq, true_and] at same
      exact ⟨mark?_inj marked (same.1 ▸ marked'), same.2⟩
    | none =>
      simp only [marked, marked', List.cons_append, List.nil_append, List.cons.injEq] at same
      exact absurd same.1.symm (mark?_eq_none marked').1
  | none =>
    cases marked' : mark? c' with
    | some mark' =>
      simp only [marked, marked', List.cons_append, List.nil_append, List.cons.injEq] at same
      exact absurd same.1 (mark?_eq_none marked).1
    | none =>
      simp only [marked, marked', List.cons_append, List.nil_append, List.cons.injEq] at same
      exact same

/-- No code point is written with a quote in front. -/
theorem escaped_append_ne_quote (c : CodePoint) (t t' : Text) : escaped c ++ t ≠ 0x27 :: t' := by
  intro same
  rw [escaped_eq] at same
  cases marked : mark? c with
  | some mark =>
    simp only [marked, List.cons_append, List.cons.injEq] at same
    exact absurd same.1 (by decide)
  | none =>
    simp only [marked, List.cons_append, List.cons.injEq] at same
    exact (mark?_eq_none marked).2 same.1

/-- What stands between quotes ends at the closing quote. -/
theorem flatMap_escaped_append_inj {name name' t t' : Text}
    (same : name.flatMap escaped ++ 0x27 :: t = name'.flatMap escaped ++ 0x27 :: t') : name = name' ∧ t = t' := by
  induction name generalizing name' with
  | nil =>
    cases name' with
    | nil => exact ⟨rfl, (List.cons.inj same).2⟩
    | cons c rest =>
      rw [List.flatMap_cons, List.append_assoc] at same
      exact absurd same.symm (escaped_append_ne_quote c _ _)
  | cons c rest ih =>
    cases name' with
    | nil =>
      rw [List.flatMap_cons, List.append_assoc] at same
      exact absurd same (escaped_append_ne_quote c _ _)
    | cons c' rest' =>
      rw [List.flatMap_cons, List.flatMap_cons, List.append_assoc, List.append_assoc] at same
      obtain ⟨rfl, further⟩ := escaped_append_inj same
      obtain ⟨rfl, after⟩ := ih further
      exact ⟨rfl, after⟩

theorem quote_append_inj {name name' t t' : Text} (same : quote name ++ t = quote name' ++ t') :
    name = name' ∧ t = t' := by
  simp only [quote, List.append_assoc, List.cons_append, List.nil_append, List.cons.injEq, true_and] at same
  exact flatMap_escaped_append_inj same

/-! ### Written names -/

/-- A written name starts with a quote or with a point of bare names. -/
theorem exists_format_eq_cons (name : Text) :
    ∃ first rest, format name = first :: rest ∧ (first = 0x27 ∨ isBarePoint first = true) := by
  unfold format
  split
  next bare =>
    cases name with
    | nil => cases bare
    | cons first rest => exact ⟨first, rest, rfl, .inr (isBarePoint_of_isBare bare first List.mem_cons_self)⟩
  · exact ⟨0x27, name.flatMap escaped ++ [0x27], rfl, .inl rfl⟩

/-- A quote is no point of bare names. -/
theorem head?_of_isBare {name : Text} (bare : isBare name = true) : name.head? ≠ some 0x27 := by
  intro quoted
  have point := isBarePoint_of_isBare bare 0x27 (List.mem_of_head? quoted)
  revert point
  decide

theorem isBare_append_ne_quote {name : Text} (bare : isBare name = true) (name' t t' : Text) :
    name ++ t ≠ quote name' ++ t' := by
  intro same
  cases name with
  | nil => cases bare
  | cons first rest => exact head?_of_isBare bare (congrArg some (List.cons.inj same).1)

/-- A written name can be told from what follows it, if that does not go on as a bare name could. -/
theorem format_append_inj {name name' t t' : Text} (outside : ∀ c ∈ t.head?, isBarePoint c = false)
    (outside' : ∀ c ∈ t'.head?, isBarePoint c = false) (same : format name ++ t = format name' ++ t') :
    name = name' ∧ t = t' := by
  unfold format at same
  split at same
  next bare =>
    split at same
    next bare' =>
      exact Text.append_inj_of_class isBarePoint (isBarePoint_of_isBare bare) (isBarePoint_of_isBare bare') outside
        outside' same
    · exact absurd same (isBare_append_ne_quote bare _ _ _)
  · split at same
    next bare' => exact absurd same.symm (isBare_append_ne_quote bare' _ _ _)
    · exact quote_append_inj same

end FieldName
end SchemaTypes
