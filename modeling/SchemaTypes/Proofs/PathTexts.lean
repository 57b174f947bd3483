import SchemaTypes.Proofs.Paths

/-!
Paths and their texts. The components of a path are not empty, are not a dot and have no slash. A path whose components are
such is read back from its text, and the path that a reference resolves to is one. Made absolute, a text keeps its last
component, and the text of a normal path stands for that path.
-/

namespace SchemaTypes

namespace Text

theorem not_mem_of_mem_splitOn {c : CodePoint} {t piece : Text} (member : piece ∈ splitOn c t) : c ∉ piece := by
  induction t generalizing piece with
  | nil =>
    rw [splitOn, List.mem_singleton] at member
    exact member ▸ List.not_mem_nil
  | cons x rest ih =>
    rw [splitOn] at member
    split at member
    · rcases List.mem_cons.mp member with rfl | member
      · exact List.not_mem_nil
      · exact ih member
    next other =>
      split at member
      · rw [List.mem_singleton.mp member, List.mem_singleton]
        exact fun same => other same.symm
      next first pieces split =>
        rcases List.mem_cons.mp member with rfl | member
        · have clean : c ∉ first := ih (split ▸ List.mem_cons_self)
          exact fun inside => (List.mem_cons.mp inside).elim (fun same => other same.symm) clean
        · exact ih (split ▸ List.mem_cons_of_mem first member)

theorem splitOn_of_not_mem {c : CodePoint} {t : Text} (clean : c ∉ t) : splitOn c t = [t] := by
  induction t with
  | nil => rfl
  | cons x rest ih =>
    rw [List.mem_cons, not_or] at clean
    obtain ⟨other, clean⟩ := clean
    rw [splitOn, if_neg fun same => other same.symm, ih clean]

theorem splitOn_ne_nil (c : CodePoint) (t : Text) : splitOn c t ≠ [] := by
  cases t with
  | nil => simp [splitOn]
  | cons x rest =>
    rw [splitOn]
    split
    · simp
    · split <;> simp

theorem splitOn_append (c : CodePoint) (t rest : Text) :
    splitOn c (t ++ c :: rest) = splitOn c t ++ splitOn c rest := by
  induction t with
  | nil => simp [splitOn]
  | cons x t ih =>
    rw [List.cons_append, splitOn, ih, splitOn]
    obtain ⟨first, pieces, split⟩ := List.exists_cons_of_ne_nil (splitOn_ne_nil c t)
    rw [split]
    split <;> rfl

end Text

namespace Path

/-- A text that a path may have as a component. -/
structure IsComponent (t : Text) : Prop where
  nonempty : t ≠ []
  noDot : t ≠ [0x2E]
  noSlash : (0x2F : CodePoint) ∉ t

/-- A path that has nothing but components. -/
def IsSpelled (p : Path) : Prop := ∀ part ∈ p.parts, IsComponent part

theorem isComponent_of_mem_components {t part : Text} (member : part ∈ components t) : IsComponent part := by
  rw [components, List.mem_filter] at member
  obtain ⟨piece, kept⟩ := member
  simp only [Bool.and_eq_true, Bool.not_eq_true', List.isEmpty_eq_false_iff, bne_iff_ne] at kept
  exact ⟨kept.1, kept.2, Text.not_mem_of_mem_splitOn piece⟩

theorem components_append_slash (t rest : Text) : components (t ++ 0x2F :: rest) = components t ++ components rest := by
  rw [components, Text.splitOn_append, List.filter_append]
  rfl

theorem components_cons_slash (t : Text) : components (0x2F :: t) = components t := components_append_slash [] t

theorem components_of_isComponent {part : Text} (component : IsComponent part) : components part = [part] := by
  rw [components, Text.splitOn_of_not_mem component.noSlash]
  exact List.filter_cons_of_pos (by simp [component.nonempty, component.noDot])

theorem components_join {parts : List Text} (spelled : ∀ part ∈ parts, IsComponent part) :
    components (Text.join "/" parts) = parts := by
  induction parts with
  | nil => rfl
  | cons part rest ih =>
    have first := components_of_isComponent (spelled part List.mem_cons_self)
    have others := ih fun other member => spelled other (List.mem_cons_of_mem part member)
    cases rest with
    | nil => exact first
    | cons next rest =>
      have slash : part ++ Text.ofString "/" ++ Text.join "/" (next :: rest) =
          part ++ 0x2F :: Text.join "/" (next :: rest) := List.append_assoc ..
      rw [Text.join, slash, components_append_slash, first, others]
      · rfl
      · exact fun impossible => by cases impossible

/-- A relative text adds its components to those before it. -/
theorem components_joinText {base next : Text} (relative : next.head? ≠ some 0x2F) :
    components (joinText base next) = components base ++ components next := by
  rw [joinText, if_neg relative]
  split
  next ending =>
    rw [Bool.or_eq_true, List.isEmpty_iff, decide_eq_true_eq] at ending
    rcases ending with rfl | slash
    · rfl
    · obtain ⟨before, rfl⟩ := List.getLast?_eq_some_iff.mp slash
      rw [List.append_assoc, List.singleton_append, components_append_slash, components_append_slash]
      simp [components, Text.splitOn]
  · have slash : base ++ Text.ofString "/" ++ next = base ++ 0x2F :: next := List.append_assoc ..
    rw [slash, components_append_slash]

theorem takeWhile_join {parts : List Text} (spelled : ∀ part ∈ parts, IsComponent part) :
    (Text.join "/" parts).takeWhile (· = 0x2F) = [] := by
  cases parts with
  | nil => rfl
  | cons part rest =>
    obtain ⟨nonempty, -, noSlash⟩ := spelled part List.mem_cons_self
    obtain ⟨c, after, rfl⟩ := List.exists_cons_of_ne_nil nonempty
    have other : c ≠ 0x2F := fun same => noSlash (same ▸ List.mem_cons_self)
    have begins : ∃ more, Text.join "/" ((c :: after) :: rest) = c :: more := by
      cases rest with
      | nil => exact ⟨after, rfl⟩
      | cons next rest => exact ⟨_, rfl⟩
    obtain ⟨more, joined⟩ := begins
    rw [joined, List.takeWhile_cons_of_neg (by simpa using other)]

/-- An absolute path is read back from its text. -/
theorem ofText_toText {p : Path} (absolute : p.isAbsolute = true) (spelled : p.IsSpelled) : ofText p.toText = p := by
  obtain ⟨root, parts⟩ := p
  have slashes := takeWhile_join spelled
  have joined := components_join spelled
  cases root with
  | relative => cases absolute
  | slash =>
    have text : toText ⟨.slash, parts⟩ = 0x2F :: Text.join "/" parts := rfl
    rw [text, ofText, components_cons_slash, joined, Root.of, List.takeWhile_cons_of_pos (by simp), slashes]
    rfl
  | doubleSlash =>
    have text : toText ⟨.doubleSlash, parts⟩ = 0x2F :: 0x2F :: Text.join "/" parts := rfl
    rw [text, ofText, components_cons_slash, components_cons_slash, joined, Root.of,
      List.takeWhile_cons_of_pos (by simp), List.takeWhile_cons_of_pos (by simp), slashes]
    rfl

theorem mem_of_mem_foldl_normalStep {parts done : List Text} {part : Text}
    (member : part ∈ parts.foldl normalStep done) : part ∈ parts ∨ part ∈ done := by
  induction parts generalizing done with
  | nil => exact .inr member
  | cons first rest ih =>
    rcases ih member with later | here
    · exact .inl (List.mem_cons_of_mem first later)
    · unfold normalStep at here
      split at here
      · exact .inr (List.mem_of_mem_tail here)
      · rcases List.mem_cons.mp here with rfl | old
        · exact .inl List.mem_cons_self
        · exact .inr old

theorem normalized_isSpelled (t : Text) : (normalized t).IsSpelled := by
  intro part member
  rcases mem_of_mem_foldl_normalStep (List.mem_reverse.mp member) with inside | impossible
  · exact isComponent_of_mem_components inside
  · cases impossible

theorem foldl_normalStep_of_descending {parts : List Text} (descending : upward ∉ parts) (done : List Text) :
    parts.foldl normalStep done = parts.reverse ++ done := by
  induction parts generalizing done with
  | nil => rfl
  | cons part rest ih =>
    rw [List.mem_cons, not_or] at descending
    obtain ⟨other, descending⟩ := descending
    rw [List.foldl_cons, normalStep, if_neg fun same => other same.symm, ih descending]
    simp

theorem name_ofText (t : Text) : (ofText t).name = (components t).getLast?.getD [] := rfl

theorem name_joinText {base next : Text} (nonempty : (ofText next).name ≠ []) :
    (ofText (joinText base next)).name = (ofText next).name := by
  by_cases absolute : next.head? = some 0x2F
  · rw [joinText, if_pos absolute]
  · rw [name_ofText, components_joinText absolute, List.getLast?_append]
    rw [name_ofText] at nonempty ⊢
    cases last : (components next).getLast? with
    | none => simp [last] at nonempty
    | some final => rfl

/-- A last component that does not lead up is the last one of the normal form. -/
theorem name_normalized {t : Text} (nonempty : (ofText t).name ≠ []) (down : (ofText t).name ≠ upward) :
    (normalized t).name = (ofText t).name := by
  rw [name_ofText] at nonempty down
  change (normalParts (components t)).getLast?.getD [] = (components t).getLast?.getD []
  cases last : (components t).getLast? with
  | none => simp [last] at nonempty
  | some final =>
    obtain ⟨before, split⟩ := List.getLast?_eq_some_iff.mp last
    have other : final ≠ upward := by simpa [last] using down
    rw [split, normalParts, List.foldl_append, List.foldl_cons, List.foldl_nil, normalStep, if_neg other]
    simp

/-- The suffix that is put on has more than a dot and no slash. -/
theorem ensureSuffix_isSpelled {p q : Path} (spelled : p.IsSpelled) (suffixed : p.ensureSuffix = .ok q) :
    q.IsSpelled := by
  unfold ensureSuffix at suffixed
  split at suffixed
  · cases suffixed
    exact spelled
  · split at suffixed
    · cases suffixed
    next named =>
      cases suffixed
      intro part member
      rcases List.mem_append.mp member with inside | last
      · exact spelled part (List.dropLast_subset _ inside)
      · rw [List.mem_singleton.mp last]
        have own : IsComponent p.name := by
          unfold name at named ⊢
          cases final : p.parts.getLast? with
          | none => simp [final] at named
          | some final' => exact spelled _ (List.mem_of_getLast? final)
        refine ⟨List.append_ne_nil_of_left_ne_nil own.nonempty _, fun dot => ?_, fun slash => ?_⟩
        · have one := congrArg List.length dot
          have three : (Text.ofString ".ts").length = 3 := rfl
          rw [List.length_append, three] at one
          simp at one
        · rcases List.mem_append.mp slash with inside | suffix
          · exact own.noSlash inside
          · exact absurd suffix (by decide)

end Path

namespace Workspace

theorem name_absolute {t : Text} (nonempty : (Path.ofText t).name ≠ []) (down : (Path.ofText t).name ≠ Path.upward)
    (w : Workspace) : (w.absolute [t]).name = (Path.ofText t).name := by
  have joined : (Path.ofText (Path.joinText w.directory.toText t)).name = (Path.ofText t).name :=
    Path.name_joinText nonempty
  rw [← joined] at nonempty down
  exact (Path.name_normalized nonempty down).trans joined

/-- A normal path stands for itself. -/
theorem absolute_toText {p : Path} (plain : p.IsPlain) (spelled : p.IsSpelled) (w : Workspace) :
    w.absolute [p.toText] = p := by
  have read : Path.ofText p.toText = p := Path.ofText_toText plain.absolute spelled
  have parts : Path.components p.toText = p.parts := congrArg Path.parts read
  have root : Root.of p.toText = p.root := congrArg Path.root read
  have normal : Path.normalParts p.parts = p.parts := by
    rw [Path.normalParts, Path.foldl_normalStep_of_descending plain.descending]
    simp
  rw [absolute, List.foldl_cons, List.foldl_nil, Path.joinText, if_pos (Path.head?_toText plain.absolute),
    Path.normalized, root, parts, normal]

theorem resolve_isSpelled {w : Workspace} {reference : Text} {base : Option Path} {path : Path}
    (resolved : w.resolve reference base = .ok path) : path.IsSpelled := by
  obtain ⟨texts, suffixed⟩ := exists_absolute_of_resolve resolved
  exact Path.ensureSuffix_isSpelled (Path.normalized_isSpelled _) suffixed

end Workspace
end SchemaTypes
