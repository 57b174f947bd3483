import SchemaTypes.Proofs.CanonicalPaths

/-!
Relative references. From an absolute directory, a relative reference leads along its components, and nothing but the
directory and the reference has a part in where it leads. Going up undoes the last step down, so it does not matter whether
the steps of two references are taken one after the other or in one go: a chain of imports leads where the references,
written behind one another, lead.
-/

namespace SchemaTypes

namespace Path

/-! ### Steps one after the other -/

theorem foldl_normalStep_normalParts (parts : List Text) :
    (normalParts parts).foldl normalStep [] = parts.foldl normalStep [] := by
  rw [foldl_normalStep_of_descending (upward_not_mem_normalParts parts), List.append_nil, normalParts, List.reverse_reverse]

/-- Components that are carried out already may be carried out before others follow. -/
theorem normalParts_append (parts more : List Text) :
    normalParts (normalParts parts ++ more) = normalParts (parts ++ more) := by
  have carried (first : List Text) :
      normalParts (first ++ more) = (more.foldl normalStep (first.foldl normalStep [])).reverse := by
    rw [normalParts, List.foldl_append]
  rw [carried, carried, foldl_normalStep_normalParts]

theorem normalParts_concat {parts : List Text} {name : Text} (down : name ≠ upward) :
    normalParts (parts ++ [name]) = normalParts parts ++ [name] := by
  rw [normalParts, List.foldl_append, List.foldl_cons, List.foldl_nil, normalStep, if_neg down, List.reverse_cons]
  rfl

/-! ### Roots of joined texts -/

/-- The slashes at the start of a text end where something else follows. -/
theorem takeWhile_append_slash {base : Text} (rest : Text) (other : ∃ c ∈ base, c ≠ 0x2F) :
    (base ++ rest).takeWhile (· = 0x2F) = base.takeWhile (· = 0x2F) := by
  induction base with
  | nil =>
    obtain ⟨c, member, -⟩ := other
    cases member
  | cons first base ih =>
    by_cases slash : first = 0x2F
    · have later : ∃ c ∈ base, c ≠ 0x2F := by
        obtain ⟨c, member, different⟩ := other
        rcases List.mem_cons.mp member with rfl | member
        · exact absurd slash different
        · exact ⟨c, member, different⟩
      simp [slash, ih later]
    · simp [slash]

theorem takeWhile_append_relative {next : Text} (relative : next.head? ≠ some 0x2F) (base : Text) :
    (base ++ next).takeWhile (· = 0x2F) = base.takeWhile (· = 0x2F) := by
  induction base with
  | nil =>
    cases next with
    | nil => rfl
    | cons c rest => exact List.takeWhile_cons_of_neg (by simpa using relative)
  | cons first base ih => simp [List.takeWhile_cons, ih]

/-- A relative text leaves the root of the text before it as it is. -/
theorem rootOf_joinText {base next : Text} (slash : base.head? = some 0x2F) (relative : next.head? ≠ some 0x2F) :
    Root.of (joinText base next) = Root.of base := by
  unfold Root.of joinText
  rw [if_neg relative]
  by_cases ending : (base.isEmpty || base.getLast? = some 0x2F) = true
  · rw [if_pos ending, takeWhile_append_relative relative]
  · rw [if_neg ending, List.append_assoc, takeWhile_append_slash]
    cases last : base.getLast? with
    | none =>
      rw [List.getLast?_eq_none_iff.mp last] at slash
      cases slash
    | some c =>
      refine ⟨c, List.mem_of_getLast? last, ?_⟩
      rintro rfl
      simp [last] at ending

theorem normalized_joinText {base next : Text} (slash : base.head? = some 0x2F) (relative : next.head? ≠ some 0x2F) :
    normalized (joinText base next) = ⟨Root.of base, normalParts (components base ++ components next)⟩ := by
  rw [normalized, rootOf_joinText slash relative, components_joinText relative]

/-- A suffix changes the name of a path and not its directory. -/
theorem parent_of_ensureSuffix {p q : Path} (suffixed : p.ensureSuffix = .ok q) : q.parent = p.parent := by
  unfold ensureSuffix at suffixed
  split at suffixed
  · cases suffixed
    rfl
  · split at suffixed
    · cases suffixed
    · cases suffixed
      simp [parent, withName]

end Path

namespace Workspace

/-! ### Relative references -/

/-- A reference is relative to the directory of the file that it stands in. -/
def Reference.IsRelative (text : Text) : Prop := Text.ofString "./" <+: text ∨ Text.ofString "../" <+: text

namespace Reference

theorem of_isRelative {text : Text} (relative : IsRelative text) : Reference.of text = .relative text := by
  rcases relative with ⟨rest, rfl⟩ | ⟨rest, rfl⟩
  · rfl
  · rfl

theorem IsRelative.head? {text : Text} (relative : IsRelative text) : text.head? ≠ some 0x2F := by
  rcases relative with ⟨rest, rfl⟩ | ⟨rest, rfl⟩
  · exact fun slash => absurd (Option.some.inj slash) (by decide)
  · exact fun slash => absurd (Option.some.inj slash) (by decide)

theorem IsRelative.head?_directory {directory name : Text} (relative : IsRelative (directory ++ "/" ++ name)) :
    directory.head? ≠ some 0x2F := by
  cases directory with
  | nil => simp
  | cons c rest => exact relative.head?

/-- A start that ends in a slash does not reach into the last component. -/
theorem prefix_directory {start directory name : Text} (whole : start ++ [0x2F] <+: directory ++ 0x2F :: name)
    (noSlash : (0x2F : CodePoint) ∉ name) : start ++ [0x2F] <+: directory ++ [0x2F] := by
  have front : directory ++ [0x2F] <+: directory ++ 0x2F :: name := ⟨name, List.append_assoc ..⟩
  rcases List.prefix_or_prefix_of_prefix whole front with shorter | ⟨beyond, longer⟩
  · exact shorter
  · cases ending : beyond.getLast? with
    | none =>
      rw [List.getLast?_eq_none_iff.mp ending, List.append_nil] at longer
      exact ⟨[], by rw [List.append_nil, longer]⟩
    | some last =>
      obtain ⟨more, rfl⟩ := List.getLast?_eq_some_iff.mp ending
      obtain ⟨rest, split⟩ := whole
      have slash : last = 0x2F := by
        rw [← List.append_assoc] at longer
        exact List.singleton_inj.mp (List.append_inj' longer rfl).2
      have inside : more ++ [last] ++ rest = name := by
        rw [← longer] at split
        simpa using split
      refine absurd ?_ noSlash
      rw [← inside, slash]
      simp

/-- The directory of a relative reference leads on to another relative reference. -/
theorem IsRelative.append {directory name : Text} (relative : IsRelative (directory ++ "/" ++ name))
    (noSlash : (0x2F : CodePoint) ∉ name) (next : Text) : IsRelative (directory ++ "/" ++ next) := by
  have through : directory ++ [0x2F] <+: (directory ++ "/" ++ next : Text) := ⟨next, rfl⟩
  have slash : (directory ++ "/" ++ name : Text) = directory ++ 0x2F :: name := List.append_assoc ..
  rw [IsRelative, slash] at relative
  rcases relative with here | above
  · have here : ([0x2E] : Text) ++ [0x2F] <+: directory ++ 0x2F :: name := here
    exact .inl ((prefix_directory here noSlash).trans through)
  · have above : ([0x2E, 0x2E] : Text) ++ [0x2F] <+: directory ++ 0x2F :: name := above
    exact .inr ((prefix_directory above noSlash).trans through)

end Reference

/-- From an absolute directory, a relative reference leads along its components. -/
theorem resolve_relative {b : Path} {r : Text} (absolute : b.isAbsolute = true) (relative : Reference.IsRelative r)
    (w : Workspace) :
    w.resolve r (some b) =
      Path.ensureSuffix ⟨Root.of b.toText, Path.normalParts (Path.components b.toText ++ Path.components r)⟩ := by
  have slash : b.toText.head? = some 0x2F := Path.head?_toText absolute
  have based : Path.joinText w.directory.toText b.toText = b.toText := by rw [Path.joinText, if_pos slash]
  rw [resolve_of_relative (Reference.of_isRelative relative), Option.getD_some, Workspace.absolute, List.foldl_cons,
    List.foldl_cons, List.foldl_nil, based, Path.normalized_joinText slash relative.head?]

/-- A normal path is the directory that its text stands for. -/
theorem resolve_relative_of_normal {here : Path} {r : Text} (plain : here.IsPlain) (spelled : here.IsSpelled)
    (relative : Reference.IsRelative r) (w : Workspace) :
    w.resolve r (some here) =
      Path.ensureSuffix ⟨here.root, Path.normalParts (here.parts ++ Path.components r)⟩ := by
  have read : Path.ofText here.toText = here := Path.ofText_toText plain.absolute spelled
  have root : Root.of here.toText = here.root := congrArg Path.root read
  have parts : Path.components here.toText = here.parts := congrArg Path.parts read
  rw [resolve_relative plain.absolute relative, root, parts]

theorem components_reference (directory next : Text) :
    Path.components (directory ++ "/" ++ next) = Path.components directory ++ Path.components next := by
  have slash : (directory ++ "/" ++ next : Text) = directory ++ 0x2F :: next := List.append_assoc ..
  rw [slash, Path.components_append_slash]

/-- The part of a relative reference before its last component leads to the directory of what it is resolved to. -/
theorem resolve_directory {b : Path} {directory name : Text} (absolute : b.isAbsolute = true)
    (relative : Reference.IsRelative (directory ++ "/" ++ name)) (component : Path.IsComponent name)
    (down : name ≠ Path.upward) (w : Workspace) :
    ∃ path, w.resolve (directory ++ "/" ++ name) (some b) = .ok path ∧
      path.parent = Path.normalized (Path.joinText b.toText directory) := by
  have slash : b.toText.head? = some 0x2F := Path.head?_toText absolute
  have steps : Path.normalParts (Path.components b.toText ++ Path.components (directory ++ "/" ++ name)) =
      Path.normalParts (Path.components b.toText ++ Path.components directory) ++ [name] := by
    rw [components_reference, Path.components_of_isComponent component, ← List.append_assoc,
      Path.normalParts_concat down]
  rw [resolve_relative absolute relative, steps, Path.normalized_joinText slash relative.head?_directory]
  cases suffixed : Path.ensureSuffix ⟨Root.of b.toText,
      Path.normalParts (Path.components b.toText ++ Path.components directory) ++ [name]⟩ with
  | error e =>
    have nameless := (Path.ensureSuffix_eq_error_iff.mp suffixed).1
    simp [Path.name, component.nonempty] at nameless
  | ok path =>
    refine ⟨path, rfl, ?_⟩
    rw [Path.parent_of_ensureSuffix suffixed]
    simp [Path.parent]

/-- Relative references are resolved by their directory alone and compose. From an absolute directory, a relative reference
is resolved alike in all workspaces. And whatever a relative reference is resolved to, a reference that is relative to the
directory of that is resolved to what both in one are, or fails as they do. -/
theorem resolve_composes {b : Path} (absolute : b.isAbsolute = true) :
    (∀ (w w' : Workspace) (r : Text), Reference.IsRelative r → w'.resolve r (some b) = w.resolve r (some b)) ∧
    (∀ (w w' : Workspace) (directory name r : Text), Path.IsComponent name → name ≠ Path.upward →
      Reference.IsRelative (directory ++ "/" ++ name) → Reference.IsRelative r →
      ∃ path, w.resolve (directory ++ "/" ++ name) (some b) = .ok path ∧
        w'.resolve r (some path.parent) = w.resolve (directory ++ "/" ++ r) (some b)) := by
  constructor
  · intro w w' r relative
    rw [resolve_relative absolute relative, resolve_relative absolute relative]
  · intro w w' directory name r component down relative further
    obtain ⟨path, resolved, parent⟩ := resolve_directory absolute relative component down w
    refine ⟨path, resolved, ?_⟩
    have slash : b.toText.head? = some 0x2F := Path.head?_toText absolute
    have here : Path.normalized (Path.joinText b.toText directory) =
        ⟨Root.of b.toText, Path.normalParts (Path.components b.toText ++ Path.components directory)⟩ :=
      Path.normalized_joinText slash relative.head?_directory
    have plain : (Path.normalized (Path.joinText b.toText directory)).IsPlain :=
      Path.normalized_isPlain (Path.head?_joinText slash)
    rw [parent, resolve_relative_of_normal plain (Path.normalized_isSpelled _) further, here,
      resolve_relative absolute (relative.append component.noSlash r), components_reference, Path.normalParts_append,
      List.append_assoc]

/-- From a file that is imported with a repeated slash back up to the root, where both ways fail alike. -/
theorem resolve_composes_upToRoot :
    let b : Path := .ofText "//x"
    bareWorkspace.resolve "./a//b" (some b) = .ok (.ofText "//x/a/b.ts") ∧
      bareWorkspace.resolve "./../.." (some (.ofText "//x/a")) = bareWorkspace.resolve "./a//./../.." (some b) ∧
      bareWorkspace.resolve "./a//./../.." (some b) = .error (.emptyName (.ofText "//")) := by
  have resolved : bareWorkspace.resolve "./a//b" (some (.ofText "//x")) = .ok (.ofText "//x/a/b.ts") := rfl
  obtain ⟨path, found, same⟩ := (resolve_composes (b := .ofText "//x") rfl).2 bareWorkspace bareWorkspace "./a/" "b"
    "./../.." ⟨by decide, by decide, by decide⟩ (by decide) (.inl ⟨_, rfl⟩) (.inl ⟨_, rfl⟩)
  obtain rfl : Path.ofText "//x/a/b.ts" = path := Except.ok.inj (resolved.symm.trans found)
  exact ⟨resolved, same, rfl⟩

end Workspace
end SchemaTypes
