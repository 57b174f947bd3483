import SchemaTypes.Proofs.Faults
import SchemaTypes.Proofs.PathTexts

/-!
Canonical paths. What a reference resolves to is the one spelling of its path: absolute, without empty, `.` and `..`
components, and with a suffix. Such a path is left alone by everything that resolution does, so its text resolves to it from
anywhere. Resolution fails only at a root, which has no name that a suffix could be put on.
-/

namespace SchemaTypes

namespace Path

/-- The spelling of a path under which a file is known. -/
structure IsCanonical (p : Path) : Prop where
  absolute : p.isAbsolute = true
  component : ∀ part ∈ p.parts, part ≠ [] ∧ part ≠ [0x2E] ∧ part ≠ upward ∧ (0x2F : CodePoint) ∉ part
  suffixed : p.suffix ≠ []

theorem IsCanonical.isPlain {p : Path} (canonical : p.IsCanonical) : p.IsPlain where
  absolute := canonical.absolute
  descending := fun member => (canonical.component upward member).2.2.1 rfl

theorem IsCanonical.isSpelled {p : Path} (canonical : p.IsCanonical) : p.IsSpelled := by
  intro part member
  obtain ⟨nonempty, noDot, -, noSlash⟩ := canonical.component part member
  exact ⟨nonempty, noDot, noSlash⟩

theorem isCanonical_of {p : Path} (plain : p.IsPlain) (spelled : p.IsSpelled) (suffixed : p.suffix ≠ []) :
    p.IsCanonical where
  absolute := plain.absolute
  component := by
    intro part member
    obtain ⟨nonempty, noDot, noSlash⟩ := spelled part member
    exact ⟨nonempty, noDot, fun up => plain.descending (up ▸ member), noSlash⟩
  suffixed := suffixed

/-! ### Suffixes -/

theorem suffixOf_nil : suffixOf [] = [] := rfl

/-- The last dot of a name with `.ts` put on is the one of `.ts`, and it does not start the name. -/
theorem suffixOf_append {name : Text} (named : name ≠ []) : suffixOf (name ++ ".ts") = ".ts" := by
  have tail : (name ++ Text.ofString ".ts").reverse.takeWhile (· ≠ 0x2E) = [0x73, 0x74] := by
    rw [List.reverse_append]
    rfl
  have long : (name ++ Text.ofString ".ts").length = name.length + 3 := List.length_append
  have positive : 0 < name.length := List.length_pos_iff.mpr named
  unfold suffixOf
  simp only [tail, long, List.length_cons, List.length_nil]
  rw [if_neg (by simp; omega)]
  have start : name.length + 3 - (0 + 1 + 1) - 1 = name.length := by omega
  rw [start, List.drop_left]

theorem name_withName (p : Path) (name : Text) : (p.withName name).name = name := by
  simp [withName, Path.name]

theorem ensureSuffix_of_suffixed {p : Path} (suffixed : p.suffix ≠ []) : p.ensureSuffix = .ok p := by
  have present : (!p.suffix.isEmpty) = true := by simp [suffixed]
  rw [ensureSuffix, if_pos present]

theorem ensureSuffix_of_bare {p : Path} (bare : p.suffix = []) (named : p.name ≠ []) :
    p.ensureSuffix = .ok (p.withName (p.name ++ ".ts")) := by
  have absent : ¬ (!p.suffix.isEmpty) = true := by simp [bare]
  have present : ¬ p.name.isEmpty = true := by simp [named]
  rw [ensureSuffix, if_neg absent, if_neg present]

theorem ensureSuffix_of_nameless {p : Path} (nameless : p.name = []) : p.ensureSuffix = .error (.emptyName p) := by
  have bare : p.suffix = [] := by rw [suffix, nameless, suffixOf_nil]
  have absent : ¬ (!p.suffix.isEmpty) = true := by simp [bare]
  have empty : p.name.isEmpty = true := by simp [nameless]
  rw [ensureSuffix, if_neg absent, if_pos empty]

/-- Only a path without a name cannot be given a suffix. -/
theorem ensureSuffix_eq_error_iff {p : Path} {e : Error} :
    p.ensureSuffix = .error e ↔ p.name = [] ∧ e = .emptyName p := by
  constructor
  · intro failed
    refine ⟨?_, ensureSuffix_error failed⟩
    by_cases bare : p.suffix = []
    · by_cases named : p.name = []
      · exact named
      · rw [ensureSuffix_of_bare bare named] at failed
        cases failed
    · rw [ensureSuffix_of_suffixed bare] at failed
      cases failed
  · rintro ⟨nameless, rfl⟩
    exact ensureSuffix_of_nameless nameless

theorem suffix_of_ensureSuffix {p q : Path} (success : p.ensureSuffix = .ok q) : q.suffix ≠ [] := by
  by_cases bare : p.suffix = []
  · by_cases named : p.name = []
    · rw [ensureSuffix_of_nameless named] at success
      cases success
    · rw [ensureSuffix_of_bare bare named] at success
      cases success
      rw [suffix, name_withName, suffixOf_append named]
      decide
  · rw [ensureSuffix_of_suffixed bare] at success
    cases success
    exact bare

/-- The components of a spelled path are not empty, so only a root has no name. -/
theorem name_eq_nil_iff {p : Path} (spelled : p.IsSpelled) : p.name = [] ↔ p.parts = [] := by
  unfold name
  cases last : p.parts.getLast? with
  | none => simpa using last
  | some final =>
    have member : final ∈ p.parts := List.mem_of_getLast? last
    have named : final ≠ [] := (spelled final member).nonempty
    have inhabited : p.parts ≠ [] := List.ne_nil_of_mem member
    simp [named, inhabited]

end Path

namespace Workspace

theorem absolute_isSpelled (w : Workspace) (texts : List Text) : (w.absolute texts).IsSpelled :=
  Path.normalized_isSpelled _

/-- A path made absolute can be given a suffix unless it is a root. -/
theorem ensureSuffix_absolute_eq_error_iff {w : Workspace} {texts : List Text} {e : Error} :
    (w.absolute texts).ensureSuffix = .error e ↔
      (w.absolute texts).parts = [] ∧ e = .emptyName (w.absolute texts) := by
  rw [Path.ensureSuffix_eq_error_iff, Path.name_eq_nil_iff (w.absolute_isSpelled texts)]

/-! ### References by their kinds -/

theorem resolve_of_aliased {reference rest : Text} (aliased : Reference.of reference = .aliased rest) (w : Workspace)
    (base : Option Path) :
    w.resolve reference base = (w.absolute [w.roots.primary, rest]).ensureSuffix >>= fun primary =>
      if w.exists? primary then pure primary else (w.absolute [w.roots.fallback, rest]).ensureSuffix := by
  rw [resolve, aliased]

theorem resolve_of_relative {reference text : Text} (relative : Reference.of reference = .relative text) (w : Workspace)
    (base : Option Path) :
    w.resolve reference base = (w.absolute [(base.getD w.directory).toText, text]).ensureSuffix := by
  rw [resolve, relative]

theorem resolve_of_plain {reference text : Text} (plain : Reference.of reference = .plain text) (w : Workspace)
    (base : Option Path) : w.resolve reference base = (w.absolute [text]).ensureSuffix := by
  rw [resolve, plain]

/-! ### What is resolved -/

theorem resolve_isCanonical {w : Workspace} {reference : Text} {base : Option Path} {path : Path}
    (resolved : w.resolve reference base = .ok path) : path.IsCanonical := by
  obtain ⟨texts, suffixed⟩ := exists_absolute_of_resolve resolved
  exact Path.isCanonical_of (resolve_isPlain resolved) (resolve_isSpelled resolved)
    (Path.suffix_of_ensureSuffix suffixed)

/-- A text that starts with a slash is a path of its own. -/
theorem reference_of_slash {text : Text} (slash : text.head? = some 0x2F) : Reference.of text = .plain text := by
  cases text with
  | nil => cases slash
  | cons c rest =>
    obtain rfl : c = 0x2F := Option.some.inj slash
    rfl

theorem resolve_toText {path : Path} (canonical : path.IsCanonical) (w : Workspace) (base : Option Path) :
    w.resolve path.toText base = .ok path := by
  have plain : Reference.of path.toText = .plain path.toText :=
    reference_of_slash (Path.head?_toText canonical.absolute)
  have itself : w.absolute [path.toText] = path := absolute_toText canonical.isPlain canonical.isSpelled w
  rw [resolve_of_plain plain, itself, Path.ensureSuffix_of_suffixed canonical.suffixed]

/-! ### What is not resolved -/

/-- A path that has to be given a suffix for a reference. The fallback of an aliased reference is one only if there is
nothing at the primary path. -/
inductive Candidate (w : Workspace) (base : Option Path) : Reference → Path → Prop
  | primary (rest : Text) : Candidate w base (.aliased rest) (w.absolute [w.roots.primary, rest])
  | fallback (rest : Text) {primary : Path} (suffixed : (w.absolute [w.roots.primary, rest]).ensureSuffix = .ok primary)
      (absent : w.exists? primary = false) : Candidate w base (.aliased rest) (w.absolute [w.roots.fallback, rest])
  | relative (text : Text) :
      Candidate w base (.relative text) (w.absolute [(base.getD w.directory).toText, text])
  | plain (text : Text) : Candidate w base (.plain text) (w.absolute [text])

/-- An aliased reference fails at a primary path that is a root; if that is none and nothing is there, at a fallback that
is one. -/
theorem resolve_aliased_eq_error_iff {w : Workspace} {reference rest : Text} {base : Option Path} {e : Error}
    (aliased : Reference.of reference = .aliased rest) :
    w.resolve reference base = .error e ↔
      ∃ candidate, w.Candidate base (.aliased rest) candidate ∧ candidate.parts = [] ∧ e = .emptyName candidate := by
  rw [resolve_of_aliased aliased]
  cases suffixed : (w.absolute [w.roots.primary, rest]).ensureSuffix with
  | error fault =>
    obtain ⟨root, rfl⟩ := ensureSuffix_absolute_eq_error_iff.mp suffixed
    constructor
    · intro failed
      exact ⟨_, .primary rest, root, (Except.error.inj failed).symm⟩
    · rintro ⟨candidate, tried, -, rfl⟩
      cases tried with
      | primary => rfl
      | fallback _ other =>
        rw [suffixed] at other
        cases other
  | ok primary =>
    have notRoot : (w.absolute [w.roots.primary, rest]).parts ≠ [] := by
      intro root
      rw [ensureSuffix_absolute_eq_error_iff.mpr ⟨root, rfl⟩] at suffixed
      cases suffixed
    change (if w.exists? primary = true then Except.ok primary else _) = _ ↔ _
    by_cases present : w.exists? primary = true
    · rw [if_pos present]
      constructor
      · intro failed
        cases failed
      · rintro ⟨candidate, tried, root, -⟩
        cases tried with
        | primary => exact absurd root notRoot
        | fallback _ other absent =>
          rw [suffixed] at other
          cases other
          rw [present] at absent
          cases absent
    · rw [if_neg present, ensureSuffix_absolute_eq_error_iff]
      constructor
      · intro failed
        exact ⟨_, .fallback rest suffixed (Bool.eq_false_iff.mpr present), failed⟩
      · rintro ⟨candidate, tried, root, same⟩
        cases tried with
        | primary => exact absurd root notRoot
        | fallback => exact ⟨root, same⟩

/-- Resolution fails at a candidate that is a root, and only there. -/
theorem resolve_eq_error_iff {w : Workspace} {reference : Text} {base : Option Path} {e : Error} :
    w.resolve reference base = .error e ↔
      ∃ candidate, w.Candidate base (.of reference) candidate ∧ candidate.parts = [] ∧ e = .emptyName candidate := by
  cases kind : Reference.of reference with
  | aliased rest => exact resolve_aliased_eq_error_iff kind
  | relative text =>
    rw [resolve_of_relative kind, ensureSuffix_absolute_eq_error_iff]
    constructor
    · intro failed
      exact ⟨_, .relative text, failed⟩
    · rintro ⟨candidate, ⟨⟩, failed⟩
      exact failed
  | plain text =>
    rw [resolve_of_plain kind, ensureSuffix_absolute_eq_error_iff]
    constructor
    · intro failed
      exact ⟨_, .plain text, failed⟩
    · rintro ⟨candidate, ⟨⟩, failed⟩
      exact failed

/-- A reference is not resolved just if a path that has to be given a suffix is a root, and the path that it is resolved to
otherwise is canonical: read as a reference, its text is resolved to it again, in whatever workspace and from whatever
directory. In the same way, a path that was given a suffix is given no other one. -/
theorem resolve_canonical (w : Workspace) (reference : Text) (base : Option Path) :
    (∀ e, w.resolve reference base = .error e ↔
      ∃ candidate, w.Candidate base (.of reference) candidate ∧ candidate.parts = [] ∧ e = .emptyName candidate) ∧
    (∀ path, w.resolve reference base = .ok path →
      path.IsCanonical ∧ ∀ (w' : Workspace) (base' : Option Path), w'.resolve path.toText base' = .ok path) ∧
    (∀ p q : Path, p.ensureSuffix = .ok q → q.ensureSuffix = .ok q) := by
  refine ⟨fun e => resolve_eq_error_iff, fun path resolved => ?_, fun p q suffixed => ?_⟩
  · have canonical := resolve_isCanonical resolved
    exact ⟨canonical, fun w' base' => resolve_toText canonical w' base'⟩
  · exact Path.ensureSuffix_of_suffixed (Path.suffix_of_ensureSuffix suffixed)

/-- A workspace without files. -/
def bareWorkspace : Workspace := { files := .empty, directory := .ofText "/ws", rooted := rfl, roots := {} }

/-- From a directory with two slashes in front up past the root: both slashes are kept, and the dot at the end of the name
is no suffix. What is left of `@//` is absolute, so already the primary path is a root. -/
theorem resolve_canonical_bareWorkspace :
    let path : Path := .ofText "//a..ts"
    (bareWorkspace.resolve "../.././a." (some (.ofText "//b")) = .ok path ∧ path.IsCanonical ∧
      bareWorkspace.resolve path.toText none = .ok path) ∧
    (Path.ensureSuffix (.ofText "..") = .ok (.ofText "...ts") ∧
      Path.ensureSuffix (.ofText "...ts") = .ok (.ofText "...ts")) ∧
    bareWorkspace.resolve "@//" none = .error (.emptyName (.ofText "/")) := by
  have resolved : bareWorkspace.resolve "../.././a." (some (.ofText "//b")) = .ok (.ofText "//a..ts") := rfl
  have suffixed : Path.ensureSuffix (.ofText "..") = .ok (.ofText "...ts") := rfl
  have laws := resolve_canonical bareWorkspace "../.././a." (some (.ofText "//b"))
  have root := (resolve_canonical bareWorkspace "@//" none).1 (.emptyName (.ofText "/"))
  obtain ⟨canonical, again⟩ := laws.2.1 _ resolved
  exact ⟨⟨resolved, canonical, again bareWorkspace none⟩, ⟨suffixed, laws.2.2 _ _ suffixed⟩,
    root.mpr ⟨_, .primary "/", rfl, rfl⟩⟩

end Workspace
end SchemaTypes
