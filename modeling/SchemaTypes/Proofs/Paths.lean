import SchemaTypes.Proofs.FileSystem
import SchemaTypes.Proofs.Outcomes

/-!
Resolved references. The path that a reference resolves to is absolute and has no `..`, so it is read at the location
that its components spell.
-/

namespace SchemaTypes
namespace Path

/-- The component that leads one directory up. -/
abbrev upward : Text := [0x2E, 0x2E]

/-- An absolute path that never goes up. -/
structure IsPlain (p : Path) : Prop where
  absolute : p.isAbsolute = true
  descending : upward ∉ p.parts

theorem upward_not_mem_foldl {parts done : List Text} (clean : upward ∉ done) :
    upward ∉ parts.foldl normalStep done := by
  induction parts generalizing done with
  | nil => exact clean
  | cons part rest ih =>
    apply ih
    unfold normalStep
    split
    · exact fun member => clean (List.mem_of_mem_tail member)
    next other => exact fun member => (List.mem_cons.mp member).elim (fun same => other same.symm) clean

theorem upward_not_mem_normalParts (parts : List Text) : upward ∉ normalParts parts := by
  rw [normalParts, List.mem_reverse]
  exact upward_not_mem_foldl List.not_mem_nil

/-- A text with a slash in front has a root. -/
theorem rootOf_ne_relative {t : Text} (slash : t.head? = some 0x2F) : Root.of t ≠ .relative := by
  cases t with
  | nil => cases slash
  | cons c rest =>
    have first : c = 0x2F := Option.some.inj slash
    subst first
    unfold Root.of
    simp only [List.takeWhile_cons, decide_true, if_true, List.length_cons]
    split <;> simp_all

theorem head?_toText {p : Path} (absolute : p.isAbsolute = true) : p.toText.head? = some 0x2F := by
  obtain ⟨root, parts⟩ := p
  cases root with
  | relative => cases absolute
  | slash => rfl
  | doubleSlash => rfl

theorem head?_joinText {base next : Text} (slash : base.head? = some 0x2F) :
    (joinText base next).head? = some 0x2F := by
  unfold joinText
  split
  · assumption
  · cases base with
    | nil => cases slash
    | cons c rest => split <;> exact slash

theorem head?_foldl_joinText {texts : List Text} {base : Text} (slash : base.head? = some 0x2F) :
    (texts.foldl joinText base).head? = some 0x2F := by
  induction texts generalizing base with
  | nil => exact slash
  | cons t rest ih => exact ih (head?_joinText slash)

theorem normalized_isPlain {t : Text} (slash : t.head? = some 0x2F) : (normalized t).IsPlain where
  absolute := decide_eq_true (rootOf_ne_relative slash)
  descending := upward_not_mem_normalParts (components t)

/-- A name with a suffix put on is longer than two dots. -/
theorem ensureSuffix_isPlain {p q : Path} (plain : p.IsPlain) (suffixed : p.ensureSuffix = .ok q) : q.IsPlain := by
  unfold ensureSuffix at suffixed
  split at suffixed
  · cases suffixed
    exact plain
  · split at suffixed
    · cases suffixed
    next named =>
      cases suffixed
      refine ⟨plain.absolute, fun member => ?_⟩
      rcases List.mem_append.mp member with inside | last
      · exact plain.descending (List.dropLast_subset _ inside)
      · have same : upward = p.name ++ Text.ofString ".ts" := List.mem_singleton.mp last
        have longer := congrArg List.length same
        have three : (Text.ofString ".ts").length = 3 := rfl
        rw [List.length_append, three] at longer
        simp at longer

end Path

namespace Workspace

theorem absolute_isPlain (w : Workspace) (texts : List Text) : (w.absolute texts).IsPlain :=
  Path.normalized_isPlain (Path.head?_foldl_joinText (Path.head?_toText w.rooted))

/-- Whatever the reference, some path is made absolute and given a suffix. -/
theorem exists_absolute_of_resolve {w : Workspace} {reference : Text} {base : Option Path} {path : Path}
    (resolved : w.resolve reference base = .ok path) : ∃ texts, (w.absolute texts).ensureSuffix = .ok path := by
  unfold resolve at resolved
  split at resolved
  next rest _ =>
    obtain ⟨primary, suffixed, resolved⟩ := bind_eq_ok_iff.mp resolved
    split at resolved
    · cases resolved
      exact ⟨_, suffixed⟩
    · exact ⟨_, resolved⟩
  · exact ⟨_, resolved⟩
  · exact ⟨_, resolved⟩

theorem resolve_isPlain {w : Workspace} {reference : Text} {base : Option Path} {path : Path}
    (resolved : w.resolve reference base = .ok path) : path.IsPlain := by
  obtain ⟨texts, suffixed⟩ := exists_absolute_of_resolve resolved
  exact Path.ensureSuffix_isPlain (w.absolute_isPlain texts) suffixed

/-- A plain path is read at the location its components spell. -/
theorem lookup_of_read_plain {w : Workspace} {path : Path} {bytes : ByteArray} (plain : path.IsPlain)
    (success : w.read path = .ok bytes) : w.files.lookup path.parts = some (.file bytes) := by
  obtain ⟨location, located, found⟩ := FileSystem.lookup_of_read_eq_ok success
  rw [FileSystem.locate, if_pos plain.absolute] at located
  have spelled : location = [] ++ path.parts := FileSystem.walk_eq_append plain.descending located
  rw [List.nil_append] at spelled
  exact spelled ▸ found

end Workspace
end SchemaTypes
