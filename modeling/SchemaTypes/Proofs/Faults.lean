import SchemaTypes.Compilation.Basic
import SchemaTypes.Proofs.FileSystem
import SchemaTypes.Shape

/-!
Where the errors of a pass come from. Looking at the syntax of a file raises nothing but decoding errors; all others
come from resolving a reference or from reading a file. None of these is a search given up.
-/

namespace SchemaTypes

open Syntax

/-- Whether an error says that some text could not be decoded. -/
def Error.isDecoding : Error → Bool
  | undecodable _ | escape _ => true
  | _ => false

/-- The errors that a workspace and the texts of its files can cause. -/
inductive Workspace.Raises (w : Workspace) (e : Error) : Prop
  | resolving (reference : Text) (base : Option Path) (failed : w.resolve reference base = .error e)
  | reading (path : Path) (failed : w.read path = .error e)
  | decoding (kind : e.isDecoding = true)

/-- A reading of syntax that can fail by a decoding error only. -/
def DecodesOnly {α : Type} (x : Except Error α) : Prop := ∀ e, x = .error e → e.isDecoding = true

namespace DecodesOnly

variable {α β : Type}

theorem ok (a : α) : DecodesOnly (.ok a : Except Error α) := by
  intro e failed
  cases failed

theorem bind {x : Except Error α} {next : α → Except Error β} (first : DecodesOnly x)
    (rest : ∀ a, DecodesOnly (next a)) : DecodesOnly (x >>= next) := by
  cases x with
  | error e => exact fun _ failed => Except.error.inj failed ▸ first e rfl
  | ok a => exact rest a

theorem map {x : Except Error α} (f : α → β) (first : DecodesOnly x) : DecodesOnly (f <$> x) := by
  cases x with
  | error e => exact fun _ failed => Except.error.inj failed ▸ first e rfl
  | ok a => exact ok (f a)

theorem foldlM {f : β → α → Except Error β} (step : ∀ b a, DecodesOnly (f b a)) (b : β) (l : List α) :
    DecodesOnly (l.foldlM f b) := by
  induction l generalizing b with
  | nil => exact ok b
  | cons a l ih => exact bind (step b a) ih

theorem filterMapM {f : α → Except Error (Option β)} (step : ∀ a, DecodesOnly (f a)) (l : List α) :
    DecodesOnly (l.filterMapM f) := by
  induction l with
  | nil => exact ok []
  | cons a l ih =>
    rw [List.filterMapM_cons]
    refine bind (step a) fun found => ?_
    cases found with
    | none => exact ih
    | some b => exact bind ih fun bs => ok (b :: bs)

theorem text (n : Node) : DecodesOnly n.text := by
  intro e failed
  unfold Node.text at failed
  cases decoded : Utf8.decode n.bytes with
  | error fault =>
    rw [decoded] at failed
    cases failed
    rfl
  | ok t =>
    rw [decoded] at failed
    cases failed

theorem stringValue (n : Node) : DecodesOnly n.stringValue := by
  refine bind (text n) fun t e failed => ?_
  unfold StringLiteral.value at failed
  cases decoded : StringLiteral.decode (t.drop 1).dropLast with
  | error fault =>
    rw [decoded] at failed
    cases failed
    rfl
  | ok value =>
    rw [decoded] at failed
    cases failed

theorem shapeOfCall (n callee : Node) : DecodesOnly (Shape.ofCall n callee) := by
  unfold Shape.ofCall
  split
  · refine bind (text callee) fun name => ?_
    split <;> exact ok _
  · split
    · split
      · exact bind (text _) fun _ => bind (text _) fun _ => ok _
      · exact ok _
    · exact ok _

theorem shapeOfNode (n : Node) : DecodesOnly (Shape.ofNode n) := by
  unfold Shape.ofNode
  split
  · refine bind (text n) fun name => ?_
    split <;> exact ok _
  · split
    · split
      · exact shapeOfCall n _
      · exact ok _
    · exact ok _

theorem declarators (file : SourceFile) : DecodesOnly file.declarators := by
  rw [file.declarators_eq]
  refine filterMapM (fun d => ?_) _
  split
  · exact bind (text _) fun _ => ok _
  · exact ok _

theorem binding? (file : SourceFile) (name : Text) : DecodesOnly (file.binding? name) :=
  bind (declarators file) fun _ => ok _

theorem importedName (specifier : Node) : DecodesOnly (SourceFile.importedName specifier) := by
  unfold SourceFile.importedName
  split
  · exact ok _
  · split
    · exact bind (stringValue _) fun _ => ok _
    · exact bind (text _) fun _ => ok _

theorem importStep (table : OrderedMap Text Text) (statement : Node) :
    DecodesOnly (SourceFile.importStep table statement) := by
  unfold SourceFile.importStep
  split
  · exact ok _
  · split
    · refine foldlM (fun table specifier => bind (importedName specifier) fun found => ?_) _ _
      split
      · exact ok _
      · exact bind (stringValue _) fun _ => ok _
    · exact ok _

theorem namedImports (file : SourceFile) : DecodesOnly file.namedImports := foldlM importStep _ _

end DecodesOnly

theorem Path.ensureSuffix_error {p : Path} {e : Error} (failed : p.ensureSuffix = .error e) : e = .emptyName p := by
  unfold Path.ensureSuffix at failed
  split at failed
  · cases failed
  · split at failed <;> cases failed
    rfl

namespace Workspace

theorem resolve_error {w : Workspace} {reference : Text} {base : Option Path} {e : Error}
    (failed : w.resolve reference base = .error e) : ∃ path, e = .emptyName path := by
  unfold resolve at failed
  split at failed
  · cases suffixed : (w.absolute [w.roots.primary, _]).ensureSuffix with
    | error fault =>
      rw [suffixed] at failed
      cases failed
      exact ⟨_, Path.ensureSuffix_error suffixed⟩
    | ok primary =>
      simp only [suffixed, bind, Except.bind] at failed
      split at failed
      · cases failed
      · exact ⟨_, Path.ensureSuffix_error failed⟩
  · exact ⟨_, Path.ensureSuffix_error failed⟩
  · exact ⟨_, Path.ensureSuffix_error failed⟩

theorem read_error {w : Workspace} {path : Path} {e : Error} (failed : w.read path = .error e) :
    FileSystem.refusal? path = some e ∨ ∃ fault, e = .access fault path := by
  unfold read at failed
  rw [FileSystem.read_eq] at failed
  split at failed
  next refused =>
    cases failed
    exact .inl refused
  · right
    split at failed
    next fault _ =>
      cases failed
      exact ⟨fault, rfl⟩
    · split at failed <;> cases failed
      · exact ⟨.notFound, rfl⟩
      · exact ⟨.isDirectory, rfl⟩

/-- What a workspace raises is never a search given up. -/
theorem Raises.ne_unfinished {w : Workspace} {e : Error} (raised : w.Raises e) : e ≠ .unfinished := by
  rintro rfl
  cases raised with
  | resolving reference base failed =>
    obtain ⟨path, same⟩ := resolve_error failed
    cases same
  | reading path failed =>
    rcases read_error failed with refused | ⟨fault, same⟩
    · unfold FileSystem.refusal? at refused
      split at refused
      · cases refused
      · split at refused <;> cases refused
    · cases same
  | decoding kind => cases kind

end Workspace
end SchemaTypes
