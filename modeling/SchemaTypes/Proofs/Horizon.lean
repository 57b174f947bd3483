import Mathlib.Data.Finset.Prod
import Mathlib.Data.Set.Card
import SchemaTypes.Proofs.Paths
import SchemaTypes.Proofs.SyntaxParts
import SchemaTypes.Proofs.View

/-!
The files that a pass can come to. There are finitely many, whatever the imports between them, and the bounds of the two
searches count them: the chain of imports against the files, the nesting of compositions against the names they bind.
-/

namespace SchemaTypes

open Syntax

theorem Workspace.parse_path (w : Workspace) (path : Path) (bytes : ByteArray) : (w.parse path bytes).path = path := rfl

theorem Workspace.parse_bytes (w : Workspace) (path : Path) (bytes : ByteArray) : (w.parse path bytes).bytes = bytes := rfl

/-! ### Names as parts of a text -/

theorem extract_min (bytes : ByteArray) (start stop : Nat) :
    bytes.extract (min start bytes.size) (min stop bytes.size) = bytes.extract start stop := by
  apply ByteArray.ext
  rw [ByteArray.data_extract, ByteArray.data_extract]
  apply Array.ext
  · simp only [Array.size_extract, ByteArray.size_data]
    omega
  · intro k first second
    simp only [Array.size_extract, ByteArray.size_data] at first second
    simp only [Array.getElem_extract]
    congr 1
    omega

/-- The parts of a text, by where they start and stop. -/
def partsOf (bytes : ByteArray) : Finset (List UInt8) :=
  (Finset.range (bytes.size + 1) ×ˢ Finset.range (bytes.size + 1)).image fun (start, stop) =>
    (bytes.extract start stop).toList

theorem mem_partsOf (bytes : ByteArray) (start stop : Nat) : (bytes.extract start stop).toList ∈ partsOf bytes := by
  rw [← extract_min]
  refine Finset.mem_image.mpr ⟨(min start bytes.size, min stop bytes.size), ?_, rfl⟩
  simp only [Finset.mem_product, Finset.mem_range]
  omega

theorem card_partsOf_le (bytes : ByteArray) : (partsOf bytes).card ≤ nameBound bytes := by
  calc
    (partsOf bytes).card
        ≤ (Finset.range (bytes.size + 1) ×ˢ Finset.range (bytes.size + 1)).card := Finset.card_image_le
    _ = nameBound bytes := by rw [Finset.card_product, Finset.card_range, nameBound]

/-- The names that a file binds, with its path. -/
def SourceFile.boundKeys (file : SourceFile) : List BindingKey :=
  match file.declarators with
  | .ok named => named.map fun (name, _) => (file.path, name)
  | .error _ => []

theorem SourceFile.mem_boundKeys {file : SourceFile} {name : Text} {declarator : Declarator}
    (bound : file.binding? name = .ok (some declarator)) : (file.path, name) ∈ file.boundKeys := by
  obtain ⟨named, listed, found⟩ := bind_eq_ok_iff.mp bound
  obtain ⟨l₁, l₂, split, -⟩ := List.lookup_eq_some_iff.mp (Except.ok.inj found)
  have member : (name, declarator) ∈ named.reverse := by simp [split]
  simp only [boundKeys, listed]
  exact List.mem_map.mpr ⟨(name, declarator), List.mem_reverse.mp member, rfl⟩

theorem SourceFile.exists_binding {file : SourceFile} {named : List (Text × Declarator)} {declared : Text × Declarator}
    (listed : file.declarators = .ok named) (member : declared ∈ named) :
    ∃ last, file.binding? declared.1 = .ok (some last) := by
  have looked : file.binding? declared.1 = .ok (named.reverse.lookup declared.1) := by
    simp [binding?, listed, bind, Except.bind, pure, Except.pure]
  rw [looked]
  cases found : named.reverse.lookup declared.1 with
  | some last => exact ⟨last, rfl⟩
  | none =>
    have absent := List.lookup_eq_none_iff.mp found declared (List.mem_reverse.mpr member)
    simp at absent

/-- The name of a declarator is a part of the text of its file. -/
theorem SourceFile.exists_part {file : SourceFile} {named : List (Text × Declarator)} {declared : Text × Declarator}
    (listed : file.declarators = .ok named) (member : declared ∈ named) :
    ∃ part ∈ partsOf file.bytes, Utf8.decode part = .ok declared.1 := by
  rw [file.declarators_eq] at listed
  obtain ⟨d, inside, taken⟩ := mem_of_filterMapM listed declared member
  split at taken
  next node found =>
    obtain ⟨name, text, taken⟩ := bind_eq_ok_iff.mp taken
    cases taken
    have part := (Node.partOf_of_child?_eq_some found).trans (Node.partOf_of_mem_declaratorsIn inside)
    obtain ⟨⟨start, stop, spelled⟩, -⟩ := file.spells.of_partOf part
    refine ⟨_, mem_partsOf file.bytes start stop, ?_⟩
    rw [← spelled]
    exact Node.decode_of_text text
  · cases taken

/-- A file binds no more names than its text has parts. -/
theorem SourceFile.card_boundKeys_le (file : SourceFile) : file.boundKeys.toFinset.card ≤ nameBound file.bytes := by
  have covered : file.boundKeys.toFinset ⊆
      (partsOf file.bytes).image fun part => (file.path, (Utf8.decode part).toOption.getD []) := by
    intro key member
    rw [List.mem_toFinset, boundKeys] at member
    split at member
    next named listed =>
      obtain ⟨declared, inside, rfl⟩ := List.mem_map.mp member
      obtain ⟨part, within, decoded⟩ := exists_part listed inside
      refine Finset.mem_image.mpr ⟨part, within, ?_⟩
      rw [decoded]
      rfl
    · cases member
  calc
    file.boundKeys.toFinset.card
        ≤ ((partsOf file.bytes).image fun part => (file.path, (Utf8.decode part).toOption.getD [])).card :=
      Finset.card_le_card covered
    _ ≤ (partsOf file.bytes).card := Finset.card_image_le
    _ ≤ nameBound file.bytes := card_partsOf_le file.bytes

/-- A file on disk, under each of the two absolute paths that lead to it. -/
def Workspace.sources (w : Workspace) (location : Location) : Entry → List SourceFile
  | .file bytes => [w.parse ⟨.slash, location⟩ bytes, w.parse ⟨.doubleSlash, location⟩ bytes]
  | .directory => []

namespace Compilation

/-- The files on disk under their absolute paths. -/
def onDisk (w : Workspace) : List SourceFile :=
  w.files.entries.entries.flatMap fun (location, entry) => w.sources location entry

/-- The files that a pass can come to from one of them: that file, those it has read, and those on disk. -/
def horizon (w : Workspace) (c : Compilation) (file : SourceFile) : List SourceFile :=
  file :: c.files.values ++ onDisk w

theorem length_onDisk (w : Workspace) : (onDisk w).length = 2 * w.fileCount := by
  unfold onDisk Workspace.fileCount OrderedMap.values
  induction w.files.entries.entries with
  | nil => rfl
  | cons head rest ih =>
    obtain ⟨location, entry⟩ := head
    rw [List.flatMap_cons, List.length_append, ih, List.map_cons]
    cases entry with
    | file bytes =>
      rw [List.filter_cons_of_pos (show Entry.isFile (.file bytes) from rfl), List.length_cons]
      simp only [Workspace.sources, List.length_cons, List.length_nil]
      omega
    | directory =>
      rw [List.filter_cons_of_neg (show ¬ Entry.isFile .directory from Bool.false_ne_true)]
      simp only [Workspace.sources, List.length_nil, Nat.zero_add]

theorem length_horizon (w : Workspace) (c : Compilation) (file : SourceFile) :
    (horizon w c file).length + 1 = chainBound w c := by
  have disk := length_onDisk w
  have read : c.files.values.length = c.files.size := List.length_map _
  simp only [horizon, chainBound, List.length_append, List.length_cons]
  omega

private theorem foldl_add_eq {α : Type} (size : α → Nat) (l : List α) (start : Nat) :
    l.foldl (fun n a => n + size a) start = start + (l.map size).sum := by
  induction l generalizing start with
  | nil => rfl
  | cons a l ih =>
    rw [List.foldl_cons, ih, List.map_cons, List.sum_cons]
    omega

private theorem card_flatMap_boundKeys_le (files : List SourceFile) :
    (files.flatMap SourceFile.boundKeys).toFinset.card ≤ (files.map fun file => nameBound file.bytes).sum := by
  induction files with
  | nil => exact Nat.le_refl 0
  | cons file rest ih =>
    have here := file.card_boundKeys_le
    have both := Finset.card_union_le file.boundKeys.toFinset (rest.flatMap SourceFile.boundKeys).toFinset
    rw [List.flatMap_cons, List.toFinset_append, List.map_cons, List.sum_cons]
    omega

theorem sum_nameBound_onDisk (w : Workspace) :
    ((onDisk w).map fun file => nameBound file.bytes).sum = 2 * w.nameBound := by
  unfold onDisk Workspace.nameBound OrderedMap.values
  rw [foldl_add_eq]
  induction w.files.entries.entries with
  | nil => rfl
  | cons head rest ih =>
    obtain ⟨location, entry⟩ := head
    cases entry <;> simp [Workspace.sources, Entry.nameBound, Workspace.parse_bytes] at ih ⊢ <;> omega

/-- The nesting bound leaves room for one more name than the files of the horizon bind. -/
theorem card_keys_lt_nestingBound (w : Workspace) (c : Compilation) (file : SourceFile) :
    ((horizon w c file).flatMap SourceFile.boundKeys).toFinset.card < nestingBound w c file := by
  have counted := card_flatMap_boundKeys_le (horizon w c file)
  have disk := sum_nameBound_onDisk w
  have read := foldl_add_eq (fun cached : SourceFile => nameBound cached.bytes) c.files.values 0
  simp only [horizon, List.map_append, List.map_cons, List.sum_append, List.sum_cons] at counted ⊢
  simp only [nestingBound, read]
  omega

/-- What a view shows at a resolved path is a file of the horizon. -/
theorem mem_horizon_of_view {w : Workspace} {c : Compilation} {file next : SourceFile} {path : Path}
    (plain : path.IsPlain) (shown : view w c path = .ok next) : next ∈ horizon w c file := by
  unfold view at shown
  split at shown
  next cached found =>
    cases shown
    exact List.mem_append_left _ (List.mem_cons_of_mem file (OrderedMap.mem_values_of_get? found))
  · cases success : w.read path with
    | error e => simp [success, Except.map] at shown
    | ok bytes =>
      simp only [success, Except.map, Except.ok.injEq] at shown
      subst shown
      have found := Workspace.lookup_of_read_plain plain success
      unfold FileSystem.lookup at found
      split at found
      · cases found
      · refine List.mem_append_right _ (List.mem_flatMap.mpr ⟨_, OrderedMap.mem_entries_of_get? found, ?_⟩)
        obtain ⟨root, parts⟩ := path
        have absolute := plain.absolute
        cases root with
        | relative => cases absolute
        | slash => simp [Workspace.sources]
        | doubleSlash => simp [Workspace.sources]

theorem Reaches.mem_horizon {w : Workspace} {c : Compilation} {file next : SourceFile}
    (reached : Reaches w (view w c) file next) : next ∈ horizon w c file := by
  cases reached with
  | refl => exact List.mem_append_left _ List.mem_cons_self
  | tail _ last =>
    obtain ⟨reference, path, resolved, shown⟩ := last.resolved
    exact mem_horizon_of_view (Workspace.resolve_isPlain resolved) shown

/-- The names that are bound in the files that a file reaches along imports, with the paths of those files. -/
def reachableKeys (w : Workspace) (c : Compilation) (file : SourceFile) : Set BindingKey :=
  { key | ∃ owner declarator, Reaches w (view w c) file owner ∧ owner.path = key.1 ∧
    owner.binding? key.2 = .ok (some declarator) }

theorem reachableKeys_subset (w : Workspace) (c : Compilation) (file : SourceFile) :
    reachableKeys w c file ⊆ { key | key ∈ (horizon w c file).flatMap SourceFile.boundKeys } := by
  rintro ⟨path, name⟩ ⟨owner, declarator, reached, rfl, bound⟩
  exact List.mem_flatMap.mpr ⟨owner, reached.mem_horizon, SourceFile.mem_boundKeys bound⟩

theorem reachableKeys_finite (w : Workspace) (c : Compilation) (file : SourceFile) :
    (reachableKeys w c file).Finite :=
  (List.finite_toSet _).subset (reachableKeys_subset w c file)

theorem ncard_reachableKeys_lt (w : Workspace) (c : Compilation) (file : SourceFile) :
    (reachableKeys w c file).ncard < nestingBound w c file := by
  classical
  have listed : { key | key ∈ (horizon w c file).flatMap SourceFile.boundKeys } =
      ((horizon w c file).flatMap SourceFile.boundKeys).toFinset := by
    ext key
    simp
  calc
    (reachableKeys w c file).ncard
        ≤ { key | key ∈ (horizon w c file).flatMap SourceFile.boundKeys }.ncard :=
      Set.ncard_le_ncard (reachableKeys_subset w c file) (List.finite_toSet _)
    _ = ((horizon w c file).flatMap SourceFile.boundKeys).toFinset.card := by rw [listed, Set.ncard_coe_finset]
    _ < nestingBound w c file := card_keys_lt_nestingBound w c file

end Compilation
end SchemaTypes
