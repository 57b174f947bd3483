import SchemaTypes.Proofs.Outcomes
import SchemaTypes.Proofs.Rendering
import SchemaTypes.Proofs.Transparency

/-!
A generation taken apart into the entries of its request. The blocks are made one after the other on one pass, and each
is the block that its entry has on a pass of its own. What the entries share is the table of aliases alone.
-/

namespace SchemaTypes.Compilation

variable {α β : Type}

/-- Steps that do not depend on what a pass has done before can as well be run each on a pass of its own. -/
theorem run_mapM_eq_alone {w : Workspace} {f : α → Compile β} (each : ∀ a, Transparent w (f a) fun _ => True)
    (l : List α) {c : Compilation} (sound : Sound w c) :
    (run (l.mapM f) w c).1 = l.mapM fun a => (run (f a) w {}).1 := by
  induction l generalizing c with
  | nil => rfl
  | cons a l ih =>
    obtain ⟨same, kept, -⟩ := each a c sound
    rw [List.mapM_cons, List.mapM_cons, ← same]
    cases result : (run (f a) w c).1 with
    | error e =>
      rw [run_bind_error _ result]
      rfl
    | ok b =>
      rw [run_bind_ok _ result, ← ih kept, run_bind]
      cases run (l.mapM f) w (run (f a) w c).2 with
      | mk results last => cases results <;> rfl

/-- The block of one entry, resolved on a pass of its own and rendered with a table of aliases. -/
def entryBlock (w : Workspace) (entry : SourceFile) (aliases : AliasTable) (wanted : Text × Text) :
    Except Error Text := do
  let declaration ← (run (resolveDeclaration entry wanted.1) w {}).1
  return Text.join "\n" (← declaration.blockLines wanted.2 aliases)

theorem entryBlock_congr (w : Workspace) (entry : SourceFile) {aliases aliases' : AliasTable}
    (same : ∀ base, aliases'.get? base = aliases.get? base) (wanted : Text × Text) :
    entryBlock w entry aliases' wanted = entryBlock w entry aliases wanted := by
  simp only [entryBlock, Declaration.blockLines_congr same]

theorem run_renderEntry (w : Workspace) (entry : SourceFile) (aliases : AliasTable) (wanted : Text × Text) :
    (run (renderEntry entry aliases wanted) w {}).1 =
      (run (resolveDeclaration entry wanted.1) w {}).1 >>= fun declaration =>
        declaration.blockLines wanted.2 aliases := by
  obtain ⟨schema, type⟩ := wanted
  simp only [renderEntry, run_bind]
  cases run (resolveDeclaration entry schema) w {} with
  | mk result after => cases result <;> rfl

theorem entryBlock_eq_map (w : Workspace) (entry : SourceFile) (aliases : AliasTable) (wanted : Text × Text) :
    entryBlock w entry aliases wanted =
      (run (renderEntry entry aliases wanted) w {}).1.map (Text.join "\n") := by
  rw [run_renderEntry, entryBlock]
  cases (run (resolveDeclaration entry wanted.1) w {}).1 with
  | error e => rfl
  | ok declaration =>
    simp only [bind, Except.bind]
    cases declaration.blockLines wanted.2 aliases <;> rfl

theorem renderEntry_ne_nil {w : Workspace} {entry : SourceFile} {aliases : AliasTable} {wanted : Text × Text}
    {lines : List Text} (success : (run (renderEntry entry aliases wanted) w {}).1 = .ok lines) : lines ≠ [] := by
  rw [run_renderEntry] at success
  obtain ⟨declaration, -, rendered⟩ := bind_eq_ok_iff.mp success
  exact Declaration.blockLines_ne_nil rendered

/-- The outcome of a generation is that of making every block on a pass of its own, in order. -/
theorem generate_eq_mapM_entryBlock {w : Workspace} {reference : Text} {entry : SourceFile} (request : Request)
    (loads : (run (loadReference reference none) w {}).1 = .ok entry) :
    (run (generate reference request) w {}).1 =
      (request.entries.mapM (entryBlock w entry (.ofRequest request))).map (Text.join "\n") := by
  have law := transparent_law w
  obtain ⟨-, sound, holds⟩ := law.loadReference reference none {} (Sound.start w)
  have each := law.renderEntry (holds entry loads) (.ofRequest request)
  have blocks := run_mapM_eq_alone each request.entries sound
  have texts : request.entries.mapM (entryBlock w entry (.ofRequest request)) =
      (request.entries.mapM fun wanted =>
        (run (renderEntry entry (.ofRequest request) wanted) w {}).1).map (List.map (Text.join "\n")) := by
    rw [← mapM_map_result, funext (entryBlock_eq_map w entry (.ofRequest request))]
  rw [generate, run_bind_ok _ loads, run_bind, texts, ← blocks]
  cases outcome : run (request.entries.mapM (renderEntry entry (.ofRequest request))) w
      (run (loadReference reference none) w {}).2 with
  | mk result last =>
    cases result with
    | error e => rfl
    | ok lines =>
      rw [outcome] at blocks
      have nonempty : ∀ block ∈ lines, block ≠ [] := fun block member => by
        obtain ⟨wanted, -, success⟩ := (mapM_ok_of_mem blocks.symm).2 block member
        exact renderEntry_ne_nil success
      exact congrArg Except.ok (Text.join_flatten "\n" nonempty)

/-- The output for a request whose blocks are known, also for a reordering that leaves the aliases the same mapping. -/
theorem generate_eq_ok_of_perm {w : Workspace} {reference : Text} {entry : SourceFile} {request request' : Request}
    (loads : (run (loadReference reference none) w {}).1 = .ok entry) {block : Text × Text → Text}
    (made : ∀ wanted ∈ request.entries, entryBlock w entry (.ofRequest request) wanted = .ok (block wanted))
    (reordered : request'.entries.Perm request.entries)
    (same : ∀ base, (AliasTable.ofRequest request').get? base = (AliasTable.ofRequest request).get? base) :
    (run (generate reference request') w {}).1 = .ok (Text.join "\n" (request'.entries.map block)) := by
  have each : ∀ wanted ∈ request'.entries, entryBlock w entry (.ofRequest request') wanted = .ok (block wanted) := by
    intro wanted member
    rw [entryBlock_congr w entry same]
    exact made wanted (reordered.mem_iff.mp member)
  rw [generate_eq_mapM_entryBlock request' loads, mapM_eq_ok_map each]
  rfl

/-- A generation succeeds exactly if every entry of the request has a block of its own, with the aliases of the whole
request; its output is then those blocks in order. Otherwise it ends in the error of the first entry that has none. A
request with the same entries and aliases gives the same blocks in its own order. -/
theorem generate_decomposes {w : Workspace} {reference : Text} {entry : SourceFile} (request : Request)
    (loads : (run (loadReference reference none) w {}).1 = .ok entry) :
    ((∃ output, (run (generate reference request) w {}).1 = .ok output) ↔
      ∀ wanted ∈ request.entries, ∃ block, entryBlock w entry (.ofRequest request) wanted = .ok block) ∧
    (∀ block : Text × Text → Text,
      (∀ wanted ∈ request.entries, entryBlock w entry (.ofRequest request) wanted = .ok (block wanted)) →
      (run (generate reference request) w {}).1 = .ok (Text.join "\n" (request.entries.map block)) ∧
      ∀ request' : Request, request'.entries.Perm request.entries →
        (∀ base, (AliasTable.ofRequest request').get? base = (AliasTable.ofRequest request).get? base) →
        (run (generate reference request') w {}).1 = .ok (Text.join "\n" (request'.entries.map block))) ∧
    (∀ e, (run (generate reference request) w {}).1 = .error e ↔
      ∃ before wanted after, request.entries = before ++ wanted :: after ∧
        (∀ earlier ∈ before, ∃ block, entryBlock w entry (.ofRequest request) earlier = .ok block) ∧
        entryBlock w entry (.ofRequest request) wanted = .error e) := by
  have outcome := generate_eq_mapM_entryBlock request loads
  refine ⟨⟨?_, ?_⟩, ?_, ?_⟩
  · rintro ⟨output, success⟩
    rw [outcome] at success
    cases made : request.entries.mapM (entryBlock w entry (.ofRequest request)) with
    | error e => simp [made, Except.map] at success
    | ok blocks => exact (mapM_ok_of_mem made).1
  · intro each
    choose! block made using each
    exact ⟨_, generate_eq_ok_of_perm loads made (List.Perm.refl _) fun _ => rfl⟩
  · intro block made
    refine ⟨generate_eq_ok_of_perm loads made (List.Perm.refl _) fun _ => rfl, ?_⟩
    intro request' reordered same
    exact generate_eq_ok_of_perm loads made reordered same
  · intro e
    rw [outcome, ← mapM_eq_error_iff]
    cases request.entries.mapM (entryBlock w entry (.ofRequest request)) with
    | error e' => simp [Except.map]
    | ok blocks => simp [Except.map]

/-- Two declarations, one with a field that refers to the other by its base name. -/
def referringSource : Workspace :=
  .ofSources [("a.ts", "const A=Type.Object(\x7b\x7d)\nconst B=Type.Object(\x7bx:ARef\x7d)")]

set_option maxRecDepth 100000 in
theorem generate_decomposes_referringSource :
    ∃ block : Text × Text → Text,
      (run (generate "a.ts" (.ofList [("A", "T"), ("B", "U")])) referringSource {}).1 =
        .ok (Text.join "\n" [block ("A", "T"), block ("B", "U")]) ∧
      Text.join "\n" [block ("A", "T"), block ("B", "U")] =
        "export type T = \x7b\n\x7d\nexport type U = \x7b\n  x: T\n\x7d" ∧
      (run (generate "a.ts" (.ofList [("B", "U"), ("A", "T")])) referringSource {}).1 =
        .ok (Text.join "\n" [block ("B", "U"), block ("A", "T")]) := by
  have opens : (run (loadReference "a.ts" none) referringSource {}).1.isOk = true := by decide +kernel
  have written : (run (generate "a.ts" (.ofList [("A", "T"), ("B", "U")])) referringSource {}).1.toOption =
      some (Text.ofString "export type T = \x7b\n\x7d\nexport type U = \x7b\n  x: T\n\x7d") := by
    decide +kernel
  obtain ⟨entry, loads⟩ := exists_eq_ok_of_isOk opens
  have decomposed := generate_decomposes (.ofList [("A", "T"), ("B", "U")]) loads
  choose! block made using decomposed.1.mp ⟨_, eq_ok_of_toOption written⟩
  obtain ⟨output, reordered⟩ := decomposed.2.1 block made
  refine ⟨block, output, ?_, reordered (.ofList [("B", "U"), ("A", "T")]) (List.Perm.swap _ _ _) ?_⟩
  · rw [output] at written
    exact Option.some.inj written
  · exact OrderedMap.get?_congr_of_perm (by decide +kernel)

end SchemaTypes.Compilation
