import SchemaTypes.Proofs.WatchedSources

/-!
How often watch mode generates again. Every batch with a source in it leads to one generation, and every generation shows
one outcome. The path of the output is not set apart from the others. Where its suffix is that of a source, writing the
output is a change like any other and leads to the next generation.
-/

namespace SchemaTypes

/-- The outcome of a generation: the text that it prints if it succeeds, an error that is reported, or the record of any
other one. -/
def Happening.isOutcome : Happening → Bool
  | printed _ => true
  | logged record => record.level = .error
  | _ => false

namespace Session

/-- How many outcomes were shown. -/
def outcomes (s : Session) : Nat := s.shown.countP Happening.isOutcome

/-- An action that shows a number of outcomes, told by its result. -/
def Tallies {α : Type} (count : α → Nat) (action : SessionM α) : Prop :=
  ∀ s, (action.run s).2.outcomes = s.outcomes + count (action.run s).1

namespace Tallies

variable {α β : Type}

theorem of_shown {action : SessionM α} (same : ∀ s, (action.run s).2.shown = s.shown) : Tallies (fun _ => 0) action :=
  fun s => congrArg (List.countP _) (same s)

theorem pure (a : α) : Tallies (fun _ => 0) (Pure.pure a : SessionM α) := of_shown fun _ => rfl

theorem bind {action : SessionM α} {next : α → SessionM β} {first : α → Nat} {total : Nat} (rest : α → Nat)
    (begun : Tallies first action) (done : ∀ a, Tallies (fun _ => rest a) (next a))
    (sum : ∀ a, first a + rest a = total) : Tallies (fun _ => total) (action >>= next) := by
  intro s
  have early := begun s
  have late := done (action.run s).1 (action.run s).2
  have both := sum (action.run s).1
  change ((next (action.run s).1).run (action.run s).2).2.outcomes = s.outcomes + total
  dsimp only at late
  omega

theorem after {action : SessionM α} {next : α → SessionM β} {total : Nat} (silent : Tallies (fun _ => 0) action)
    (done : ∀ a, Tallies (fun _ => total) (next a)) : Tallies (fun _ => total) (action >>= next) :=
  bind (fun _ => total) silent done fun _ => Nat.zero_add total

theorem happen (h : Happening) : Tallies (fun _ => h.isOutcome.toNat) (happen h) := by
  intro s
  change List.countP _ (s.shown ++ [h]) = _
  rw [List.countP_append, List.countP_singleton]
  cases h.isOutcome <;> rfl

/-- A job shows an outcome of its own just if it succeeds. -/
theorem emit (job : Job) : Tallies (fun result => result.isOk.toNat) job.emit := by
  intro s
  obtain ⟨text, shown⟩ := told_emit job s
  have records (events : List CompilationEvent) :
      (events.map fun event => Happening.logged (Log.ofEvent event)).countP Happening.isOutcome = 0 := by
    rw [List.countP_eq_zero]
    intro h member
    obtain ⟨event, -, rfl⟩ := List.mem_map.mp member
    cases event <;> simp [Happening.isOutcome, Log.ofEvent]
  rw [outcomes, shown, List.countP_append, List.countP_append, records]
  dsimp only
  cases (job.emit.run s).1.isOk <;> rfl

end Tallies
end Session

namespace Watch

open Session

/-- Whether a batch has a source in it. -/
def touchesSource (changes : List Text) : Bool := changes.any fun text => (Path.ofText text).isSource

theorem isEmpty_changedSources (changes : List Text) : (changedSources changes).isEmpty = !touchesSource changes := by
  rw [Bool.eq_iff_iff, List.isEmpty_iff, List.eq_nil_iff_forall_not_mem]
  simp [mem_changedSources, touchesSource]

namespace Loop

variable {generation : Generation}

theorem tallies_begin (loop : Loop) : Tallies (fun _ => 0) loop.begin := .after (.happen _) fun _ => .happen _

theorem tallies_settle (loop : Loop) : Tallies (fun _ => 0) loop.settle := by
  unfold settle
  split
  · exact .pure _
  · refine .after (.happen _) fun _ => .after (.happen _) fun _ => ?_
    exact .after loop.grown.tallies_begin fun _ => .pure _

/-- Where a generation shows no outcome, because it has failed, the loop does. -/
theorem tallies_regenerate (tallies : Tallies (fun result => result.isOk.toNat) generation) (loop : Loop) :
    Tallies (fun _ => 1) (loop.regenerate generation) := by
  refine .bind (fun result => 1 - result.isOk.toNat) tallies (fun result => ?_) fun result => ?_
  · cases result with
    | ok loaded => exact .pure _
    | error e =>
      dsimp only
      split <;> exact .bind (fun _ => 0) (.happen _) (fun _ => .pure _) fun _ => rfl
  · cases result <;> rfl

theorem tallies_deliver (tallies : Tallies (fun result => result.isOk.toNat) generation) (changes : List Text)
    (loop : Loop) : Tallies (fun _ => (touchesSource changes).toNat) (loop.deliver generation changes) := by
  unfold deliver
  dsimp only
  rw [isEmpty_changedSources]
  cases touchesSource changes with
  | false => exact .pure _
  | true => exact .after (.happen _) fun _ => loop.tallies_regenerate tallies

theorem tallies_round (tallies : Tallies (fun result => result.isOk.toNat) generation) (output : Option Path) (loop : Loop)
    (r : Round) : Tallies (fun _ => (touchesSource r.changes).toNat) (round generation output loop r) := by
  refine .after (.of_shown (shown_edits r.edits)) fun _ => ?_
  refine .bind (fun _ => 0) (loop.tallies_deliver tallies r.changes) (fun next => ?_) fun _ => Nat.add_zero _
  refine .after (.of_shown (shown_readOutput output)) fun _ => ?_
  exact .after (.happen _) fun _ => next.tallies_settle

theorem tallies_rounds (tallies : Tallies (fun result => result.isOk.toNat) generation) (output : Option Path)
    (rounds : List Round) (loop : Loop) :
    Tallies (fun _ => (rounds.map Round.changes).countP touchesSource) (rounds.foldlM (round generation output) loop) := by
  induction rounds generalizing loop with
  | nil => exact .pure _
  | cons r rest ih =>
    rw [List.foldlM_cons]
    refine .bind (fun _ => (rest.map Round.changes).countP touchesSource) (loop.tallies_round tallies output r) ih
      fun _ => ?_
    rw [List.map_cons, List.countP_cons]
    cases touchesSource r.changes <;> simp [Nat.add_comm]

theorem tallies_watch (tallies : Tallies (fun result => result.isOk.toNat) generation) (output : Option Path)
    (sources : List Path) (rounds : List Round) (ending : Ending) :
    Tallies (fun _ => (rounds.map Round.changes).countP touchesSource) (watch generation output sources rounds ending) := by
  refine .after (tallies_begin _) fun _ => ?_
  refine .bind (fun _ => 0) (tallies_rounds tallies output rounds _) (fun _ => ?_) fun _ => Nat.add_zero _
  split
  · exact .happen _
  · exact .pure _

end Loop

/-! ### The output among the changes -/

/-- Whether a batch has a path that does not lead to a given file. -/
def touchesOther (w : Workspace) (file : Path) (changes : List Text) : Bool :=
  changes.any fun text => w.absolute [text] ≠ w.absolute [file.toText]

/-- Whether a batch has paths, all of which lead to a given file. -/
def touchesOnly (w : Workspace) (file : Path) (changes : List Text) : Bool :=
  !changes.isEmpty && !touchesOther w file changes

end Watch

/-- Where a path stands makes no difference to its suffix. -/
theorem Workspace.isSource_absolute {t : Text} (source : (Path.ofText t).isSource = true) (w : Workspace) :
    (w.absolute [t]).isSource = true := by
  have nonempty : (Path.ofText t).name ≠ [] := by
    intro none
    rw [Path.isSource, Path.suffix, none] at source
    exact absurd source (by decide)
  have down : (Path.ofText t).name ≠ Path.upward := by
    intro up
    rw [Path.isSource, Path.suffix, up] at source
    exact absurd source (by decide)
  rw [Path.isSource, Path.suffix, name_absolute nonempty down]
  exact source

namespace Watch

/-- A batch with a source in it has some other path, or nothing but the output, which is a source then. -/
theorem touchesSource_cases {w : Workspace} {output : Path} {changes : List Text} (source : touchesSource changes = true) :
    touchesOther w output changes = true ∨
      (w.absolute [output.toText]).isSource = true ∧ touchesOnly w output changes = true := by
  cases other : touchesOther w output changes with
  | true => exact .inl rfl
  | false =>
    obtain ⟨text, member, suffix⟩ := List.any_eq_true.mp source
    have same : w.absolute [text] = w.absolute [output.toText] := by
      simpa using List.any_eq_false.mp other text member
    refine .inr ⟨same ▸ w.isSource_absolute suffix, ?_⟩
    simp [touchesOnly, other, List.ne_nil_of_mem member]

theorem countP_touchesSource_le (w : Workspace) (output : Path) (batches : List (List Text)) :
    batches.countP touchesSource ≤ batches.countP (touchesOther w output) +
      if (w.absolute [output.toText]).isSource then batches.countP (touchesOnly w output) else 0 := by
  cases suffix : (w.absolute [output.toText]).isSource with
  | false =>
    apply List.countP_mono_left
    intro changes _ source
    rcases @touchesSource_cases w output changes source with other | ⟨impossible, -⟩
    · exact other
    · rw [suffix] at impossible
      cases impossible
  | true =>
    rw [if_pos rfl]
    induction batches with
    | nil => simp
    | cons changes rest ih =>
      have covered := @touchesSource_cases w output changes
      simp only [List.countP_cons]
      grind

/-- The absolute path of the output is that of the output and of nothing else. -/
theorem touches_output (w : Workspace) {output : Path} (source : (w.absolute [output.toText]).isSource = true) :
    let own := [(w.absolute [output.toText]).toText]
    touchesSource own = true ∧ touchesOther w output own = false := by
  intro own
  have plain := w.absolute_isPlain [output.toText]
  have spelled : (w.absolute [output.toText]).IsSpelled := Path.normalized_isSpelled _
  have read := Path.ofText_toText plain.absolute spelled
  have stays := Workspace.absolute_toText plain spelled w
  simp [own, touchesSource, touchesOther, read, stays, source]

/-- Generations of a watch, over whole runs. Each batch with a source in it leads to one generation. These are no more than
the batches with another path than the output, if the suffix of the output is not that of a source. If it is, the batches
that have nothing but the output come on top, and every one that names the output by its absolute path counts. -/
theorem Loop.outcomes_run (entry : Text) (request : Request) (output : Path) (sources : List Path) (rounds : List Round)
    (ending : Ending) (s : Session) :
    let after := ((run ⟨entry, request, some output⟩ sources rounds ending).run s).2
    let batches := rounds.map Round.changes
    let file := s.workspace.absolute [output.toText]
    after.outcomes = s.outcomes + batches.countP touchesSource ∧
    (after.outcomes ≤ s.outcomes + batches.countP (touchesOther s.workspace output) +
      if file.isSource then batches.countP (touchesOnly s.workspace output) else 0) ∧
    (file.isSource = true → (∀ changes ∈ batches, changes = [file.toText]) →
      after.outcomes = s.outcomes + rounds.length ∧ batches.countP (touchesOther s.workspace output) = 0) := by
  intro after batches file
  have counted : after.outcomes = s.outcomes + batches.countP touchesSource :=
    tallies_watch (.emit _) (some output) sources rounds ending s
  refine ⟨counted, ?_, fun source only => ?_⟩
  · rw [counted, Nat.add_assoc]
    exact Nat.add_le_add_left (countP_touchesSource_le s.workspace output batches) s.outcomes
  · obtain ⟨noticed, alone⟩ := touches_output s.workspace source
    have all : batches.countP touchesSource = batches.length :=
      List.countP_eq_length.mpr fun changes member => only changes member ▸ noticed
    rw [counted, all, List.length_map]
    refine ⟨rfl, List.countP_eq_zero.mpr fun changes member => ?_⟩
    rw [only changes member, alone]
    exact Bool.false_ne_true

set_option maxRecDepth 100000 in
/-- A change of the document, after which its output is reported to have changed. The output is generated a second time. -/
theorem Loop.outcomes_after_output :
    let rounds : List Round := [⟨[], ["/w/doc.ts"]⟩, ⟨[], ["/w/out.ts"]⟩]
    let after := ((run documentJob [.ofText "/w/doc.ts"] rounds .exhausted).run documentSession).2
    after.outcomes = 2 ∧
      (rounds.map Round.changes).countP (touchesOther documentSession.workspace (.ofText "/w/out.ts")) = 1 := by
  decide +kernel

end Watch
end SchemaTypes
