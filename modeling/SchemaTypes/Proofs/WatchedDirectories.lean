import Mathlib.Data.List.Chain
import SchemaTypes.Proofs.Output
import SchemaTypes.Watch.Loop

/-!
Which directories watch mode watches. The list of directories is only ever extended, by what a successful generation has
shown to be missing. A batch of changes may lead to no generation at all, to a failed one or to one that stays within the
list; none of them begins a new watch.
-/

namespace SchemaTypes

/-! ### What a run of the loop shows -/

namespace Happening

/-- The directories of a watch that begins. -/
def directories? : Happening → Option (List Path)
  | watching directories => some directories
  | _ => none

/-- The changes that were dealt with. -/
def changes? : Happening → Option (List Text)
  | delivered changes _ => some changes
  | _ => none

end Happening

namespace Session

/-- The directories of the watches that were begun, in order. -/
def watches (s : Session) : List (List Path) := s.shown.filterMap Happening.directories?

/-- The batches of changes that were dealt with, in order. -/
def batches (s : Session) : List (List Text) := s.shown.filterMap Happening.changes?

/-- The directories of the last watch. -/
def watched (s : Session) : List Path := s.watches.getLast?.getD []

theorem watches_happen (h : Happening) (s : Session) :
    ((happen h).run s).2.watches = s.watches ++ h.directories?.toList := by
  change List.filterMap _ (s.shown ++ [h]) = _
  rw [List.filterMap_append]
  cases h <;> rfl

theorem batches_happen (h : Happening) (s : Session) :
    ((happen h).run s).2.batches = s.batches ++ h.changes?.toList := by
  change List.filterMap _ (s.shown ++ [h]) = _
  rw [List.filterMap_append]
  cases h <;> rfl

theorem shown_writeFile (path : Path) (text : Text) (s : Session) :
    ((writeFile path text).run s).2.shown = s.shown := by
  cases outcome : s.workspace.files.makeDirectory s.workspace.location path.parent with
  | mk made result =>
    cases result with
    | error e => rw [run_writeFile_error text outcome]
    | ok _ => rw [run_writeFile_ok text outcome]

/-- What a job has shown in the end: one more text if it has succeeded. -/
def Told (before : List Happening) (outcome : Except Error (List Path) × Session) : Prop :=
  ∃ text, outcome.2.shown = before ++ if outcome.1.isOk then [.printed text] else []

theorem told_emit (job : Job) (s : Session) :
    let events := (Compilation.run (Compilation.generate job.entry job.request) s.workspace {}).2.events
    Told (s.shown ++ events.map fun event => .logged (Log.ofEvent event)) (job.emit.run s) := by
  change Told (s.compiled (Compilation.run (Compilation.generate job.entry job.request) s.workspace {}).2).shown _
  have ends := job.emits_run s
  generalize job.emit.run s = outcome at ends ⊢
  cases ends with
  | failed generated =>
    rw [generated]
    exact ⟨[], (List.append_nil _).symm⟩
  | @printed types _ generated _ =>
    rw [generated]
    exact ⟨Console.shown types, rfl⟩
  | @unwritten types c output _ _ generated _ refused =>
    have unchanged := shown_writeFile output (types ++ "\n") (s.compiled c)
    rw [refused] at unchanged
    rw [generated, ← unchanged]
    exact ⟨[], (List.append_nil _).symm⟩
  | @written types line c output _ generated _ done =>
    have unchanged := shown_writeFile output (types ++ "\n") (s.compiled c)
    rw [done] at unchanged
    rw [generated, ← unchanged]
    exact ⟨Console.shown line, rfl⟩

/-- An action that begins no watch and deals with no batch. -/
def Quiet {α : Type} (action : SessionM α) : Prop :=
  ∀ s, (action.run s).2.watches = s.watches ∧ (action.run s).2.batches = s.batches

namespace Quiet

variable {α β : Type}

theorem pure (a : α) : Quiet (Pure.pure a) := fun _ => ⟨rfl, rfl⟩

theorem bind {action : SessionM α} {next : α → SessionM β} (first : Quiet action) (rest : ∀ a, Quiet (next a)) :
    Quiet (action >>= next) := by
  intro s
  obtain ⟨watches, batches⟩ := first s
  obtain ⟨watches', batches'⟩ := rest (action.run s).1 (action.run s).2
  exact ⟨watches'.trans watches, batches'.trans batches⟩

theorem of_shown {action : SessionM α} (same : ∀ s, (action.run s).2.shown = s.shown) : Quiet action :=
  fun s => ⟨congrArg (List.filterMap _) (same s), congrArg (List.filterMap _) (same s)⟩

theorem happen {h : Happening} (small : h.directories? = none ∧ h.changes? = none) : Quiet (happen h) := by
  intro s
  rw [watches_happen, batches_happen, small.1, small.2]
  exact ⟨List.append_nil _, List.append_nil _⟩

theorem print (t : Text) : Quiet (print t) := happen ⟨rfl, rfl⟩

theorem log (record : Log.Record) : Quiet (log record) := happen ⟨rfl, rfl⟩

theorem emit (job : Job) : Quiet job.emit := by
  intro s
  obtain ⟨text, shown⟩ := told_emit job s
  unfold watches batches
  rw [shown]
  split <;> simp [Happening.directories?, Happening.changes?, List.filterMap_map, Function.comp_def]

end Quiet
end Session

/-- A job that succeeds hands out the paths that its pass has loaded. -/
theorem Job.loadedPaths_of_emit {job : Job} {s : Session} {loaded : List Path}
    (success : (job.emit.run s).1 = .ok loaded) :
    (Compilation.run (Compilation.generate job.entry job.request) s.workspace {}).2.loadedPaths = loaded := by
  have ends := job.emits_run s
  generalize job.emit.run s = outcome at ends success
  cases ends with
  | failed _ => cases success
  | unwritten _ _ _ => cases success
  | printed generated _ =>
    rw [generated]
    exact Except.ok.inj success
  | written generated _ _ =>
    rw [generated]
    exact Except.ok.inj success

namespace Watch

open Session

/-! ### Directories without repetitions -/

section Distinct

variable {α : Type} [DecidableEq α]

private theorem foldl_distinct (xs : List α) {seen : List α} (nodup : seen.Nodup) :
    let all := xs.foldl (fun seen x => if x ∈ seen then seen else seen ++ [x]) seen
    all.Nodup ∧ ∀ x, x ∈ all ↔ x ∈ seen ∨ x ∈ xs := by
  induction xs generalizing seen with
  | nil => exact ⟨nodup, by simp⟩
  | cons y xs ih =>
    by_cases old : y ∈ seen
    · obtain ⟨kept, members⟩ := ih nodup
      simp only [List.foldl_cons, if_pos old]
      refine ⟨kept, fun x => ?_⟩
      rw [members, List.mem_cons]
      grind
    · have longer : (seen ++ [y]).Nodup := by
        rw [List.nodup_append]
        exact ⟨nodup, List.nodup_singleton y, by grind⟩
      obtain ⟨kept, members⟩ := ih longer
      simp only [List.foldl_cons, if_neg old]
      refine ⟨kept, fun x => ?_⟩
      rw [members, List.mem_append, List.mem_singleton, List.mem_cons, or_assoc]

theorem nodup_distinct (xs : List α) : (distinct xs).Nodup := (foldl_distinct xs List.nodup_nil).1

theorem mem_distinct {xs : List α} {x : α} : x ∈ distinct xs ↔ x ∈ xs := by
  rw [distinct, (foldl_distinct xs List.nodup_nil).2]
  simp

end Distinct

theorem mem_directoriesOf {sources : List Path} {directory : Path} :
    directory ∈ directoriesOf sources ↔ ∃ path ∈ sources, path.parent = directory := by
  rw [directoriesOf, mem_distinct, List.mem_map]

theorem mem_missingFrom {directories loaded : List Path} {directory : Path} :
    directory ∈ missingFrom directories loaded ↔
      (∃ path ∈ loaded, path.parent = directory) ∧ directory ∉ directories := by
  rw [missingFrom, List.mem_filter, mem_directoriesOf, decide_eq_true_eq]

theorem missingFrom_eq_nil_iff {directories loaded : List Path} :
    missingFrom directories loaded = [] ↔ ∀ path ∈ loaded, path.parent ∈ directories := by
  rw [List.eq_nil_iff_forall_not_mem]
  simp only [mem_missingFrom]
  grind

/-! ### One round -/

/-- The session in which the changes of a round are noticed. -/
def Round.edited (r : Round) (s : Session) : Session := ((r.edits.forM Loop.applyEdit).run s).2

/-- What generating again gives in a round, if there is a source among its changes. -/
def Round.attempt (generation : Generation) (r : Round) (s : Session) : Option (Except Error (List Path)) :=
  if (changedSources r.changes).isEmpty then none
  else some (generation.run ((log (Log.changesDetected (changedSources r.changes).length)).run (r.edited s)).2).1

/-- The files that a round has shown to be read. -/
def Round.loaded? (generation : Generation) (r : Round) (s : Session) : Option (List Path) :=
  (r.attempt generation s).bind Except.toOption

theorem Round.loaded?_eq_some_iff {generation : Generation} {r : Round} {s : Session} {loaded : List Path} :
    r.loaded? generation s = some loaded ↔ r.attempt generation s = some (.ok loaded) := by
  rw [Round.loaded?, Option.bind_eq_some_iff]
  constructor
  · rintro ⟨outcome, tried, read⟩
    cases outcome with
    | error e => cases read
    | ok loaded' =>
      cases read
      exact tried
  · exact fun tried => ⟨.ok loaded, tried, rfl⟩

namespace Loop

/-- The lists of directories, the watched one and the one to be added, repeat nothing and have nothing in common. -/
def Distinct (loop : Loop) : Prop := (loop.directories ++ loop.pending).Nodup

/-- Any number of generations may come before the pending directories are watched. -/
theorem Distinct.after {loop : Loop} (distinct : loop.Distinct) (loaded : Option (List Path)) :
    (loop.after loaded).Distinct := by
  cases loaded with
  | none => exact distinct
  | some loaded =>
    change (loop.directories ++ (loop.pending ++ missingFrom (loop.directories ++ loop.pending) loaded)).Nodup
    rw [← List.append_assoc, List.nodup_append]
    refine ⟨distinct, (nodup_distinct _).filter _, ?_⟩
    rintro directory old _ new rfl
    exact (mem_missingFrom.mp new).2 old

/-- Where nothing is pending, nothing is added. -/
theorem grown_of_settled {loop : Loop} (settled : loop.pending = []) : loop.grown = loop := by
  rw [grown, settled, List.append_nil]
  exact congrArg (Loop.mk loop.directories) settled.symm

theorem run_begin (loop : Loop) (s : Session) :
    (loop.begin.run s).2.batches = s.batches ∧ (loop.begin.run s).2.watches = s.watches ++ [loop.directories] := by
  obtain ⟨watches, batches⟩ := Quiet.log (Log.watcherStarted loop.directories) s
  refine ⟨(batches_happen _ _).trans ?_, (watches_happen _ _).trans (congrArg (· ++ [loop.directories]) watches)⟩
  exact (List.append_nil _).trans batches

theorem run_settle (loop : Loop) (s : Session) :
    (loop.settle.run s).1 = loop.grown ∧ (loop.settle.run s).2.batches = s.batches ∧
      (loop.settle.run s).2.watches = s.watches ++ if loop.pending = [] then [] else [loop.grown.directories] := by
  unfold settle
  by_cases none : loop.pending = []
  · simp only [none, List.isEmpty_nil, if_true, List.append_nil]
    exact ⟨(grown_of_settled none).symm, rfl, rfl⟩
  · have some : loop.pending.isEmpty = false := List.isEmpty_eq_false_iff.mpr none
    simp only [some, Bool.false_eq_true, if_false, if_neg none]
    have announced : Quiet (log Log.watcherStopped >>= fun _ => log (Log.watchingMore loop.pending.length)) :=
      (Quiet.log _).bind fun _ => Quiet.log _
    obtain ⟨watches, batches⟩ := announced s
    obtain ⟨batches', watches'⟩ := loop.grown.run_begin
      ((log Log.watcherStopped >>= fun _ => log (Log.watchingMore loop.pending.length)).run s).2
    exact ⟨rfl, batches'.trans batches, watches'.trans (by rw [watches])⟩

/-- A batch of changes is dealt with by what the attempt has read, if there is one and it has not failed. -/
theorem run_deliver (generation : Generation) (loop : Loop) (r : Round) (s : Session) :
    ((loop.deliver generation r.changes).run (r.edited s)).1 = loop.after (r.loaded? generation s) := by
  by_cases none : (changedSources r.changes).isEmpty = true
  · simp only [deliver, Round.loaded?, Round.attempt, none, if_true]
    rfl
  · simp only [deliver, Round.loaded?, Round.attempt, none]
    change ((loop.regenerate generation).run ((log (Log.changesDetected _)).run (r.edited s)).2).1 = _
    generalize ((log (Log.changesDetected _)).run (r.edited s)).2 = noticed
    unfold regenerate
    rw [StateT.run_bind]
    cases generation.run noticed with
    | mk outcome done =>
      cases outcome with
      | ok loaded => rfl
      | error e =>
        change ((if e.isReported = true then _ else _ : SessionM Loop).run done).1 = _
        split <;> rfl

theorem quiet_deliver {generation : Generation} (quiet : Quiet generation) (changes : List Text) (loop : Loop) :
    Quiet (loop.deliver generation changes) := by
  unfold deliver
  dsimp only
  split
  · exact .pure _
  · refine (Quiet.log _).bind fun _ => quiet.bind fun outcome => ?_
    cases outcome with
    | ok loaded => exact .pure _
    | error e =>
      dsimp only
      split
      · exact (Quiet.print _).bind fun _ => .pure _
      · exact (Quiet.log _).bind fun _ => .pure _

theorem shown_edits (edits : List Edit) (s : Session) : ((edits.forM applyEdit).run s).2.shown = s.shown := by
  induction edits generalizing s with
  | nil => rfl
  | cons edit rest ih => cases edit <;> exact ih _

theorem shown_readOutput (output : Option Path) (s : Session) : ((readOutput output).run s).2.shown = s.shown := by
  cases output with
  | none => rfl
  | some path =>
    rw [readOutput, readText, StateT.run_bind, StateT.run_get, pure_bind]
    cases s.workspace.read path <;> rfl

/-- What one round does: the loop goes on with what it has learnt under watch, and a watch begins if that is anything new. -/
theorem run_round {generation : Generation} (quiet : Quiet generation) (output : Option Path) (loop : Loop) (r : Round)
    (s : Session) :
    let next := loop.after (r.loaded? generation s)
    let after := (round generation output loop r).run s
    after.1 = next.grown ∧ after.2.batches = s.batches ++ [r.changes] ∧
      after.2.watches = s.watches ++ if next.pending = [] then [] else [next.grown.directories] := by
  intro next after
  obtain ⟨watches, batches⟩ := Quiet.of_shown (shown_edits r.edits) s
  obtain ⟨watches', batches'⟩ := quiet_deliver quiet r.changes loop (r.edited s)
  let delivered := ((loop.deliver generation r.changes).run (r.edited s)).2
  obtain ⟨watches'', batches''⟩ := Quiet.of_shown (shown_readOutput output) delivered
  let found := (readOutput output).run delivered
  let told := ((happen (.delivered r.changes found.1)).run found.2).2
  -- the loop that deals with the batch is the one that settles after the output was read
  have learnt : ((loop.deliver generation r.changes).run (r.edited s)).1 = next := run_deliver generation loop r s
  have split : after = next.settle.run told := by rw [← learnt]; rfl
  obtain ⟨goes, kept, begun⟩ := next.run_settle told
  have toldWatches : told.watches = s.watches :=
    (watches_happen _ _).trans ((List.append_nil _).trans (watches''.trans (watches'.trans watches)))
  have toldBatches : told.batches = s.batches ++ [r.changes] :=
    (batches_happen _ _).trans (congrArg (· ++ [r.changes]) (batches''.trans (batches'.trans batches)))
  rw [split, kept, begun, toldWatches, toldBatches]
  exact ⟨goes, rfl, rfl⟩

/-! ### Whole runs -/

/-- The loop and its session after rounds of changes. -/
def through (generation : Generation) (output : Option Path) (sources : List Path) (rounds : List Round) (s : Session) :
    Loop × Session :=
  let first : Loop := { directories := directoriesOf sources }
  (rounds.foldlM (round generation output) first).run (first.begin.run s).2

variable {generation : Generation} {output : Option Path} {sources : List Path}

theorem through_append (before rest : List Round) (s : Session) :
    through generation output sources (before ++ rest) s =
      (rest.foldlM (round generation output) (through generation output sources before s).1).run
        (through generation output sources before s).2 := by
  rw [through, List.foldlM_append]
  rfl

theorem through_snoc (before : List Round) (r : Round) (s : Session) :
    through generation output sources (before ++ [r]) s =
      (round generation output (through generation output sources before s).1 r).run
        (through generation output sources before s).2 := by
  rw [through_append, List.foldlM_cons]
  exact congrArg (fun action : SessionM Loop => action.run _) (bind_pure _)

/-- After its rounds, a watch has nothing more to show. -/
theorem run_watch (rounds : List Round) (ending : Ending) (s : Session) :
    let after := ((watch generation output sources rounds ending).run s).2
    after.watches = (through generation output sources rounds s).2.watches ∧
      after.batches = (through generation output sources rounds s).2.batches := by
  have farewell : Quiet (if ending = .exhausted then log Log.watcherStopped else pure ()) := by
    split
    · exact .log _
    · exact .pure ()
  exact farewell (through generation output sources rounds s).2

/-- The lists of successive watches: the first one is given, each one extends the one before, and none of them repeats
anything. -/
structure Ascending (first : List Path) (lists : List (List Path)) : Prop where
  head : lists.head? = some first
  chain : lists.IsChain fun shorter longer => shorter <+: longer ∧ shorter ≠ longer
  nodup : ∀ list ∈ lists, list.Nodup

theorem Ascending.singleton {first : List Path} (nodup : first.Nodup) : Ascending first [first] :=
  ⟨rfl, .singleton first, by simpa using nodup⟩

theorem Ascending.snoc {first current list : List Path} {lists : List (List Path)} (ascending : Ascending first lists)
    (last : lists.getLast? = some current) (longer : current <+: list) (different : current ≠ list) (nodup : list.Nodup) :
    Ascending first (lists ++ [list]) where
  head := by rw [List.head?_append, ascending.head]; rfl
  chain := by
    refine List.isChain_append.mpr ⟨ascending.chain, .singleton list, ?_⟩
    rw [last]
    rintro _ ⟨⟩ _ ⟨⟩
    exact ⟨longer, different⟩
  nodup := by
    intro other member
    rcases List.mem_append.mp member with old | new
    · exact ascending.nodup other old
    · exact List.mem_singleton.mp new ▸ nodup

/-- What a batch may do to the lists of successive watches, the last of which is the current one. A watch begins just if a
successful attempt has read a file from a directory that is not watched. -/
inductive Extends (lists : List (List Path)) : Option (Except Error (List Path)) → List (List Path) → Prop
  | idle : Extends lists none lists
  | failed (e : Error) : Extends lists (some (.error e)) lists
  | covered {current loaded : List Path} (last : lists.getLast? = some current)
    (inside : ∀ path ∈ loaded, path.parent ∈ current) : Extends lists (some (.ok loaded)) lists
  | restarted {current list loaded : List Path} (last : lists.getLast? = some current)
    (outside : ∃ path ∈ loaded, path.parent ∉ current) (longer : current <+: list)
    (inside : ∀ path ∈ loaded, path.parent ∈ list) : Extends lists (some (.ok loaded)) (lists ++ [list])

/-- Between two rounds nothing is pending, and the loop has the directories of the last watch. -/
structure Watching (first : List Path) (earlier : List (List Path)) (loop : Loop) (s : Session) : Prop where
  settled : loop.pending = []
  lists : ∃ lists, s.watches = earlier ++ lists ∧ lists.getLast? = some loop.directories ∧ Ascending first lists

theorem Watching.last {first : List Path} {earlier : List (List Path)} {loop : Loop} {s : Session}
    (watching : Watching first earlier loop s) : s.watches.getLast? = some loop.directories := by
  obtain ⟨lists, split, last, -⟩ := watching.lists
  rw [split, List.getLast?_append, last]
  rfl

theorem Watching.nodup {first : List Path} {earlier : List (List Path)} {loop : Loop} {s : Session}
    (watching : Watching first earlier loop s) : loop.directories.Nodup := by
  obtain ⟨lists, -, last, ascending⟩ := watching.lists
  exact ascending.nodup _ (List.mem_of_getLast? last)

/-- A loop that goes on with what an attempt has read, if nothing was pending. -/
theorem after_of_settled {loop : Loop} (settled : loop.pending = []) (loaded : List Path) :
    loop.after (some loaded) = ⟨loop.directories, missingFrom loop.directories loaded⟩ := by
  rw [after, settled, List.append_nil, List.nil_append]

/-- The new list of directories where an attempt has shown some to be missing. -/
theorem Watching.snoc {first : List Path} {earlier : List (List Path)} {loop : Loop} {s after : Session}
    {loaded : List Path} (watching : Watching first earlier loop s) (missing : missingFrom loop.directories loaded ≠ [])
    (begun : after.watches = s.watches ++ [loop.directories ++ missingFrom loop.directories loaded]) :
    Watching first earlier ⟨loop.directories ++ missingFrom loop.directories loaded, []⟩ after where
  settled := rfl
  lists := by
    obtain ⟨lists, split, last, ascending⟩ := watching.lists
    have distinct : loop.Distinct := by
      rw [Distinct, watching.settled, List.append_nil]
      exact watching.nodup
    have nodup := distinct.after (some loaded)
    rw [after_of_settled watching.settled] at nodup
    refine ⟨lists ++ [loop.directories ++ missingFrom loop.directories loaded],
      by rw [begun, split, List.append_assoc], List.getLast?_concat, ?_⟩
    exact ascending.snoc last (List.prefix_append _ _) (by simpa using missing) nodup

theorem watching_round (quiet : Quiet generation) {first : List Path} {earlier : List (List Path)} {loop : Loop}
    {s : Session} (watching : Watching first earlier loop s) (r : Round) :
    let after := (round generation output loop r).run s
    Watching first earlier after.1 after.2 ∧ Extends s.watches (r.attempt generation s) after.2.watches := by
  intro after
  obtain ⟨goes, -, begun⟩ := run_round quiet output loop r s
  -- a round that shows nothing new leaves the loop and its watches as they were
  have stay (same : loop.after (r.loaded? generation s) = loop) : after.1 = loop ∧ after.2.watches = s.watches := by
    rw [same, grown_of_settled watching.settled] at goes
    rw [same, if_pos watching.settled, List.append_nil] at begun
    exact ⟨goes, begun⟩
  have stays (same : loop.after (r.loaded? generation s) = loop) : Watching first earlier after.1 after.2 := by
    obtain ⟨kept, shown⟩ := stay same
    exact ⟨kept ▸ watching.settled, by rw [kept, shown]; exact watching.lists⟩
  cases tried : r.attempt generation s with
  | none =>
    have same : loop.after (r.loaded? generation s) = loop := by rw [Round.loaded?, tried]; rfl
    exact ⟨stays same, (stay same).2 ▸ .idle⟩
  | some outcome =>
    cases outcome with
    | error e =>
      have same : loop.after (r.loaded? generation s) = loop := by rw [Round.loaded?, tried]; rfl
      exact ⟨stays same, (stay same).2 ▸ .failed e⟩
    | ok loaded =>
      have next : loop.after (r.loaded? generation s) = ⟨loop.directories, missingFrom loop.directories loaded⟩ := by
        rw [Round.loaded?, tried]
        exact after_of_settled watching.settled loaded
      by_cases missing : missingFrom loop.directories loaded = []
      · have same : loop.after (r.loaded? generation s) = loop := by
          rw [next, missing]
          exact congrArg (Loop.mk loop.directories) watching.settled.symm
        refine ⟨stays same, ?_⟩
        rw [(stay same).2]
        exact .covered watching.last (missingFrom_eq_nil_iff.mp missing)
      · rw [next] at goes
        rw [next, if_neg missing] at begun
        refine ⟨goes ▸ watching.snoc missing begun, begun ▸ .restarted watching.last ?_ (List.prefix_append _ _) ?_⟩
        · rw [missingFrom_eq_nil_iff] at missing
          simpa using missing
        · intro path member
          by_cases inside : path.parent ∈ loop.directories
          · exact List.mem_append_left _ inside
          · exact List.mem_append_right _ (mem_missingFrom.mpr ⟨⟨path, member, rfl⟩, inside⟩)

theorem watching_through (quiet : Quiet generation) (rounds : List Round) (s : Session) :
    let after := through generation output sources rounds s
    Watching (directoriesOf sources) s.watches after.1 after.2 ∧
      after.2.batches = s.batches ++ rounds.map Round.changes := by
  induction rounds using List.reverseRecOn with
  | nil =>
    obtain ⟨batches, watches⟩ := run_begin { directories := directoriesOf sources } s
    refine ⟨⟨rfl, [directoriesOf sources], watches, rfl, .singleton (nodup_distinct _)⟩, ?_⟩
    exact batches.trans (List.append_nil _).symm
  | append_singleton before r ih =>
    obtain ⟨watching, batches⟩ := ih
    rw [through_snoc]
    refine ⟨(watching_round quiet watching r).1, ?_⟩
    rw [(run_round quiet output _ r _).2.1, batches, List.map_append, List.append_assoc]
    rfl

/-- The directories of watch mode, over whole runs in which each batch of changes may lead to a generation that fails or
that reads any files. The first watch is over the directories of the sources. Each later one goes on the one before, and
no list has a directory twice. Every batch is dealt with, whatever came of those before it. A batch begins a new watch just
if its generation has succeeded and read a file from a directory that is not watched, and all the directories of its files
are then watched. -/
theorem watch_extends {generation : Generation} (quiet : Quiet generation) (output : Option Path) (sources : List Path)
    (rounds : List Round) (ending : Ending) (s : Session) :
    let after := ((watch generation output sources rounds ending).run s).2
    (∃ lists, after.watches = s.watches ++ lists ∧ Ascending (directoriesOf sources) lists) ∧
    after.batches = s.batches ++ rounds.map Round.changes ∧
    ∀ before r rest, rounds = before ++ r :: rest →
      Extends (through generation output sources before s).2.watches
        (r.attempt generation (through generation output sources before s).2)
        (through generation output sources (before ++ [r]) s).2.watches := by
  intro after
  obtain ⟨watches, batches⟩ := @run_watch generation output sources rounds ending s
  obtain ⟨watching, dealt⟩ := @watching_through generation output sources quiet rounds s
  refine ⟨?_, batches.trans dealt, ?_⟩
  · obtain ⟨lists, split, -, ascending⟩ := watching.lists
    exact ⟨lists, watches.trans split, ascending⟩
  · rintro before r rest -
    rw [through_snoc]
    exact (watching_round quiet (watching_through quiet before s).1 r).2

/-- A job for a document without imports. -/
def documentJob : Job := ⟨"/w/doc.ts", .ofList [("A", "T")], some (.ofText "/w/out.ts")⟩

def documentSession : Session where
  workspace := .ofSources [("doc.ts", "const A=Type.Object(\x7b\x7d)")]

/-- A round in which the document comes to publish a definition from a directory beside its own. -/
def importingRound (definition : String) : Round where
  edits := [.write (.ofText "/lib/b.ts") definition.toUTF8, .write (.ofText "doc.ts")
    "import \x7bB\x7d from '../lib/b'\nconst module=Type.Module(\x7bK:B\x7d)\nconst A=module.Import('K')".toUTF8]
  changes := ["/w/doc.ts"]

set_option maxRecDepth 100000 in
theorem watch_extends_importingRound :
    let after := ((watch documentJob.emit documentJob.output [.ofText "/w/doc.ts"]
      [importingRound "const B=Type.Object(\x7b\x7d)"] .exhausted).run documentSession).2
    after.watches = [[.ofText "/w"], [.ofText "/w", .ofText "/lib"]] ∧
      Ascending [.ofText "/w"] after.watches := by
  intro after
  have shown : after.watches = [[.ofText "/w"], [.ofText "/w", .ofText "/lib"]] := by decide +kernel
  obtain ⟨⟨lists, all, ascending⟩, -⟩ := watch_extends (Quiet.emit documentJob) documentJob.output [.ofText "/w/doc.ts"]
    [importingRound "const B=Type.Object(\x7b\x7d)"] .exhausted documentSession
  exact ⟨shown, all ▸ ascending⟩

/-! ### What is watched -/

theorem mem_directories_grown_after {loop : Loop} (settled : loop.pending = []) (found : Option (List Path))
    (directory : Path) :
    directory ∈ (loop.after found).grown.directories ↔
      directory ∈ loop.directories ∨ ∃ loaded, found = some loaded ∧ ∃ path ∈ loaded, path.parent = directory := by
  cases found with
  | none => simp [after, grown, settled]
  | some loaded =>
    rw [after_of_settled settled, grown, List.mem_append, mem_missingFrom]
    simp only [Option.some.injEq, exists_eq_left']
    by_cases inside : directory ∈ loop.directories <;> simp [inside]

/-- The directories of the loop are those of the sources and of what successful attempts have read. -/
theorem mem_directories_through (quiet : Quiet generation) (rounds : List Round) (s : Session) (directory : Path) :
    directory ∈ (through generation output sources rounds s).1.directories ↔
      (∃ path ∈ sources, path.parent = directory) ∨
      ∃ before r rest loaded, rounds = before ++ r :: rest ∧
        r.attempt generation (through generation output sources before s).2 = some (.ok loaded) ∧
        ∃ path ∈ loaded, path.parent = directory := by
  induction rounds using List.reverseRecOn with
  | nil =>
    change directory ∈ directoriesOf sources ↔ _
    simp [mem_directoriesOf]
  | append_singleton before r ih =>
    have settled := (@watching_through generation output sources quiet before s).1.settled
    rw [through_snoc, (run_round quiet output _ r _).1, mem_directories_grown_after settled, ih]
    constructor
    · rintro ((source | ⟨before, r', rest, loaded, rfl, tried, read⟩) | ⟨loaded, found, read⟩)
      · exact .inl source
      · exact .inr ⟨before, r', rest ++ [r], loaded, by simp, tried, read⟩
      · exact .inr ⟨before, r, [], loaded, rfl, Round.loaded?_eq_some_iff.mp found, read⟩
    · rintro (source | ⟨before', r', rest, loaded, split, tried, read⟩)
      · exact .inl (.inl source)
      · -- either the attempt is that of the last round, or it was made before it
        rcases List.eq_nil_or_concat rest with rfl | ⟨rest, last, rfl⟩
        · obtain ⟨rfl, same⟩ := List.append_inj' split rfl
          cases same
          exact .inr ⟨loaded, Round.loaded?_eq_some_iff.mpr tried, read⟩
        · rw [List.concat_eq_append, ← List.cons_append, ← List.append_assoc] at split
          obtain ⟨rfl, -⟩ := List.append_inj' split rfl
          exact .inl (.inr ⟨before', r', rest, loaded, rfl, tried, read⟩)

theorem watched_run (job : Job) (sources : List Path) (rounds : List Round) (ending : Ending) (s : Session) :
    ((run job sources rounds ending).run s).2.watched = (through job.emit job.output sources rounds s).1.directories := by
  rw [watched, run, (run_watch rounds ending s).1, (watching_through (Quiet.emit job) rounds s).1.last]
  rfl

end Loop

/-- The pass that is made when a job is repeated in a round. -/
def Round.pass (job : Job) (r : Round) (s : Session) : Except Error Text × Compilation :=
  Compilation.run (Compilation.generate job.entry job.request) (r.edited s).workspace {}

theorem Round.loadedPaths_pass {job : Job} {r : Round} {s : Session} {loaded : List Path}
    (tried : r.attempt job.emit s = some (.ok loaded)) : (r.pass job s).2.loadedPaths = loaded := by
  unfold Round.attempt at tried
  split at tried
  · cases tried
  · have paths := Job.loadedPaths_of_emit (Option.some.inj tried)
    exact paths

/-- The directories that are watched when rounds of changes have been dealt with: those of the sources, and those of the
files that successful attempts have read. A failed attempt adds nothing, whatever it has read. -/
theorem Loop.mem_watched_iff (job : Job) (sources : List Path) (rounds : List Round) (ending : Ending) (s : Session)
    (directory : Path) :
    directory ∈ ((run job sources rounds ending).run s).2.watched ↔
      (∃ path ∈ sources, path.parent = directory) ∨
      ∃ before r rest, rounds = before ++ r :: rest ∧
        let here := (through job.emit job.output sources before s).2
        (∃ loaded, r.attempt job.emit here = some (.ok loaded)) ∧
        ∃ path ∈ (r.pass job here).2.loadedPaths, path.parent = directory := by
  rw [watched_run, mem_directories_through (Quiet.emit job)]
  refine or_congr_right ⟨?_, ?_⟩
  · rintro ⟨before, r, rest, loaded, split, tried, read⟩
    exact ⟨before, r, rest, split, ⟨loaded, tried⟩, (Round.loadedPaths_pass tried).symm ▸ read⟩
  · rintro ⟨before, r, rest, split, ⟨loaded, tried⟩, read⟩
    exact ⟨before, r, rest, loaded, split, tried, Round.loadedPaths_pass tried ▸ read⟩

set_option maxRecDepth 100000 in
/-- A document that comes to import from a directory beside its own, where it fails. Neither that directory nor one above
it is watched, so the repair of the file is not noticed. -/
theorem Loop.unwatched_after_failure :
    let r := importingRound "const B=Type.String()"
    let here := (through documentJob.emit documentJob.output [.ofText "/w/doc.ts"] [] documentSession).2
    let after := ((run documentJob [.ofText "/w/doc.ts"] [r] .exhausted).run documentSession).2
    (r.attempt documentJob.emit here).map Except.isOk = some false ∧
      Path.ofText "/lib/b.ts" ∈ (r.pass documentJob here).2.loadedPaths ∧
      (Path.ofText "/lib/b.ts").parent ∉ after.watched ∧ after.watched = [.ofText "/w"] := by
  decide +kernel

end Watch
end SchemaTypes
