import SchemaTypes.Proofs.WatchedSources

/-!
The life of a watcher. While its task runs, every batch of changes with a source in it leads to one call, however the
calls end. Over any sequence of calls of its methods a watcher lives in turns: a watch is launched, and it is stopped
before the next one is launched. Only a watch whose stream has failed cannot be stopped. Its task is held for good, and the
watcher does nothing any more.
-/

namespace SchemaTypes

/-- The suffixes of sources, in their exact spelling. -/
theorem Path.isSource_iff {p : Path} : p.isSource = true ↔ p.suffix ∈ dialects.map Prod.fst := by
  simp only [isSource, dialects, List.lookup_isSome_iff, List.map_cons, List.map_nil, List.mem_cons]
  simp

namespace Watcher

open Watch

/-! ### Lives -/

/-- What can happen to a watcher: one of its methods is called, its stream brings something, or its task goes on. -/
inductive Move where
  | start
  | stop
  | wait
  | bring (signal : Signal)
  | settle

/-- The watcher after a move, and what it does. A method that fails does nothing. -/
def Move.make (fails : Callback) (w : Watcher) : Move → Watcher × List Action
  | .start => Watcher.start w
  | .stop => ((Watcher.stop w).1, (Watcher.stop w).2.toOption.getD [])
  | .wait => (w, [])
  | .bring signal => (w.enqueue signal, [])
  | .settle => Watcher.settle fails w

/-- The watcher after moves, and what it does in them. -/
def live (fails : Callback) (w : Watcher) : List Move → Watcher × List Action
  | [] => (w, [])
  | move :: moves =>
    let made := move.make fails w
    let later := live fails made.1 moves
    (later.1, made.2 ++ later.2)

theorem live_append (fails : Callback) (w : Watcher) (moves more : List Move) :
    live fails w (moves ++ more) =
      ((live fails (live fails w moves).1 more).1, (live fails w moves).2 ++ (live fails (live fails w moves).1 more).2) := by
  induction moves generalizing w with
  | nil => rfl
  | cons move moves ih =>
    rw [List.cons_append, live, live, ih]
    simp only [List.append_assoc]

/-! ### Batches that come to a started watcher -/

/-- The calls that batches of changes lead to, told by suffixes: none for a batch without sources, and one for any other
batch, in the order of the batches. The paths of a call are those of the batch that have one of the suffixes, each of them
once, although a path can have changed in several ways and can be written in several ways. -/
inductive Dispatched : List (List Text) → List (List Path) → Prop
  | nil : Dispatched [] []
  | passed {changes : List Text} {batches : List (List Text)} {calls : List (List Path)}
    (foreign : ∀ text ∈ changes, (Path.ofText text).suffix ∉ dialects.map Prod.fst) (rest : Dispatched batches calls) :
    Dispatched (changes :: batches) calls
  | called {changes : List Text} {batches : List (List Text)} {paths : List Path} {calls : List (List Path)}
    (nonempty : paths ≠ []) (distinct : paths.Nodup)
    (sources : ∀ path, path ∈ paths ↔ path.suffix ∈ dialects.map Prod.fst ∧ ∃ text ∈ changes, Path.ofText text = path)
    (rest : Dispatched batches calls) : Dispatched (changes :: batches) (paths :: calls)

theorem dispatched_callsFor (batches : List (List Text)) : Dispatched batches (callsFor batches) := by
  induction batches with
  | nil => exact .nil
  | cons changes rest ih =>
    have sources (path : Path) : path ∈ changedSources changes ↔
        path.suffix ∈ dialects.map Prod.fst ∧ ∃ text ∈ changes, Path.ofText text = path := by
      rw [mem_changedSources, Path.isSource_iff, and_comm]
    by_cases none : changedSources changes = []
    · rw [callsFor_cons_of_none none]
      refine .passed (fun text changed watched => ?_) ih
      have noticed := (sources (.ofText text)).mpr ⟨watched, text, changed, rfl⟩
      rw [none] at noticed
      cases noticed
    · rw [callsFor_cons_of_some none]
      exact .called none (nodup_distinct _) sources ih

/-- Batches that come in bursts. The task goes on after each burst. -/
def deliveries (bursts : List (List (List Text))) : List Move :=
  bursts.flatMap fun burst => burst.map (fun changes => .bring (.changes changes)) ++ [.settle]

theorem live_bring (fails : Callback) (w : Watcher) (batches : List (List Text)) :
    live fails w (batches.map fun changes => .bring (.changes changes)) =
      ({ w with queue := w.queue ++ batches.map .changes }, []) := by
  rw [← foldl_enqueue]
  induction batches generalizing w with
  | nil => rfl
  | cons changes rest ih =>
    rw [List.map_cons, live, List.foldl_cons]
    exact ih (w.enqueue (.changes changes))

theorem live_burst (fails : Callback) {w : Watcher} (running : w.task = .running) (taken : w.queue = [])
    (burst : List (List Text)) :
    live fails w (burst.map (fun changes => .bring (.changes changes)) ++ [.settle]) =
      ({ w with calls := w.calls + (callsFor burst).length }, dispatchAll fails w.calls (callsFor burst)) := by
  have settled : settle fails { w with queue := burst.map .changes } =
      ({ w with calls := w.calls + (callsFor burst).length, queue := [] }, dispatchAll fails w.calls (callsFor burst)) := by
    rw [settle, if_pos running]
    exact consume_changes fails _ burst
  rw [live_append, live_bring, taken, List.nil_append, live, live, Move.make, settled, ← taken]
  simp only [List.nil_append, List.append_nil]

/-- The bursts do not show: a running task does what it does when all batches come at once. -/
theorem live_deliveries (fails : Callback) {w : Watcher} (running : w.task = .running) (taken : w.queue = [])
    (bursts : List (List (List Text))) :
    live fails w (deliveries bursts) =
      ({ w with calls := w.calls + (callsFor bursts.flatten).length },
        dispatchAll fails w.calls (callsFor bursts.flatten)) := by
  induction bursts generalizing w with
  | nil => rfl
  | cons burst bursts ih =>
    rw [deliveries, List.flatMap_cons, live_append, live_burst fails running taken]
    have later := ih (w := { w with calls := w.calls + (callsFor burst).length }) running taken
    rw [deliveries] at later
    rw [later]
    have calls : callsFor (burst :: bursts).flatten = callsFor burst ++ callsFor bursts.flatten := by
      simp [callsFor]
    rw [calls, dispatchAll_append, List.length_append, Nat.add_assoc]

/-- Batches that come to a started watcher, in whatever bursts. The callback is called once for each batch with a source
in it, in the order of the batches and with just the sources of the batch, and never for another batch. Nothing else is
done but to log the calls and their failures. However the calls end, the task runs on and has taken all batches. -/
theorem live_dispatches (fails : Callback) {w : Watcher} (running : (start w).1.task = .running) (taken : w.queue = [])
    (bursts : List (List (List Text))) :
    let lived := live fails (start w).1 (deliveries bursts)
    Dispatched bursts.flatten (calledWith lived.2) ∧
      lived.2 = dispatchAll fails w.calls (calledWith lived.2) ∧
      lived.1 = { (start w).1 with calls := w.calls + (calledWith lived.2).length } := by
  intro lived
  have frame : (start w).1.queue = w.queue ∧ (start w).1.calls = w.calls := by
    unfold start
    split <;> exact ⟨rfl, rfl⟩
  have all := live_deliveries fails running (frame.1.trans taken) bursts
  rw [frame.2] at all
  have calls : calledWith lived.2 = callsFor bursts.flatten :=
    (congrArg (fun lived => calledWith lived.2) all).trans (calledWith_dispatchAll fails _ _)
  rw [calls]
  exact ⟨dispatched_callsFor _, congrArg Prod.snd all, congrArg Prod.fst all⟩

set_option maxRecDepth 10000 in
theorem live_dispatches_twoBursts :
    let lived := live (fun call _ => call == 0) (start { directories := [.ofText "/w"] }).1
      (deliveries [[["/w/a.ts", "/w//a.ts", "/w/b.md"]], [["/w/b.md"], ["/w/c.tsx", "/w/a.mts"]]])
    calledWith lived.2 = [[.ofText "/w/a.ts"], [.ofText "/w/c.tsx", .ofText "/w/a.mts"]] ∧
      Dispatched [["/w/a.ts", "/w//a.ts", "/w/b.md"], ["/w/b.md"], ["/w/c.tsx", "/w/a.mts"]] (calledWith lived.2) := by
  refine ⟨by decide +kernel, ?_⟩
  exact (live_dispatches (fun call _ => call == 0) (w := { directories := [.ofText "/w"] }) rfl rfl
    [[["/w/a.ts", "/w//a.ts", "/w/b.md"]], [["/w/b.md"], ["/w/c.tsx", "/w/a.mts"]]]).1

/-! ### Turns -/

/-- The ends of a turn. -/
inductive Mark where
  | launched (directories : List Path)
  | stopped

/-- What an action tells about turns. -/
def Action.mark? : Action → Option Mark
  | watch directories => some (.launched directories)
  | notify _ => none
  | log record => if record = Log.watcherStopped then some .stopped else none

/-- The launches and stops among some actions, in order. -/
def marks (actions : List Action) : List Mark := actions.filterMap Action.mark?

/-- Turns of a watch over directories, one after the other. -/
def turns (directories : List Path) (count : Nat) : List Mark :=
  (List.replicate count [.launched directories, .stopped]).flatten

/-- The turn that a watcher is in while it holds a task. -/
def opening (w : Watcher) : List Mark := if w.task = .idle then [] else [.launched w.directories]

theorem marks_append (actions more : List Action) : marks (actions ++ more) = marks actions ++ marks more :=
  List.filterMap_append

theorem marks_dispatch (fails : Callback) (call : Nat) (paths : List Path) : marks (dispatch fails call paths) = [] := by
  have detected : Log.changesDetected paths.length ≠ Log.watcherStopped := by
    intro same
    have first := congrArg (fun record => record.message.head?) same
    cases first
  have failed : Log.callbackFailed ≠ Log.watcherStopped := by decide
  unfold dispatch
  split <;> simp [marks, Action.mark?, detected, failed]

/-- A running task neither launches nor stops a watch, and it is held when it has ended. -/
theorem consume_held (fails : Callback) {w : Watcher} (held : w.task ≠ .idle) (signals : List Signal) :
    marks (consume fails w signals).2 = [] ∧ (consume fails w signals).1.task ≠ .idle ∧
      (consume fails w signals).1.directories = w.directories := by
  induction signals generalizing w with
  | nil => exact ⟨rfl, held, rfl⟩
  | cons signal rest ih =>
    cases signal with
    | finish => exact ⟨rfl, by simp [consume], rfl⟩
    | failure message => exact ⟨rfl, by simp [consume], rfl⟩
    | changes changes =>
      rw [consume]
      split
      · exact ih held
      · obtain ⟨quiet, kept, same⟩ := ih (w := { w with calls := w.calls + 1 }) held
        refine ⟨?_, kept, same⟩
        rw [marks_append, marks_dispatch, quiet]
        rfl

theorem opening_of_held {w : Watcher} (held : w.task ≠ .idle) : w.opening = [.launched w.directories] := if_neg held

/-- What one move does to the turns of a watcher: it may begin one or complete one. -/
theorem Move.make_turns (fails : Callback) (w : Watcher) (move : Move) :
    (move.make fails w).1.directories = w.directories ∧
    ∃ count, w.opening ++ marks (move.make fails w).2 = turns w.directories count ++ (move.make fails w).1.opening := by
  -- a move that leaves the task as it is and does nothing
  have idle (queue : List Signal) : ({ w with queue } : Watcher).directories = w.directories ∧
      ∃ count, w.opening ++ marks [] = turns w.directories count ++ ({ w with queue } : Watcher).opening :=
    ⟨rfl, 0, List.append_nil _⟩
  have started : Log.watcherStarted w.directories ≠ Log.watcherStopped := by
    intro same
    have letter := congrArg (fun record => record.message[10]?) same
    cases letter
  cases move with
  | wait => exact idle w.queue
  | bring signal => exact idle (w.queue ++ [signal])
  | settle =>
    by_cases running : w.task = .running
    · have held : w.task ≠ .idle := by simp [running]
      obtain ⟨quiet, kept, same⟩ := consume_held fails held w.queue
      rw [make, Watcher.settle, if_pos running, opening_of_held held, opening_of_held kept, quiet, same]
      exact ⟨rfl, 0, rfl⟩
    · rw [make, Watcher.settle, if_neg running]
      exact idle w.queue
  | start =>
    rw [make, Watcher.start]
    split
    next none => exact ⟨rfl, 0, by simp [opening, none, marks, Action.mark?, started, turns]⟩
    · exact idle w.queue
  | stop =>
    rw [make, Watcher.stop]
    split
    · exact idle w.queue
    · exact idle w.queue
    next none _ =>
      have held : w.task ≠ .idle := none
      rw [opening_of_held held]
      exact ⟨rfl, 1, by simp [opening, marks, Action.mark?, turns, Except.toOption]⟩

theorem turns_add (directories : List Path) (count more : Nat) :
    turns directories (count + more) = turns directories count ++ turns directories more := by
  rw [turns, List.replicate_add, List.flatten_append]
  rfl

/-- What moves do to the turns of a watcher: they complete some, and may leave one open. -/
theorem live_turns (fails : Callback) (w : Watcher) (moves : List Move) :
    (live fails w moves).1.directories = w.directories ∧
    ∃ count, w.opening ++ marks (live fails w moves).2 = turns w.directories count ++ (live fails w moves).1.opening := by
  induction moves generalizing w with
  | nil => exact ⟨rfl, 0, List.append_nil _⟩
  | cons move moves ih =>
    obtain ⟨same, count, first⟩ := move.make_turns fails w
    obtain ⟨same', more, later⟩ := ih (move.make fails w).1
    refine ⟨same'.trans same, count + more, ?_⟩
    rw [live, marks_append, ← List.append_assoc, first, List.append_assoc, later, same, turns_add, List.append_assoc]

/-- A watcher that holds the task of a failed stream neither gets rid of it nor does anything. -/
theorem live_failed (fails : Callback) {w : Watcher} {message : Text} (failed : w.task = .done (some message))
    (moves : List Move) : (live fails w moves).1.task = .done (some message) ∧ (live fails w moves).2 = [] := by
  induction moves generalizing w with
  | nil => exact ⟨failed, rfl⟩
  | cons move moves ih =>
    have stuck : (move.make fails w).1.task = .done (some message) ∧ (move.make fails w).2 = [] := by
      cases move <;> simp [Move.make, Watcher.start, Watcher.stop, Watcher.settle, enqueue, failed, Except.toOption]
    obtain ⟨kept, nothing⟩ := ih stuck.1
    refine ⟨kept, ?_⟩
    rw [live, stuck.2, nothing]
    rfl

/-- A stop hands on the failure of a task, which then stays, or it returns and leaves no task. -/
theorem stop_cases (w : Watcher) :
    (∃ message, w.task = .done (some message) ∧ stop w = (w, .error message)) ∨
    ((∀ message, w.task ≠ .done (some message)) ∧
      ∃ actions, stop w = ({ w with task := .idle }, .ok actions)) := by
  obtain ⟨directories, task, calls, queue⟩ := w
  cases task with
  | idle => exact .inr ⟨by simp, [], rfl⟩
  | running => exact .inr ⟨by simp, [.log Log.watcherStopped], rfl⟩
  | done failure =>
    cases failure with
    | none => exact .inr ⟨by simp, [.log Log.watcherStopped], rfl⟩
    | some message => exact .inl ⟨message, rfl, rfl⟩

theorem start_of_idle {w : Watcher} (idle : w.task = .idle) :
    (start w).2 = [.log (Log.watcherStarted w.directories), .watch w.directories] := by
  simp only [start, idle]

/-- The life of a watcher over any sequence of calls of its methods, whatever its stream brings in between. It lives in
turns over its directories, so no watch is launched while one is held. A stop that returns leaves no task, and the next
start launches a watch over the same directories. A stop fails just if the stream of the watch has failed. The task is then
held for good, and nothing that follows leads to any action, not even to a new watch. -/
theorem life_in_turns (fails : Callback) (directories : List Path) (moves : List Move) :
    let w := (live fails { directories } moves).1
    (∃ count, marks (live fails { directories } moves).2 = turns directories count ++ w.opening) ∧
    (∀ actions, (stop w).2 = .ok actions → (stop w).1.task = .idle ∧
      (start (stop w).1).2 = [.log (Log.watcherStarted directories), .watch directories]) ∧
    (∀ message, (stop w).2 = .error message ↔ w.task = .done (some message)) ∧
    ∀ message, w.task = .done (some message) → ∀ later,
      (live fails w later).1.task = .done (some message) ∧ (live fails w later).2 = [] := by
  intro w
  obtain ⟨same, count, turned⟩ := live_turns fails { directories } moves
  refine ⟨⟨count, turned⟩, ?_, ?_, fun message failed later => live_failed fails failed later⟩
  · intro actions returned
    obtain ⟨message, -, stopped⟩ | ⟨-, _, stopped⟩ := stop_cases w
    · rw [stopped] at returned
      cases returned
    · rw [stopped, start_of_idle rfl]
      refine ⟨rfl, ?_⟩
      rw [same]
  · intro message
    obtain ⟨actual, failed, stopped⟩ | ⟨unfailed, _, stopped⟩ := stop_cases w
    · simp [stopped, failed]
    · simp [stopped, unfailed]

/-- A stream that fails. The stop hands the failure on and the watcher keeps the task, so the next start launches nothing. -/
theorem held_after_failed_stop :
    let w := (live (fun _ _ => false) { directories := [.ofText "/src"] }
      [.start, .bring (.failure "boom"), .settle]).1
    (stop w).2 = .error "boom" ∧ (stop w).1.task ≠ .idle ∧ (start (stop w).1).2 = [] :=
  ⟨rfl, by decide, rfl⟩

end Watcher
end SchemaTypes
