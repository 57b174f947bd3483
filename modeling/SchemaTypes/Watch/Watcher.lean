import SchemaTypes.Log
import SchemaTypes.Watch.Batch

/-!
The life cycle of a watcher. At most one watch task exists at a time; a task that has ended stays until it is stopped,
and one that failed cannot be stopped.
-/

namespace SchemaTypes

/-- What the stream of a watch brings. -/
inductive Watch.Signal where
  | changes (paths : List Text)
  | finish
  | failure (message : Text)

/-- The watch task. -/
inductive Watch.Task where
  | idle
  | running
  /-- The stream has ended, possibly by a failure. -/
  | done (failure : Option Text)
  deriving DecidableEq, Repr

structure Watcher where
  directories : List Path
  task : Watch.Task := .idle
  /-- How often the callback has been called. -/
  calls : Nat := 0
  /-- Signals that no task has taken yet. They outlive a task. -/
  queue : List Watch.Signal := []

/-- What a watcher does that can be seen from outside. -/
inductive Watcher.Action where
  | watch (directories : List Path)
  /-- The callback is called with a set of paths, in the order of their first occurrence. -/
  | notify (paths : List Path)
  | log (record : Log.Record)

namespace Watcher

open Watch

/-- How a callback behaves: whether it fails at its call of a given number, with given paths. -/
abbrev Callback := Nat → List Path → Bool

/-- Hand the sources of a batch to a callback at its call of a given number. A failing callback is logged. -/
def dispatch (fails : Callback) (call : Nat) (paths : List Path) : List Action :=
  [.log (Log.changesDetected paths.length), .notify paths] ++
    if fails call paths then [.log Log.callbackFailed] else []

/-- Let a running task take the signals of its queue until none is left or the stream ends. A batch without sources
leads to no call. -/
def consume (fails : Callback) (w : Watcher) : List Signal → Watcher × List Action
  | [] => ({ w with queue := [] }, [])
  | .finish :: rest => ({ w with task := .done none, queue := rest }, [])
  | .failure message :: rest => ({ w with task := .done (some message), queue := rest }, [])
  | .changes changes :: rest =>
    match changedSources changes with
    | [] => consume fails w rest
    | paths =>
      let (next, actions) := consume fails { w with calls := w.calls + 1 } rest
      (next, dispatch fails w.calls paths ++ actions)

/-- Let the task, if it runs, do what it can. -/
def settle (fails : Callback) (w : Watcher) : Watcher × List Action :=
  if w.task = .running then consume fails w w.queue else (w, [])

/-- Start a task, unless there is one. -/
def start (w : Watcher) : Watcher × List Action :=
  match w.task with
  | .idle => ({ w with task := .running }, [.log (Log.watcherStarted w.directories), .watch w.directories])
  | _ => (w, [])

/-- Stop the task, if there is one. The failure of a task is handed on, and such a task stays. -/
def stop (w : Watcher) : Watcher × Except Text (List Action) :=
  match w.task with
  | .idle => (w, .ok [])
  | .done (some message) => (w, .error message)
  | _ => ({ w with task := .idle }, .ok [.log Log.watcherStopped])

/-- Wait for the task to end. The failure of a task is handed on. -/
def wait (w : Watcher) : Except Text Unit :=
  match w.task with
  | .done (some message) => .error message
  | _ => .ok ()

def enqueue (w : Watcher) (signal : Signal) : Watcher := { w with queue := w.queue ++ [signal] }

end Watcher
end SchemaTypes
