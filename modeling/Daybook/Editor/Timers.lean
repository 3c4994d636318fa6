/-
Daybook.Editor.Timers — how the actions that wait are kept.

An action that is scheduled lies in a slot. A task of its own sleeps for the
window and then runs what it finds in the slot; a flush may have been faster.
A table holds for every key the task that was started last, so that the next
one under the key can abort it. A task that has run stays in the table until
the table is swept, which is before it is changed and before it is counted.

§1 tasks, §2 timers, §3 operations, §4 steps, §5 timers seen from outside.
-/
import Daybook.Editor.Debouncer

namespace Daybook.Editor

variable {α : Type}

/-! ## §1 Tasks -/

/-- How far a task has come. -/
inductive Progress where
  | asleep
  | finished
  | aborted
deriving DecidableEq, Repr

/-- A task, the slot of its action, and the time at which it wakes. -/
structure Task (α : Type) where
  due : Nat
  slot : Option α
  progress : Progress := .asleep
deriving DecidableEq, Repr

namespace Task

/-- A task that is not asleep can no longer be aborted. -/
def abort (task : Task α) : Task α :=
  if task.progress = .asleep then { task with progress := .aborted } else task

def isDue (now : Nat) (task : Task α) : Bool := task.progress = .asleep ∧ task.due ≤ now

/-- A task that is due takes the action out of its slot, and is through. -/
def wake (now : Nat) (task : Task α) : Task α :=
  if task.isDue now then { task with slot := none, progress := .finished } else task

/-- The action is taken out of its slot by someone else, and the task aborted. -/
def overtake (task : Task α) : Task α := { task.abort with slot := none }

end Task

/-- An action that was run: the number of its task, and when. -/
structure Run (α : Type) where
  number : Nat
  time : Nat
  action : α
deriving DecidableEq, Repr

/-! ## §2 Timers -/

/-- Tasks and the table that holds some of them. -/
structure Timers (α : Type) where
  /-- How long a task sleeps. -/
  window : Nat
  scope : Scope
  now : Nat := 0
  /-- All tasks that were started; the number of a task is its place. -/
  tasks : List (Task α) := []
  /-- The keys, each with the number of its task. -/
  table : List (String × Nat) := []
deriving DecidableEq, Repr

namespace Timers

def isAsleep (t : Timers α) (n : Nat) : Bool := (t.tasks[n]?).any (·.progress = .asleep)

def isFinished (t : Timers α) (n : Nat) : Bool := (t.tasks[n]?).any (·.progress = .finished)

/-- What is run when the action of a task is taken out of its slot at `time`. -/
def run? (t : Timers α) (n time : Nat) : Option (Run α) :=
  ((t.tasks[n]?).bind (·.slot)).map fun action => { number := n, time, action }

/-- What a task runs when it wakes. -/
def fire? (t : Timers α) (now n : Nat) : Option (Run α) :=
  (t.tasks[n]?).bind fun task => if task.isDue now then t.run? n task.due else none

/-! ## §3 Operations -/

/-- Drops the tasks that have run from the table. -/
def sweep (t : Timers α) : Timers α :=
  { t with table := t.table.filter fun e => !t.isFinished e.2 }

def remove (t : Timers α) (key : String) : Timers α :=
  { t with
    tasks := (t.table.lookup key).elim t.tasks fun n => t.tasks.modify n Task.abort
    table := t.table.filter (·.1 ≠ key) }

/-- Starts a task for an action, and puts it into the table. -/
def start (t : Timers α) (key : String) (action : α) : Timers α :=
  { t with
    tasks := t.tasks ++ [{ due := t.now + t.window, slot := some action }]
    table := t.table ++ [(key, t.tasks.length)] }

/-- Starts a task for an action, in the place of the one under its key. -/
def schedule (t : Timers α) (kind uri : String) (action : α) : Timers α :=
  let key := t.scope.key kind uri
  (t.sweep.remove key).start key action

/-- Lets time pass; the tasks that fall due run their actions. -/
def advance (t : Timers α) (ms : Nat) : Timers α × List (Run α) :=
  let now := t.now + ms
  ({ t with now, tasks := t.tasks.map (Task.wake now) },
    (List.range t.tasks.length).filterMap (t.fire? now))

/-- How many tasks are left in the table once it is swept. -/
def pending (t : Timers α) : Timers α × Nat := (t.sweep, t.sweep.table.length)

/-- Aborts the tasks of some entries and runs what is still in their slots. -/
def overtakeAll (t : Timers α) : List (String × Nat) → Timers α × List (Run α)
  | [] => (t, [])
  | (_, n) :: entries =>
    let (t', rest) := overtakeAll { t with tasks := t.tasks.modify n Task.overtake } entries
    (t', (t.run? n t.now).toList ++ rest)

/-- Empties the table and runs every action that still waits. -/
def flush (t : Timers α) : Timers α × List (Run α) := overtakeAll { t with table := [] } t.table

/-- Empties the table, and changes each task that it held. -/
def dismiss (t : Timers α) (f : Task α → Task α) : Timers α :=
  { t with tasks := t.table.foldl (fun tasks e => tasks.modify e.2 f) t.tasks, table := [] }

/-- Empties the table and drops every action that still waits. -/
def cancel (t : Timers α) : Timers α := t.dismiss Task.abort

/-! ## §4 Steps -/

end Timers

/-- What is done with timers. -/
inductive Step (α : Type) where
  | schedule (kind uri : String) (action : α)
  /-- Time passes, in milliseconds. -/
  | advance (ms : Nat)
  | flush
  | cancel
  /-- The actions that wait are counted. -/
  | count
deriving DecidableEq, Repr

namespace Timers

/-- The timers after a step, and what it runs. -/
def perform (t : Timers α) : Step α → Timers α × List (Run α)
  | .schedule kind uri action => (t.schedule kind uri action, [])
  | .advance ms => t.advance ms
  | .flush => t.flush
  | .cancel => (t.cancel, [])
  | .count => (t.pending.1, [])

/-! ## §5 Seen from outside -/

def waiting? (t : Timers α) (e : String × Nat) : Option (Waiting α) :=
  (t.tasks[e.2]?).bind fun task =>
    if task.progress = .asleep then
      task.slot.map fun action => { key := e.1, due := task.due, action }
    else none

/-- The actions that wait, without the tasks that keep them. -/
def view (t : Timers α) : Debouncer α :=
  { window := t.window, scope := t.scope, now := t.now, waiting := t.table.filterMap t.waiting? }

end Timers

/-- What a step does to actions that are kept without tasks, and what it hands over, with the
time of each. -/
def Debouncer.perform (d : Debouncer α) : Step α → Debouncer α × List (Nat × α)
  | .schedule kind uri action => (d.schedule kind uri action, [])
  | .advance ms => ((d.advance ms).1, (d.advance ms).2.map fun w => (w.due, w.action))
  | .flush => (d.flush.1, d.flush.2.map fun action => (d.now, action))
  | .cancel => (d.cancel, [])
  | .count => (d, [])

end Daybook.Editor
