/-
Daybook.Editor.Debouncer — waiting until nothing happens.

An action runs once nothing of its kind has happened for a while: scheduling
it replaces the one that waits under the same key, and starts a new window.
Time is a number of milliseconds that only moves forward, so actions fall due
in the order in which they were scheduled.

§1 keys, §2 what waits, §3 operations.
-/

namespace Daybook.Editor

/-! ## §1 Keys -/

/-- Which actions replace each other. -/
inductive Scope where
  /-- Those of one kind and one document. -/
  | document
  /-- All of one kind. -/
  | everything
deriving DecidableEq, Repr

def Scope.key (s : Scope) (kind uri : String) : String :=
  match s with
  | document => kind ++ ":" ++ uri
  | everything => kind

/-! ## §2 What waits -/

/-- An action that waits until it is due. -/
structure Waiting (α : Type) where
  key : String
  due : Nat
  action : α
deriving DecidableEq, Repr

/-- The actions that wait, in the order in which they were scheduled. -/
structure Debouncer (α : Type) where
  /-- How long an action waits. -/
  window : Nat
  scope : Scope
  now : Nat := 0
  waiting : List (Waiting α) := []
deriving DecidableEq, Repr

namespace Debouncer

variable {α : Type}

/-! ## §3 Operations -/

/-- Schedules an action, in the place of the one under its key. -/
def schedule (d : Debouncer α) (kind uri : String) (action : α) : Debouncer α :=
  let key := d.scope.key kind uri
  { d with
    waiting := d.waiting.filter (·.key ≠ key) ++ [{ key, due := d.now + d.window, action }] }

/-- Lets time pass; the actions that fall due are handed over, with the time
of each. -/
def advance (d : Debouncer α) (ms : Nat) : Debouncer α × List (Waiting α) :=
  let now := d.now + ms
  ({ d with now, waiting := d.waiting.filter (now < ·.due) }, d.waiting.filter (·.due ≤ now))

def flush (d : Debouncer α) : Debouncer α × List α :=
  ({ d with waiting := [] }, d.waiting.map (·.action))

def cancel (d : Debouncer α) : Debouncer α := { d with waiting := [] }

end Debouncer

end Daybook.Editor
