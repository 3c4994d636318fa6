/-
Daybook.Store — the rows behind all statistics.

The store is one table. Every entry that is saved stands in it twice, once
committed and once pending: pending rows follow the text as it is typed,
committed rows only follow an explicit save. Holidays have rows too, which no
query shows; the text of a holiday stands in the column of the comments.

Rows are filed under the key of their day and numbered as they are inserted;
a number is never given twice. Queries over a span of days compare keys.

§1 rows, §2 the table, §3 writing, §4 queries.
-/
import Daybook.Order
import Daybook.Sheet

namespace Daybook

/-! ## §1 Rows -/

/-- An entry as a statistic sees it. -/
structure Record where
  category : String
  hours : Nat
  minutes : Nat
  pending : Bool
deriving DecidableEq, Repr

/-- An entry as the breakdown of a day sees it. -/
structure DayEntry where
  entry : Entry
  pending : Bool
deriving DecidableEq, Repr

namespace DayEntry

/-- What a breakdown says about an entry: its task and its comment. -/
def description (e : DayEntry) : String :=
  match e.entry.task with
  | none => e.entry.comment
  | some task => if e.entry.comment.isEmpty then task else task ++ " " ++ e.entry.comment

/-- The part of an entry that statistics count. -/
def record (e : DayEntry) : Record where
  category := e.entry.category
  hours := e.entry.hours
  minutes := e.entry.minutes
  pending := e.pending

end DayEntry

/-- One row of the table, by its columns. -/
structure Row where
  id : Nat
  /-- The key of the day. -/
  key : Int
  holiday : Bool
  pending : Bool
  hours : Nat
  minutes : Nat
  comment : String
  task : Option String
  category : String
deriving DecidableEq, Repr

namespace Row

/-- What is inserted for an item. A holiday takes no time and has neither task nor category. -/
def ofItem (id : Nat) (key : Int) (pending : Bool) : Item → Row
  | .holiday h =>
    { id, key, pending, holiday := true, hours := 0, minutes := 0, comment := h.description,
      task := none, category := "" }
  | .entry e =>
    { id, key, pending, holiday := false, hours := e.hours, minutes := e.minutes,
      comment := e.comment, task := e.task, category := e.category }

/-- The entry that a row stands for; a holiday stands for none. -/
def entry? (r : Row) : Option Entry :=
  if r.holiday then none
  else some
    { category := r.category, hours := r.hours, minutes := r.minutes, task := r.task,
      comment := r.comment }

/-- What the breakdown of a day takes from a row. -/
def dayEntry? (r : Row) : Option DayEntry :=
  r.entry?.map fun entry => { entry, pending := r.pending }

/-- What a statistic takes from a row. -/
def record? (r : Row) : Option Record :=
  if r.holiday then none
  else some { category := r.category, hours := r.hours, minutes := r.minutes, pending := r.pending }

/-- By the key of the day, then by number. -/
def keyOrder (a b : Row) : Bool := a.key < b.key || (a.key == b.key && a.id ≤ b.id)

/-- Committed rows first, then by number. -/
def pendingOrder (a b : Row) : Bool :=
  (!a.pending && b.pending) || (a.pending == b.pending && a.id ≤ b.id)

section Columns

variable (id : Nat) (key : Int) (pending : Bool) (item : Item)

@[simp] theorem id_ofItem : (ofItem id key pending item).id = id := by cases item <;> rfl

@[simp] theorem key_ofItem : (ofItem id key pending item).key = key := by cases item <;> rfl

@[simp] theorem pending_ofItem : (ofItem id key pending item).pending = pending := by
  cases item <;> rfl

/-- No column of an entry is mixed up with another on the way into the table and out of it. -/
@[simp] theorem entry?_ofItem : entry? (ofItem id key pending item) = item.entry? := by
  cases item <;> rfl

end Columns

/-- Statistics and breakdowns agree about a row. -/
theorem record?_eq (r : Row) : r.record? = r.dayEntry?.map DayEntry.record := by
  unfold record? dayEntry? entry?
  cases r.holiday <;> rfl

end Row

/-! ## §2 The table -/

/-- The table of rows, in the order of their numbers, and the next number to give. -/
structure Store where
  rows : List Row := []
  nextId : Nat := 1
deriving DecidableEq, Repr

namespace Store

def empty : Store := {}

/-! ## §3 Writing -/

/-- Adds a row for each of the items. -/
def insert (s : Store) (key : Int) (pending : Bool) : List Item → Store
  | [] => s
  | item :: items =>
    insert { rows := s.rows ++ [.ofItem s.nextId key pending item], nextId := s.nextId + 1 }
      key pending items

/-- Keeps the rows that satisfy `p`. -/
def keep (s : Store) (p : Row → Bool) : Store := { s with rows := s.rows.filter p }

/-- Saves a sheet: all rows of its day are replaced, the committed ones first. -/
def save (s : Store) (sheet : Sheet) : Store :=
  let key := sheet.date.key
  ((s.keep fun r => r.key ≠ key).insert key false sheet.items).insert key true sheet.items

/-- Saves a draft: only the pending rows of its day are replaced. -/
def saveDraft (s : Store) (sheet : Sheet) : Store :=
  let key := sheet.date.key
  (s.keep fun r => !(r.key = key ∧ r.pending)).insert key true sheet.items

/-! ## §4 Queries -/

/-- The rows of the days from `first` to `last`, day by day. -/
def spanRows (s : Store) (first last : Day) : List Row :=
  Order.sortBy Row.keyOrder (s.rows.filter fun r => first.key ≤ r.key ∧ r.key ≤ last.key)

/-- The records of the days from `first` to `last`. -/
def recordsBetween (s : Store) (first last : Day) : List Record :=
  (s.spanRows first last).filterMap Row.record?

def daily (s : Store) (d : Day) : List Record := s.recordsBetween d d

def inSpan (s : Store) (span : Day.Span) : List Record := s.recordsBetween span.first span.last

/-- The rows of a day, the committed ones before the pending ones. -/
def dayRows (s : Store) (d : Day) : List Row :=
  Order.sortBy Row.pendingOrder (s.rows.filter fun r => r.key = d.key)

def dayEntries (s : Store) (d : Day) : List DayEntry := (s.dayRows d).filterMap Row.dayEntry?

end Store

end Daybook
