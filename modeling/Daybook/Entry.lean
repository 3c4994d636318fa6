/-
Daybook.Entry — what a line of a day file records.

A line records either work, an entry, or that the day is a holiday. An entry
may hold any hours and minutes; `violation?` says whether they make sense,
and names the first bound that is broken: hours, then minutes, then the rule
that an entry takes some time at all.
-/
import Daybook.Day
import Daybook.Text.Digits

namespace Daybook

/-! ## §1 Entries -/

/-- Recorded work: its category, its time, and what it was about. -/
structure Entry where
  category : String
  hours : Nat
  minutes : Nat
  task : Option String
  comment : String
deriving DecidableEq, Repr, Inhabited

/-- A bound that an entry breaks. -/
inductive Violation where
  | hoursOutOfRange (hours : Nat)
  | minutesOutOfRange (minutes : Nat)
  | zeroDuration
deriving DecidableEq, Repr

def Violation.message : Violation → String
  | hoursOutOfRange hours => "hours cannot be more than 23, got " ++ Text.decimal hours
  | minutesOutOfRange minutes => "minutes cannot be more than 59, got " ++ Text.decimal minutes
  | zeroDuration => "hours and minutes cannot be both 0"

namespace Entry

/-- The first bound that an entry breaks, if it breaks one. -/
def violation? (e : Entry) : Option Violation :=
  if 24 ≤ e.hours then some (.hoursOutOfRange e.hours)
  else if 60 ≤ e.minutes then some (.minutesOutOfRange e.minutes)
  else if e.hours = 0 ∧ e.minutes = 0 then some .zeroDuration
  else none

theorem violation?_eq_none_iff {e : Entry} :
    e.violation? = none ↔
      e.hours < 24 ∧ e.minutes < 60 ∧ ¬ (e.hours = 0 ∧ e.minutes = 0) := by
  unfold violation?
  by_cases hhours : 24 ≤ e.hours
  · simp [hhours, Nat.not_lt.mpr hhours]
  · by_cases hminutes : 60 ≤ e.minutes
    · simp [hhours, hminutes, Nat.not_lt.mpr hminutes]
    · simp [hhours, hminutes, Nat.lt_of_not_le]

def taskName (e : Entry) : String := e.task.getD ""

end Entry

/-! ## §2 Holidays and items -/

/-- A day off. -/
structure Holiday where
  date : Day
  description : String
deriving DecidableEq, Repr

/-- What one line records. -/
inductive Item where
  | entry (entry : Entry)
  | holiday (holiday : Holiday)
deriving DecidableEq, Repr

namespace Item

def isHoliday : Item → Bool
  | entry _ => false
  | holiday _ => true

def entry? : Item → Option Entry
  | entry e => some e
  | holiday _ => none

/-- The first bound that an item breaks; a holiday breaks none. -/
def violation? : Item → Option Violation
  | entry e => e.violation?
  | holiday _ => none

end Item

end Daybook
