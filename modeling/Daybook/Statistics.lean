/-
Daybook.Statistics — totals per category.

The records of a span of days are tallied by category. Each category has two
totals: the dirty one counts pending records, the committed one the others.
Hours and minutes are summed apart and stop at the largest count; they are
carried into each other only when a total is shown.

§1 one total, §2 how totals are shown, §3 the tally.
-/
import Daybook.Duration
import Daybook.Store

namespace Daybook

/-! ## §1 Totals -/

/-- The hours and minutes of one category. -/
structure Total where
  category : String
  hours : Nat := 0
  minutes : Nat := 0
  overtime : Bool := false
deriving DecidableEq, Repr

namespace Total

/-- Adds hours and minutes, each for itself. -/
def add (t : Total) (hours minutes : Nat) : Total :=
  { t with hours := Counter.cap (t.hours + hours), minutes := Counter.cap (t.minutes + minutes) }

def minutesOf (hours minutes : Nat) : Nat := Counter.cap (Counter.cap (hours * 60) + minutes)

def totalMinutes (t : Total) : Nat := minutesOf t.hours t.minutes

/-! ## §2 Showing totals -/

/-- The hours of a total, its minutes carried. -/
def wholeHours (t : Total) : Nat := t.totalMinutes / 60

def restMinutes (t : Total) : Nat := t.totalMinutes % 60

/-- A number of minutes as `H:MM`. -/
def clockOf (minutes : Nat) : String :=
  Text.decimal (minutes / 60) ++ ":" ++ Text.paddedDecimal 2 (minutes % 60)

/-- A total as `H:MM`. -/
def clock (t : Total) : String := clockOf t.totalMinutes

/-- A total as `HH:MM`. -/
def paddedClock (t : Total) : String :=
  Text.paddedDecimal 2 t.wholeHours ++ ":" ++ Text.paddedDecimal 2 t.restMinutes

/-- A total in decimal hours. -/
def decimal (t : Total) : String := WorkTime.decimalHours t.wholeHours t.restMinutes

end Total

/-! ## §3 The tally -/

/-- The two totals of one category. -/
structure CategoryTotals where
  category : String
  dirty : Total
  committed : Total
deriving DecidableEq, Repr

namespace CategoryTotals

/-- The totals of a category that no record has been counted for. -/
def zero (category : String) (overtime : Bool) : CategoryTotals where
  category := category
  dirty := { category, overtime }
  committed := { category, overtime }

def add (t : CategoryTotals) (r : Record) : CategoryTotals :=
  if r.pending then { t with dirty := t.dirty.add r.hours r.minutes }
  else { t with committed := t.committed.add r.hours r.minutes }

end CategoryTotals

/-- Counts a record among totals that are sorted by category. -/
def tallyRecord (isOvertime : String → Bool) (r : Record) : List CategoryTotals → List CategoryTotals
  | [] => [(CategoryTotals.zero r.category (isOvertime r.category)).add r]
  | t :: ts =>
    if r.category = t.category then t.add r :: ts
    else if r.category < t.category then
      (CategoryTotals.zero r.category (isOvertime r.category)).add r :: t :: ts
    else t :: tallyRecord isOvertime r ts

/-- The totals of the categories that occur in `records`, sorted by category. -/
def tally (isOvertime : String → Bool) (records : List Record) : List CategoryTotals :=
  records.foldl (fun totals r => tallyRecord isOvertime r totals) []

end Daybook
