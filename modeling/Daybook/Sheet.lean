/-
Daybook.Sheet — the items of one day.

A sheet belongs to a day. It takes valid entries and holidays of that very
day, and an item it refuses leaves it as it was.

§1 sheets, §2 adding, §3 the same on a sheet that is changed in place, §4 the
time that was expected and the time that was worked.
-/
import Daybook.Day.Text
import Daybook.Entry

namespace Daybook

/-! ## §1 Sheets -/

/-- The items of one day, in the order in which they were added. -/
structure Sheet where
  date : Day
  items : List Item := []
deriving DecidableEq, Repr

/-- Why a sheet refuses an item. -/
inductive Refusal where
  | invalidEntry (violation : Violation)
  | otherDay (holiday sheet : Day)
deriving DecidableEq, Repr

def Refusal.message : Refusal → String
  | invalidEntry v => "invalid entry: " ++ v.message
  | otherDay holiday sheet =>
    "holiday date " ++ holiday.render ++ " does not match timesheet date " ++ sheet.render

namespace Sheet

/-! ## §2 Adding -/

/-- Appends an entry that breaks no bound. -/
def addEntry (s : Sheet) (e : Entry) : Except Refusal Sheet :=
  match e.violation? with
  | some v => throw (.invalidEntry v)
  | none => pure { s with items := s.items ++ [.entry e] }

def addHoliday (s : Sheet) (h : Holiday) : Except Refusal Sheet :=
  if h.date = s.date then pure { s with items := s.items ++ [.holiday h] }
  else throw (.otherDay h.date s.date)

/-- Appends an item of either kind. -/
def add (s : Sheet) : Item → Except Refusal Sheet
  | .entry e => s.addEntry e
  | .holiday h => s.addHoliday h

def clear (s : Sheet) : Sheet := { s with items := [] }

/-- The entries of a sheet, holidays left out. -/
def entries (s : Sheet) : List Entry := s.items.filterMap Item.entry?

/-! ## §3 Sheets changed in place -/

/-- A step on a sheet that is changed in place. A refusal is thrown, and what
has been changed before it stays changed. -/
abbrev InPlace := ExceptT Refusal (StateM Sheet)

namespace InPlace

/-- Puts an item behind the others, whatever it is. -/
def push (item : Item) : InPlace Unit := modify fun s => { s with items := s.items ++ [item] }

/-- Adds an entry that breaks no bound. -/
def addEntry (e : Entry) : InPlace Unit :=
  match e.violation? with
  | some v => throw (.invalidEntry v)
  | none => push (.entry e)

def addHoliday (h : Holiday) : InPlace Unit := do
  let s ← get
  if h.date = s.date then push (.holiday h) else throw (.otherDay h.date s.date)

end InPlace

/-- What can be done to a sheet. -/
inductive Action where
  | add (item : Item)
  | addEntry (entry : Entry)
  | addHoliday (holiday : Holiday)
  | clear
deriving DecidableEq, Repr

def Action.perform : Action → InPlace Unit
  | add (.entry e) => InPlace.addEntry e
  | add (.holiday h) => InPlace.addHoliday h
  | addEntry e => InPlace.addEntry e
  | addHoliday h => InPlace.addHoliday h
  | clear => modify Sheet.clear

/-- What comes of an action, and the sheet that it leaves. -/
def act (s : Sheet) (a : Action) : Except Refusal Unit × Sheet := (a.perform.run.run s).run

/-! ## §4 Time -/

def regularHours : Nat := 8

/-- The hours expected on the day of a sheet: none on a holiday. -/
def expectedHours (s : Sheet) : Nat := if s.items.any Item.isHoliday then 0 else regularHours

/-- The hours of an entry as a single-precision number. -/
def hoursOf (e : Entry) : Float32 := .ofNat e.hours + .ofNat e.minutes / 60

/-- The hours worked, summed in single precision in the order of the items. -/
def workedHours (s : Sheet) : Float32 := (s.entries.map hoursOf).foldl (· + ·) 0

end Sheet

end Daybook
