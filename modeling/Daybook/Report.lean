/-
Daybook.Report — totals as texts.

The report of a day breaks its pending entries down by category and closes
with the committed totals of week and month. The hover summary shows the
dirty totals of the day alone.

§1 lines of text, §2 the breakdown of a day, §3 the report, §4 the hover
summary.
-/
import Daybook.Statistics

namespace Daybook.Report

/-! ## §1 Lines of text -/

def fileName (d : Day) : String := "report-timesheet-" ++ d.render ++ ".txt"

def unlines (lines : List String) : String := String.join (lines.map (· ++ "\n"))

def sorted (totals : List CategoryTotals) : List CategoryTotals :=
  Order.sortBy (fun a b => a.category ≤ b.category) totals

/-! ## §2 The breakdown of a day -/

/-- A category and its pending entries, in order. -/
structure Group where
  category : String
  pending : List DayEntry
deriving DecidableEq, Repr

/-- Adds an entry among groups that are sorted by category. An entry that is
not pending makes its category appear, and nothing else. -/
def groupEntry (e : DayEntry) : List Group → List Group
  | [] => [⟨e.entry.category, if e.pending then [e] else []⟩]
  | g :: gs =>
    if e.entry.category = g.category then
      { g with pending := g.pending ++ if e.pending then [e] else [] } :: gs
    else if e.entry.category < g.category then
      ⟨e.entry.category, if e.pending then [e] else []⟩ :: g :: gs
    else g :: groupEntry e gs

/-- The groups of the entries of a day, sorted by category. -/
def groups (entries : List DayEntry) : List Group :=
  entries.foldl (fun gs e => groupEntry e gs) []

/-- The minutes of a group. The sum has no bound here: it is that of a counter of 32 bits as long as
it stays below `2 ^ 32`, as it does for the first two million entries of a day. -/
def Group.minutes (g : Group) : Nat :=
  g.pending.foldr (fun e n => Total.minutesOf e.entry.hours e.entry.minutes + n) 0

/-- The line of one entry: its time, and what it was about if it says so. -/
def entryLine (e : DayEntry) : String :=
  let time := WorkTime.decimalHours e.entry.hours e.entry.minutes
  if e.description.isEmpty then time else time ++ " " ++ e.description

def Group.header (g : Group) : String := g.category ++ " " ++ Total.clockOf g.minutes

def Group.lines (g : Group) : List String := g.header :: g.pending.map entryLine

/-! ## §3 The report -/

/-- The lines of committed totals, sorted by category. -/
def committedLines (totals : List CategoryTotals) : List String :=
  (sorted totals).map fun t => t.category ++ " " ++ t.committed.decimal

/-- The report of a day. -/
def render (d : Day) (entries : List DayEntry) (weekly monthly : List CategoryTotals) : String :=
  unlines <|
    ["For " ++ d.render, "Daily statistics"] ++ (groups entries).flatMap Group.lines ++
    ["", "Weekly statistics"] ++ committedLines weekly ++
    ["", "Monthly statistics"] ++ committedLines monthly

/-! ## §4 The hover summary -/

def hoverLine (t : CategoryTotals) : String := t.category ++ ": " ++ t.dirty.paddedClock

def renderHover (d : Day) (daily : List CategoryTotals) : String :=
  unlines (("Daily statistics for " ++ d.render) :: (sorted daily).map hoverLine) ++ "End"

end Daybook.Report
