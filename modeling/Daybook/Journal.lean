/-
Daybook.Journal — rules and store together.

A journal records the text of a day, as a draft or as a save, and answers
questions about what it has recorded. A text that yields no item changes
nothing, so a file that is cleared by mistake erases no work.

§1 recording, §2 questions.
-/
import Daybook.Analysis
import Daybook.Report

namespace Daybook

/-! ## §1 Recording -/

/-- How a text is recorded. -/
inductive WriteMode where
  /-- Only the pending rows of the day follow the text. -/
  | draft
  /-- The committed rows follow as well. -/
  | save
deriving DecidableEq, Repr

def WriteMode.name : WriteMode → String
  | draft => "draft"
  | save => "save"

/-- A classifier and the store its entries go to. -/
structure Journal where
  classifier : Classifier
  store : Store := Store.empty

namespace Journal

def reader (j : Journal) (d : Day) : Line.Reader := { classifier := j.classifier, day := d }

/-- Adds items to a sheet; what the sheet refuses is reported at line 0. -/
def fillSheet (sheet : Sheet) : List Item → Sheet × List LineProblem
  | [] => (sheet, [])
  | item :: items =>
    match sheet.add item with
    | .ok sheet => fillSheet sheet items
    | .error refusal =>
      let (filled, problems) := fillSheet sheet items
      (filled, { line := 0, length := 0, problem := .ofRefusal refusal } :: problems)

/-- Writes a sheet in the given mode. -/
def write (s : Store) (sheet : Sheet) : WriteMode → Store
  | .draft => s.saveDraft sheet
  | .save => s.save sheet

/-- Records the text of a day, unless it yields no item. -/
def record (j : Journal) (text : String) (d : Day) (mode : WriteMode) : Journal × Analysis :=
  let analysis := analyze (j.reader d) text
  if analysis.items.isEmpty then (j, analysis)
  else
    let (sheet, problems) := fillSheet { date := d } analysis.items
    ({ j with store := write j.store sheet mode },
      { analysis with problems := analysis.problems ++ problems })

/-! ## §2 Questions -/

def readLine? (j : Journal) (line : String) (d : Day) : Option Item :=
  ((j.reader d).readValid line).toOption

def totals (j : Journal) (records : List Record) : List CategoryTotals :=
  tally j.classifier.isOvertime records

def daily (j : Journal) (d : Day) : List CategoryTotals := j.totals (j.store.daily d)

/-- The totals of the week of a day, within its month. -/
def weekly (j : Journal) (d : Day) : List CategoryTotals := j.totals (j.store.inSpan d.weekSpan)

def monthly (j : Journal) (d : Day) : List CategoryTotals := j.totals (j.store.inSpan d.monthSpan)

def dayEntries (j : Journal) (d : Day) : List DayEntry := j.store.dayEntries d

def hover (j : Journal) (d : Day) : String := Report.renderHover d (j.daily d)

def report (j : Journal) (d : Day) : String :=
  Report.render d (j.dayEntries d) (j.weekly d) (j.monthly d)

end Journal

end Daybook
