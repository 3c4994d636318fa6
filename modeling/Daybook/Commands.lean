/-
Daybook.Commands — what the commands print.

Each command prints lines of text. Those that read a day file first print its
problems, each with the file and the line it stands on; blank lines are no
problems here.

§1 problems, §2 checking and saving, §3 marks, §4 categories, §5 reports.
-/
import Daybook.Files
import Daybook.Highlight
import Daybook.Journal
import Daybook.Json.Printer

namespace Daybook.Commands

/-! ## §1 Problems -/

/-- What is printed about the text of a file, and how many problems it has. -/
structure Printed where
  output : String
  problems : Nat
deriving DecidableEq, Repr

def messages (categories : List String) (problems : List LineProblem) : List (Nat × String) :=
  problems.filterMap fun p => (p.problem.advice? categories).map fun message => (p.line, message)

def messageLine (file : String) (message : Nat × String) : String :=
  file ++ ":" ++ Text.decimal (message.1 + 1) ++ ": " ++ message.2

def printProblems (file : String) (categories : List String) (problems : List LineProblem)
    (last : Nat → String) : Printed :=
  let shown := messages categories problems
  { output := Report.unlines (shown.map (messageLine file) ++ [last shown.length])
    problems := shown.length }

/-! ## §2 Checking and saving -/

def check (c : Classifier) (file text : String) (d : Day) : Printed :=
  let analysis := analyze { classifier := c, day := d } text
  printProblems file c.categories analysis.problems fun count =>
    d.render ++ ": " ++ Text.decimal analysis.items.length ++ " items, " ++
      Text.decimal count ++ " errors"

def storedLine (d : Day) (mode : WriteMode) (items : List Item) : String :=
  if items = [] then "Nothing to store for " ++ d.render
  else "Stored " ++ Text.decimal items.length ++ " items for " ++ d.render ++
    " (" ++ mode.name ++ ")"

def save (j : Journal) (file text : String) (d : Day) (mode : WriteMode) : Journal × Printed :=
  let (j, analysis) := j.record text d mode
  (j, printProblems file j.classifier.categories analysis.problems fun _ =>
    storedLine d mode analysis.items)

/-! ## §3 Marks -/

def paddedKind (kind : Highlight.Kind) : String :=
  kind.name ++ String.ofList (List.replicate (8 - kind.name.length) ' ')

def markLine (lines : List String) (m : Highlight.Mark) : String :=
  let word := Text.Utf8.slice? (lines.getD m.line "").toList m.column m.length
  Text.decimal (m.line + 1) ++ ":" ++ Text.decimal m.column ++ " " ++ paddedKind m.kind ++ " " ++
    String.ofList (word.getD [])

/-- The marks of a text, as the numbers an editor gets or line by line; columns
are counted in bytes. -/
def tokens (c : Classifier) (text : String) (d : Day) (encoded : Bool) : String :=
  let lines := Text.linesOf text
  let marks := Highlight.mark { classifier := c, day := d } lines
  Report.unlines (
    if encoded then [(Json.ofNats (Highlight.encode marks)).render]
    else marks.map (markLine lines))

/-! ## §4 Categories -/

def categoryLine (c : Classifier) (category : String) : String :=
  if c.isOvertime category then category ++ " (overtime)" else category

def categories (c : Classifier) : String :=
  Report.unlines (
    if c.categories = [] then ["No categories configured."]
    else c.categories.map (categoryLine c))

/-! ## §5 Reports -/

def writtenNote (file : ReportFile) : String :=
  Report.unlines ["", "Report written to " ++ file.path.text]

end Daybook.Commands
