/-
Daybook.Analysis — what a whole text records.

A text is analysed line by line, and a bad line spoils no other: what a line
yields depends on that line alone. An empty last line, which is what follows
a final newline, does not count; any other blank line is a problem.

§1 the lines that count, §2 items and problems.
-/
import Daybook.Line.Reader
import Daybook.Text.Utf8

namespace Daybook

/-! ## §1 Lines -/

/-- The lines of a text, without an empty last one. -/
def countedLines (text : String) : List String :=
  let lines := Text.linesOf text
  if lines.getLast? = some "" then lines.dropLast else lines

/-- What one line yields: an item, or a problem at its place. -/
def lineOutcome (r : Line.Reader) (line : String) (number : Nat) : Except LineProblem Item :=
  (r.readValid line).mapError fun problem =>
    { line := number, length := Text.Utf8.size line.toList, problem }

/-- What the lines of a text yield, in order. -/
def lineOutcomes (r : Line.Reader) (text : String) : List (Except LineProblem Item) :=
  (countedLines text).zipIdx.map fun (line, number) => lineOutcome r line number

/-! ## §2 Analyses -/

/-- The items of a text and the problems of its other lines. -/
structure Analysis where
  items : List Item := []
  problems : List LineProblem := []
deriving DecidableEq, Repr

/-- The problem of an outcome, if it is one. -/
def problem? : Except LineProblem Item → Option LineProblem
  | .ok _ => none
  | .error p => some p

def analyze (r : Line.Reader) (text : String) : Analysis where
  items := (lineOutcomes r text).filterMap Except.toOption
  problems := (lineOutcomes r text).filterMap problem?

theorem items_analyze (r : Line.Reader) (text : String) :
    (analyze r text).items = (lineOutcomes r text).filterMap Except.toOption := rfl

theorem problems_analyze (r : Line.Reader) (text : String) :
    (analyze r text).problems = (lineOutcomes r text).filterMap problem? := rfl

end Daybook
