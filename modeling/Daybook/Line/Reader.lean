/-
Daybook.Line.Reader — the item of a line.

A `Reader` reads the lines of one day. On a holiday every line that is not
blank is a description of the holiday; on any other day the machine of
`Line.Machine` reads it as an entry. The reader checks no bounds: an entry of
no time at all is still an entry here, and `readValid` refuses it.
-/
import Daybook.Line.Machine
import Daybook.Text.Blank

namespace Daybook.Line

/-! ## §1 Entries -/

/-- An entry half read. -/
structure Draft where
  category : String := ""
  time : WorkTime := ⟨0, 0⟩
  task : Option String := none
  comment : List Token := []
deriving DecidableEq, Repr

namespace Draft

def apply (d : Draft) : Effect → Draft
  | .category name => { d with category := name }
  | .duration time => { d with time }
  | .task name => { d with task := some name }
  | .comment token => { d with comment := d.comment ++ [token] }

def toEntry (d : Draft) : Entry where
  category := d.category
  hours := d.time.hours
  minutes := d.time.minutes
  task := d.task
  comment := Text.trimmed (Token.join d.comment)

end Draft

/-- Reads a line, already trimmed, as an entry. -/
def readEntry (c : Classifier) (line : String) : Except Problem Entry := do
  let (phase, effects) ← run c .initial (Token.tokenize line)
  let last ← finish c phase
  pure ((effects ++ last.toList).foldl Draft.apply {}).toEntry

/-! ## §2 Lines -/

/-- Reads the lines of one day. -/
structure Reader where
  classifier : Classifier
  day : Day

namespace Reader

/-- Whether the day is a holiday. -/
def isHoliday (r : Reader) : Bool := r.classifier.isHoliday r.day

/-- The item of a line. A holiday is described by the line as it stands, an
entry is read from the trimmed line. -/
def read (r : Reader) (line : String) : Except Problem Item :=
  let trimmed := Text.trimmed line
  if trimmed.isEmpty then throw .emptyLine
  else if r.isHoliday then pure (.holiday { date := r.day, description := line })
  else .entry <$> readEntry r.classifier trimmed

/-- The item of a line, which has to keep the bounds of entries. -/
def readValid (r : Reader) (line : String) : Except Problem Item := do
  let item ← r.read line
  match item.violation? with
  | some v => throw (.invalidEntry v)
  | none => pure item

theorem readValid_eq_ok {r : Reader} {line : String} {item : Item} :
    r.readValid line = .ok item ↔ r.read line = .ok item ∧ item.violation? = none := by
  unfold readValid
  cases r.read line with
  | error p => simp [bind, Except.bind]
  | ok i =>
    cases hv : i.violation? with
    | none =>
      have : i = item → item.violation? = none := by
        rintro rfl
        exact hv
      simpa [bind, Except.bind, hv, pure, Except.pure] using this
    | some v =>
      have : i = item → ¬ item.violation? = none := by
        rintro rfl
        simp [hv]
      simpa [bind, Except.bind, hv, throw, throwThe, MonadExceptOf.throw] using this

/-- On a workday the white space at the ends of a line does not count. -/
theorem readValid_congr_of_workday {r : Reader} (workday : r.isHoliday = false)
    {line line' : String} (h : Text.trimmed line = Text.trimmed line') :
    r.readValid line = r.readValid line' := by
  simp only [readValid, read, h, workday, Bool.false_eq_true, if_false]

end Reader

end Daybook.Line
