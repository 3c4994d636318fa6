/-
Daybook.Problem — why a line records nothing.

Every problem belongs to one line and spoils no other: a text yields the
items of its good lines beside the problems of the rest. Two wordings exist,
one for messages in general (§2) and one for the person who has to mend the
line (§3); a blank line is no problem to that person.
-/
import Daybook.Sheet
import Daybook.Text.Pieces

namespace Daybook

/-! ## §1 Problems -/

/-- Why a line records nothing. -/
inductive Problem where
  /-- Nothing but white space. -/
  | emptyLine
  /-- The line does not begin with a known category. -/
  | invalidCategory
  /-- The duration is missing, in neither notation, or out of bounds. -/
  | invalidTime
  /-- The line reads as an entry that breaks a bound. -/
  | invalidEntry (violation : Violation)
  | invalidDate (error : DateError)
  /-- The sheet of the day refused the item. -/
  | rejected (refusal : Refusal)
deriving DecidableEq, Repr

def Problem.ofRefusal : Refusal → Problem
  | .invalidEntry v => invalidEntry v
  | r => rejected r

/-! ## §2 The general wording -/

def durationHint : String := "time format. Use X.Y or XhYm (e.g., 1.5 or 1h30m)"

def Problem.message : Problem → String
  | emptyLine => "empty line"
  | invalidCategory => "invalid category"
  | invalidTime => "invalid " ++ durationHint
  | invalidEntry v => "invalid entry: " ++ v.message
  | invalidDate e => e.message
  | rejected r => "rejected by timesheet: " ++ r.message

/-! ## §3 The wording for the author of the line -/

/-- What to tell the author of the line, who may choose among `categories`;
nothing about a blank line. -/
def Problem.advice? (categories : List String) : Problem → Option String
  | emptyLine => none
  | invalidCategory =>
    some ("Invalid category. Possible categories: " ++ Text.joinWith ", " categories)
  | invalidTime => some ("Invalid " ++ durationHint)
  | p => some p.message

/-! ## §4 Problems in a text -/

/-- A problem and the line it belongs to. -/
structure LineProblem where
  /-- The number of the line, from zero. -/
  line : Nat
  /-- The length of the line in bytes. -/
  length : Nat
  problem : Problem
deriving DecidableEq, Repr

end Daybook
