/-
Daybook.DayFile — which day a file is about.

The text of a day stands in a file that is named for it: a directory for the
year, in it one for the month, in it the day with the ending `.tsf`. Where the
project's root is known the file has to lie under it. A backslash separates
names as a slash does.

§1 the name of a day file, §2 the day of a path, §3 choosing a day.
-/
import Daybook.Day.Text
import Daybook.Path
import Daybook.Text.DecimalDigit

namespace Daybook.DayFile

/-! ## §1 Names -/

/-- The date that `YYYY/MM/DD.tsf` spells. -/
def dateOfName? : List Char → Option (List Char)
  | [y₁, y₂, y₃, y₄, '/', m₁, m₂, '/', d₁, d₂, '.', 't', 's', 'f'] =>
    if [y₁, y₂, y₃, y₄, m₁, m₂, d₁, d₂].all Text.isDecimalDigit then
      some [y₁, y₂, y₃, y₄, '-', m₁, m₂, '-', d₁, d₂]
    else none
  | _ => none

def nameLength : Nat := 14

/-- The date that a path ends in: the path is the name of a day file, or ends
in one behind a slash. -/
def dateOfChars? (cs : List Char) : Option (List Char) :=
  let directory := cs.take (cs.length - nameLength)
  if directory = [] ∨ directory.getLast? = some '/' then
    dateOfName? (cs.drop (cs.length - nameLength))
  else none

def name (d : Day) : String :=
  String.ofList ((d.chars.map fun c => if c = '-' then '/' else c) ++ ".tsf".toList)

/-! ## §2 The day of a path -/

/-- Why a path has no day. -/
inductive Error where
  | outside (path root : Path)
  | noDayFile (path : Path)
  | noDate (path : Path)
deriving DecidableEq, Repr

def Error.message : Error → String
  | .outside path root => path.text ++ " is outside project root " ++ root.text
  | .noDayFile path => path.text ++ " is not a YYYY/MM/DD.tsf day file"
  | .noDate path => "invalid date in " ++ path.text

def normalize (cs : List Char) : List Char := cs.map fun c => if c = '\\' then '/' else c

/-- The day of the file at `path`, which has to lie under `root`. -/
def dayOf (path : Path) (root : Option Path) : Except Error Day :=
  match root.filter fun r => !path.isUnder r with
  | some r => .error (.outside path r)
  | none =>
    match dateOfChars? (normalize path.chars) with
    | none => .error (.noDayFile path)
    | some date => (Day.ofChars date).mapError fun _ => .noDate path

/-! ## §3 Choosing a day -/

/-- Why no day is chosen. -/
inductive ChoiceError where
  | badDate
  | badFile (error : Error)
deriving DecidableEq, Repr

def ChoiceError.message : ChoiceError → String
  | .badDate => "invalid --date"
  | .badFile e => e.message

/-- The day that is meant: the date that is given, else that of the file, else
today. -/
def choose (date : Option String) (file root : Option Path) (today : Day) :
    Except ChoiceError Day :=
  match date, file with
  | some text, _ => (Day.parse text).mapError fun _ => .badDate
  | none, some path => (dayOf path root).mapError .badFile
  | none, none => .ok today

end Daybook.DayFile
