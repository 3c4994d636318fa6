/-
Daybook.Duration — how long something took.

Two notations are read. Decimal hours have one digit behind the dot, tenths
of an hour, or two, hundredths rounded down to whole minutes. The literal
notation names its units, `1h30m`, either of which may be missing; a bare
number is whole hours. Hours stay below 24 and minutes below 60.

§1 the type, §2 reading the tokens of a duration column, §3 writing decimal
hours. Writing inverts one-digit fractions exactly; a two-digit fraction may
come back as a smaller one, since its minutes were rounded down.
-/
import Daybook.Text.Utf8
import Daybook.Token

namespace Daybook

/-! ## §1 Working time -/

/-- Hours and minutes, as read from a duration column. -/
structure WorkTime where
  hours : Nat
  minutes : Nat
deriving DecidableEq, Repr, Inhabited

namespace WorkTime

/-! ## §2 Reading -/

def hours? (value : Nat) : Option Nat := if value < 24 then some value else none

def minutes? (value : Nat) : Option Nat := if value < 60 then some value else none

/-- The minutes of a decimal fraction of an hour that is written in `width`
bytes. A fraction that its width cannot hold is judged all the same, and
refused when its minutes do not fit a byte. Words have 64 bits, and a product
beyond them wraps around; no fraction of one or two digits has such a product. -/
def minutesOfFraction? (fraction width : Nat) : Option Nat :=
  let minutes? := match width with
    | 1 => some (UInt64.ofNat fraction * 6).toNat
    | 2 => some (UInt64.ofNat fraction * 3 / 5).toNat
    | _ => none
  minutes?.filter (· ≤ 255)

/-- The literal notation, half read: the time so far, the digits that wait for
their unit, and which units have been seen. -/
structure Literal where
  time : WorkTime := ⟨0, 0⟩
  pending : List Char := []
  seenHours : Bool := false
  seenMinutes : Bool := false
deriving DecidableEq, Repr

namespace Literal

def pendingValue (l : Literal) : Nat := Text.cappedValue Token.maxValue l.pending

/-- Reads one more character: a digit, or the unit of the digits before it.
Each unit occurs at most once, and no hours follow minutes. -/
def step (l : Literal) (c : Char) : Option Literal :=
  if c.isDigit then some { l with pending := l.pending ++ [c] }
  else if c = 'h' ∧ l.pending ≠ [] ∧ !l.seenHours ∧ !l.seenMinutes then
    (hours? l.pendingValue).map fun hours =>
      { l with time := { l.time with hours }, pending := [], seenHours := true }
  else if c = 'm' ∧ l.pending ≠ [] ∧ !l.seenMinutes then
    (minutes? l.pendingValue).map fun minutes =>
      { l with time := { l.time with minutes }, pending := [], seenMinutes := true }
  else none

/-- The time, once no digits wait and some unit has been seen. -/
def finish (l : Literal) : Option WorkTime :=
  if l.pending = [] ∧ (l.seenHours ∨ l.seenMinutes) then some l.time else none

end Literal

def ofLiteral? (word : List Char) : Option WorkTime :=
  (word.foldlM Literal.step {}).bind Literal.finish

/-- Reads the tokens of a duration column. -/
def ofTokens? : List Token → Option WorkTime
  | [.number value _] => do
    pure ⟨← hours? value, 0⟩
  | [.word word] => ofLiteral? word.toList
  | [.number whole _, .dot, .number fraction digits] => do
    let hours ← hours? whole
    let minutes ← minutesOfFraction? fraction (Text.Utf8.size digits.toList)
    pure ⟨hours, minutes⟩
  | _ => none

/-! ## §3 Writing -/

/-- The digits behind the point of `minutes`: hundredths of an hour rounded
down, a last zero dropped, and no leading zero. -/
def fractionOfMinutes (minutes : Nat) : String :=
  let hundredths := minutes * 10 / 6
  Text.decimal (if hundredths % 10 = 0 then hundredths / 10 else hundredths)

def decimalHours (hours minutes : Nat) : String :=
  Text.decimal hours ++ "." ++ fractionOfMinutes minutes

/-- A time in decimal hours. -/
def render (t : WorkTime) : String := decimalHours t.hours t.minutes

end WorkTime

end Daybook
