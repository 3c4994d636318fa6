/-
Daybook.Day.Text — days as texts.

A day is written `YYYY-MM-DD`; a year outside 0 to 9999 carries its sign.
Reading is laxer than writing: white space may stand before each of the three
numbers, month and day may have one digit, and a signed year may have any
number of digits. Nothing may follow.

Where a day stands in JSON it is a text, its written form; where one is read,
any text that the reader of dates takes will do.

§1 the ways in which a text fails to be a date, §2 writing, §3 reading, §4 days
as dynamic values.
-/
import Daybook.Day
import Daybook.Json
import Daybook.Text.Blank
import Daybook.Text.Digits
import Daybook.Text.Printable

namespace Daybook

/-! ## §1 Faults -/

/-- What is wrong with a text that should be a date. -/
inductive DateFault where
  /-- A number, or the date itself, is beyond what the calendar holds. -/
  | outOfRange
  /-- A character that cannot stand at its place. -/
  | invalid
  /-- The text ends too early. -/
  | tooShort
  /-- Something follows the date. -/
  | tooLong
deriving DecidableEq, Repr

def DateFault.message : DateFault → String
  | outOfRange => "input is out of range"
  | invalid => "input contains invalid characters"
  | tooShort => "premature end of input"
  | tooLong => "trailing input"

/-- A text that is no date, and why. -/
structure DateError where
  text : String
  fault : DateFault
deriving DecidableEq, Repr

def DateError.message (e : DateError) : String :=
  "invalid date " ++ Text.quoted e.text ++ ": " ++ e.fault.message

namespace Day

/-! ## §2 Writing -/

/-- The year as written: four digits, or a sign and at least four digits. -/
def yearText (year : Int) : List Char :=
  if year < 0 then '-' :: Text.paddedNumeral 4 year.natAbs
  else if year ≤ 9999 then Text.paddedNumeral 4 year.natAbs
  else '+' :: Text.paddedNumeral 4 year.natAbs

/-- Month and day, `MM-DD`, the same every year. -/
def monthDayText (d : Day) : List Char :=
  Text.paddedNumeral 2 d.month ++ '-' :: Text.paddedNumeral 2 d.dayOfMonth

def chars (d : Day) : List Char := yearText d.year ++ '-' :: d.monthDayText

def render (d : Day) : String := String.ofList d.chars

def renderMonthDay (d : Day) : String := String.ofList d.monthDayText

/-! ## §3 Reading -/

/-- Reads a number of at least one digit, at most `width` of them. -/
def readNumber (width : Nat) (cs : List Char) : Except DateFault (Nat × List Char) :=
  match (cs.take width).takeWhile Char.isDigit with
  | [] => throw (if cs.isEmpty then .tooShort else .invalid)
  | digits => pure (Text.decimalValue digits, cs.drop digits.length)

/-- Reads the year: at most four digits, or a sign and any number of digits.
The year has to fit 32 bits before anything behind it is looked at. -/
def readYear (cs : List Char) : Except DateFault (Int × List Char) := do
  let (year, rest) ← match Text.trimStart cs with
    | '-' :: rest => do
      let (n, rest) ← readNumber rest.length rest
      pure (-(n : Int), rest)
    | '+' :: rest => do
      let (n, rest) ← readNumber rest.length rest
      pure ((n : Int), rest)
    | rest => do
      let (n, rest) ← readNumber 4 rest
      pure ((n : Int), rest)
  if -2147483648 ≤ year ∧ year ≤ 2147483647 then pure (year, rest) else throw .outOfRange

/-- Reads a number of one or two digits between 1 and `limit`. -/
def readField (limit : Nat) (cs : List Char) : Except DateFault (Nat × List Char) := do
  let (n, rest) ← readNumber 2 (Text.trimStart cs)
  if 1 ≤ n ∧ n ≤ limit then pure (n, rest) else throw .outOfRange

def readHyphen : List Char → Except DateFault (List Char)
  | [] => throw .tooShort
  | '-' :: rest => pure rest
  | _ => throw .invalid

def ofChars (cs : List Char) : Except DateFault Day := do
  let (year, rest) ← readYear cs
  let rest ← readHyphen rest
  let (month, rest) ← readField 12 rest
  let rest ← readHyphen rest
  let (day, rest) ← readField 31 rest
  if !rest.isEmpty then throw .tooLong
  match ofDate? year month day with
  | some d => pure d
  | none => throw .outOfRange

def parse (text : String) : Except DateError Day :=
  (ofChars text.toList).mapError fun fault => { text, fault }

/-! ## §4 Days as dynamic values -/

def toJson (d : Day) : Json := .str d.render

def ofJson? (j : Json) : Option Day := j.str?.bind fun text => (parse text).toOption

end Day

end Daybook
