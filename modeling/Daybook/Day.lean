/-
Daybook.Day — the days of the calendar.

Days belong to the Gregorian calendar, carried backwards over its adoption;
there is a year 0, and the years run from -262143 to 262142. A day carries
the proof that its month has it, so no function below has to ask.

§1 lengths of years and months, §2 days and their order, §3 the count of
days, from which the weekday follows, §4 the clipped week and the month a day
lies in, §5 the integer key under which the store files a day.
-/

namespace Daybook

/-! ## §1 Years and months -/

/-- Whether February of `year` has 29 days. -/
def isLeapYear (year : Int) : Bool :=
  year % 4 == 0 && (year % 100 != 0 || year % 400 == 0)

def monthLength (year : Int) (month : Nat) : Nat :=
  if month = 2 then if isLeapYear year then 29 else 28
  else if month = 4 ∨ month = 6 ∨ month = 9 ∨ month = 11 then 30
  else 31

/-- Months have 28 to 31 days. -/
theorem monthLength_bounds (year : Int) (month : Nat) :
    28 ≤ monthLength year month ∧ monthLength year month ≤ 31 := by
  unfold monthLength
  split
  · split <;> decide
  · split <;> decide

/-! ## §2 Days -/

def firstYear : Int := -262143

def lastYear : Int := 262142

/-- Whether a year, a month and a day of the month name a day. -/
def IsDate (year : Int) (month dayOfMonth : Nat) : Prop :=
  firstYear ≤ year ∧ year ≤ lastYear ∧ 1 ≤ month ∧ month ≤ 12 ∧
    1 ≤ dayOfMonth ∧ dayOfMonth ≤ monthLength year month

instance (year : Int) (month dayOfMonth : Nat) : Decidable (IsDate year month dayOfMonth) :=
  inferInstanceAs (Decidable (_ ∧ _))

/-- A day of the calendar. -/
structure Day where
  year : Int
  month : Nat
  dayOfMonth : Nat
  isDate : IsDate year month dayOfMonth
deriving DecidableEq, Repr

namespace Day

/-- The day of a year, a month and a day of the month, if there is one. -/
def ofDate? (year : Int) (month dayOfMonth : Nat) : Option Day :=
  if h : IsDate year month dayOfMonth then some ⟨year, month, dayOfMonth, h⟩ else none

/-- The day of a date is the one that has its year, its month and its day of the
month. -/
theorem ofDate?_eq_some_iff {year : Int} {month dayOfMonth : Nat} {d : Day} :
    ofDate? year month dayOfMonth = some d ↔
      d.year = year ∧ d.month = month ∧ d.dayOfMonth = dayOfMonth := by
  rw [ofDate?, Option.dite_none_right_eq_some]
  constructor
  · rintro ⟨_, h⟩
    cases h
    exact ⟨rfl, rfl, rfl⟩
  · rintro ⟨rfl, rfl, rfl⟩
    exact ⟨d.isDate, rfl⟩

/-- What has no day is no date. -/
theorem ofDate?_eq_none_iff {year : Int} {month dayOfMonth : Nat} :
    ofDate? year month dayOfMonth = none ↔ ¬ IsDate year month dayOfMonth := by
  simp [ofDate?]

/-- Earlier in the calendar: by year, then by month, then by day. -/
protected def Before (a b : Day) : Prop :=
  a.year < b.year ∨ a.year = b.year ∧
    (a.month < b.month ∨ a.month = b.month ∧ a.dayOfMonth < b.dayOfMonth)

instance : LT Day := ⟨Day.Before⟩

instance : LE Day := ⟨fun a b => ¬ b < a⟩

instance (a b : Day) : Decidable (a < b) :=
  inferInstanceAs (Decidable (_ ∨ _))

instance (a b : Day) : Decidable (a ≤ b) :=
  inferInstanceAs (Decidable (¬ b < a))

def withDayOfMonth (d : Day) (k : Nat) (first : 1 ≤ k) (last : k ≤ monthLength d.year d.month) :
    Day :=
  ⟨d.year, d.month, k, d.isDate.1, d.isDate.2.1, d.isDate.2.2.1, d.isDate.2.2.2.1, first, last⟩

/-! ## §3 Counting days -/

/-- The days of the year before a month begins. -/
def daysBeforeMonth (year : Int) (month : Nat) : Nat :=
  (List.range (month - 1)).foldr (fun m n => monthLength year (m + 1) + n) 0

/-- The days from the beginning of year 1 to the beginning of `year`. -/
def daysBeforeYear (year : Int) : Int :=
  let y := year - 1
  365 * y + y / 4 - y / 100 + y / 400

/-- The running number of a day; the first day of year 1 has number 1. -/
def number (d : Day) : Int :=
  daysBeforeYear d.year + daysBeforeMonth d.year d.month + d.dayOfMonth

/-- The days that have passed since the last Monday: 0 on a Monday, 6 on a Sunday. -/
def daysSinceMonday (d : Day) : Nat := ((d.number - 1) % 7).toNat

def weekdayNames : List String := ["Mon", "Tue", "Wed", "Thu", "Fri", "Sat", "Sun"]

def weekdayName (d : Day) : String := weekdayNames.getD d.daysSinceMonday ""

/-! ## §4 Week and month -/

/-- The days from `first` to `last`, both included. -/
structure Span where
  first : Day
  last : Day
deriving DecidableEq, Repr

/-- The days of the month of `d` that lie in its week, Monday to Sunday. A week
never spans two months: it is clipped at the month's ends. -/
def weekSpan (d : Day) : Span :=
  let back := min d.daysSinceMonday (d.dayOfMonth - 1)
  let ahead := min (6 - d.daysSinceMonday) (monthLength d.year d.month - d.dayOfMonth)
  have first : 1 ≤ d.dayOfMonth := d.isDate.2.2.2.2.1
  have last : d.dayOfMonth ≤ monthLength d.year d.month := d.isDate.2.2.2.2.2
  { first := d.withDayOfMonth (d.dayOfMonth - back) (by omega) (by omega)
    last := d.withDayOfMonth (d.dayOfMonth + ahead) (by omega) (by omega) }

/-- The month of `d`, from its first day to its last. The end of a month is
found as the day before the next month begins; the very last month has no
next one, and its span is its first day alone. -/
def monthSpan (d : Day) : Span :=
  have bounds := monthLength_bounds d.year d.month
  let first := d.withDayOfMonth 1 (by omega) (by omega)
  if d.year = lastYear ∧ d.month = 12 then ⟨first, first⟩
  else ⟨first, d.withDayOfMonth (monthLength d.year d.month) (by omega) (by omega)⟩

/-! ## §5 The key of a day -/

/-- The integer that the store files a day under, `YYYYMMDD` for the years of
four digits. -/
def key (d : Day) : Int := d.year * 10000 + d.month * 100 + d.dayOfMonth

end Day

end Daybook
