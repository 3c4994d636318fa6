/-
Daybook.Text.Digits — numerals, and the words that hold what they denote.

§1 reads a run of digits, §2 writes a number. Reading is capped: a run may
be longer than any word that holds its value, and then the value stays at
the cap, which every bound in this library rejects. Sums of hours and minutes,
line numbers and columns are capped as well, at 32 bits (§3).
-/

namespace Daybook.Text

/-! ## §1 Reading -/

/-- The value of a digit; zero for the character `0` and all below it. -/
def digitValue (c : Char) : Nat := c.toNat - '0'.toNat

def decimalValue (cs : List Char) : Nat := Nat.ofDigitChars 10 cs 0

/-- The number that the digits `cs` denote, held at `cap` as soon as it gets there. -/
def cappedValue (cap : Nat) (cs : List Char) : Nat :=
  cs.foldl (fun n c => min cap (10 * n + digitValue c)) 0

/-- Whether `cs` is made of ASCII digits only; the empty text is. -/
def allDigits (cs : List Char) : Bool := cs.all Char.isDigit

/-- The number that a numeral denotes; `none` for any other text. -/
def numeralValue? (cs : List Char) : Option Nat :=
  if cs ≠ [] ∧ allDigits cs then some (decimalValue cs) else none

/-- The integer that a numeral with or without a minus sign denotes. -/
def signedValue? : List Char → Option Int
  | '-' :: cs => (numeralValue? cs).map fun n : Nat => -(n : Int)
  | cs => (numeralValue? cs).map Int.ofNat

/-! ## §2 Writing -/

def numeral (n : Nat) : List Char := Nat.toDigits 10 n

def paddedNumeral (width n : Nat) : List Char :=
  List.replicate (width - (numeral n).length) '0' ++ numeral n

def decimal (n : Nat) : String := String.ofList (numeral n)

def paddedDecimal (width n : Nat) : String := String.ofList (paddedNumeral width n)

/-- The decimal numeral of an integer: a minus sign, if any, and the digits. -/
def signedDecimal (i : Int) : String :=
  if i < 0 then String.ofList ('-' :: numeral i.natAbs) else decimal i.natAbs

/-- Reading a numeral gives the number back. -/
theorem decimalValue_numeral (n : Nat) : decimalValue (numeral n) = n :=
  Nat.ofDigitChars_toDigits (by decide) (by decide)

end Daybook.Text

/-! ## §3 Counts of 32 bits -/

namespace Daybook.Counter

def largest : Nat := 0xFFFFFFFF

/-- `n`, or the largest count if `n` is beyond it. -/
def cap (n : Nat) : Nat := min n largest

theorem cap_le (n : Nat) : cap n ≤ largest := Nat.min_le_right ..

theorem cap_of_le {n : Nat} (h : n ≤ largest) : cap n = n := Nat.min_eq_left h

theorem cap_le_cap {m n : Nat} (h : m ≤ n) : cap m ≤ cap n := by
  simp only [cap]; omega

/-- Adding to a count that was held back ends where adding to the true count does. -/
@[simp] theorem cap_cap_add (m n : Nat) : cap (cap m + n) = cap (m + n) := by
  simp only [cap]; omega

end Daybook.Counter
