/-
Daybook.Toml.Scalar — truth values, numbers and dates of TOML.

These are written without quotes, so where one ends is clear before it is
read: at the first character that occurs in none of them. Digits of a number
may be separated by single underscores.

§1 numbers, §2 dates and times, §3 scalars.
-/
import Daybook.Day
import Daybook.Json.Reader
import Daybook.Toml.Words

namespace Daybook.Toml

/-! ## §1 Numbers -/

/-- The characters without the underscores between digits; any other
underscore is refused. -/
def dropSeparators? (isDigit : Char → Bool) : List Char → Option (List Char)
  | [] => some []
  | '_' :: _ => none
  | [c] => some [c]
  | a :: '_' :: rest =>
    if isDigit a ∧ (rest.head?.any isDigit) then (dropSeparators? isDigit rest).map (a :: ·)
    else none
  | a :: b :: rest => (dropSeparators? isDigit (b :: rest)).map (a :: ·)

def fitting? (i : Int) : Option Json :=
  if -0x8000000000000000 ≤ i ∧ i < 0x8000000000000000 then some (.int i) else none

def based? (base : Nat) (digits : List Char) : Option Json := do
  let isDigit := fun c => (hexValue? c).any (· < base)
  let digits ← dropSeparators? isDigit digits
  let values ← digits.mapM hexValue?
  if digits = [] ∨ !digits.all isDigit then none
  else fitting? (Int.ofNat (values.foldl (fun n v => n * base + v) 0))

def unsigned? (negative : Bool) (cs : List Char) : Option Json := do
  if !(cs.head?.any Char.isDigit) then none
  let digits ← dropSeparators? Char.isDigit cs
  let (n, rest) ← Json.Reader.numeral? (Text.Utf8.encode digits)
  if rest ≠ [] then none
  else if n.fraction.isSome ∨ n.exponent.isSome then
    if n.isTooLarge ∧ !negative then none
    else some (.real (String.ofList ((if negative then ['-'] else []) ++ n.chars)))
  else
    let value := Int.ofNat (Text.decimalValue n.whole)
    fitting? (if negative then -value else value)

def afterSign? (negative : Bool) (cs : List Char) : Option Json :=
  if cs = "inf".toList ∨ cs = "nan".toList then some (.real (String.ofList cs))
  else unsigned? negative cs

def number? : List Char → Option Json
  | '0' :: 'x' :: rest => based? 16 rest
  | '0' :: 'o' :: rest => based? 8 rest
  | '0' :: 'b' :: rest => based? 2 rest
  | '-' :: rest => afterSign? true rest
  | '+' :: rest => afterSign? false rest
  | cs => afterSign? false cs

/-! ## §2 Dates and times -/

def twoDigits? (low high : Nat) : List Char → Option (Nat × List Char)
  | a :: b :: rest =>
    let n := Text.decimalValue [a, b]
    if a.isDigit ∧ b.isDigit ∧ low ≤ n ∧ n ≤ high then some (n, rest) else none
  | _ => none

def behind? (c : Char) : List Char → Option (List Char)
  | d :: rest => if d = c then some rest else none
  | [] => none

def behindDate? (cs : List Char) : Option (List Char) := do
  let year := cs.take 4
  if year.length < 4 ∨ !Text.allDigits year then none
  let rest ← behind? '-' (cs.drop 4)
  let (month, rest) ← twoDigits? 1 12 rest
  let rest ← behind? '-' rest
  let (_, rest) ← twoDigits? 1 (monthLength (Int.ofNat (Text.decimalValue year)) month) rest
  some rest

def behindTime? (cs : List Char) : Option (List Char) := do
  let (_, rest) ← twoDigits? 0 23 cs
  let rest ← behind? ':' rest
  let (_, rest) ← twoDigits? 0 59 rest
  let rest ← behind? ':' rest
  let (_, rest) ← twoDigits? 0 60 rest
  match rest with
  | '.' :: fraction =>
    let rest := fraction.dropWhile Char.isDigit
    if rest.length < fraction.length then some rest else none
  | _ => some rest

def behindOffset? : List Char → Option (List Char)
  | c :: rest =>
    if c = 'Z' ∨ c = 'z' then some rest
    else if c = '+' ∨ c = '-' then do
      let (_, rest) ← twoDigits? 0 23 rest
      let rest ← behind? ':' rest
      let (_, rest) ← twoDigits? 0 59 rest
      some rest
    else none
  | [] => none

def isMoment (cs : List Char) : Bool :=
  match behindDate? cs with
  | none => behindTime? cs = some []
  | some [] => true
  | some (c :: rest) =>
    (c = 'T' || c = 't' || c = ' ') &&
      match behindTime? rest with
      | none => false
      | some [] => true
      | some rest => behindOffset? rest = some []

/-- Dates and times are kept as tables with one member, which is none of those
that a configuration has. -/
def moment (cs : List Char) : Json := .object [("date and time", .str (String.ofList cs))]

/-! ## §3 Scalars -/

def isScalarChar (c : Char) : Bool :=
  c.isAlphanum || c = '_' || c = '+' || c = '-' || c = '.' || c = ':'

/-- Takes the characters of a scalar off the front; a time may stand one space
behind its date. -/
def takeScalar (cs : List Char) : List Char × List Char :=
  let first := cs.takeWhile isScalarChar
  match cs.drop first.length with
  | ' ' :: c :: rest =>
    if behindDate? first = some [] ∧ c.isDigit then
      let second := (c :: rest).takeWhile isScalarChar
      (first ++ ' ' :: second, (c :: rest).drop second.length)
    else (first, ' ' :: c :: rest)
  | rest => (first, rest)

def scalar? (cs : List Char) : Option (Json × List Char) :=
  let (word, rest) := takeScalar cs
  if word = "true".toList then some (.bool true, rest)
  else if word = "false".toList then some (.bool false, rest)
  else if isMoment word then some (moment word, rest)
  else (number? word).map fun j => (j, rest)

end Daybook.Toml
