/-
Daybook.Json.Reader — JSON values from bytes.

A reader takes a value off the front of a byte sequence and hands back the
rest. It is strict: texts have to be UTF-8 and their escapes whole characters,
numbers have to fit what a double can hold, and values may nest only so deep.
A value that nobody is going to look at is read leniently instead: it has to
keep the grammar, and nothing else is checked.

§1 blanks and literals, §2 texts, §3 numbers, §4 values.
-/
import Daybook.Json
import Daybook.Text.Digits
import Daybook.Text.Utf16
import Daybook.Text.Utf8

namespace Daybook.Json.Reader

/-- How a value is read. -/
structure Mode where
  /-- Whether texts and numbers are checked beyond the grammar. -/
  strict : Bool := true
  /-- How deep values may nest, the list or object that is read included. -/
  depth : Nat
deriving DecidableEq, Repr

/-! ## §1 Blanks and literals -/

def byte (c : Char) : UInt8 := c.toNat.toUInt8

def isBlankByte (b : UInt8) : Bool := b == 0x20 || b == 0x09 || b == 0x0A || b == 0x0D

def skipBlanks (bytes : List UInt8) : List UInt8 := bytes.dropWhile isBlankByte

def literal (word : String) (bytes : List UInt8) : Option (List UInt8) :=
  let expected := Text.Utf8.encode word.toList
  if expected.isPrefixOf bytes then some (bytes.drop expected.length) else none

def expect (c : Char) (bytes : List UInt8) : Option (List UInt8) :=
  match skipBlanks bytes with
  | b :: rest => if b = byte c then some rest else none
  | [] => none

/-! ## §2 Texts -/

def hexValue? (b : UInt8) : Option Nat :=
  let n := b.toNat
  if 0x30 ≤ n ∧ n ≤ 0x39 then some (n - 0x30)
  else if 0x41 ≤ n ∧ n ≤ 0x46 then some (n - 0x41 + 10)
  else if 0x61 ≤ n ∧ n ≤ 0x66 then some (n - 0x61 + 10)
  else none

def hex4? : List UInt8 → Option (Nat × List UInt8)
  | a :: b :: c :: d :: rest => do
    let n := (((← hexValue? a) * 16 + (← hexValue? b)) * 16 + (← hexValue? c)) * 16 + (← hexValue? d)
    pure (n, rest)
  | _ => none

/-- The bytes that a short escape stands for. -/
def shortEscape? (b : UInt8) : Option UInt8 :=
  if b = byte '"' then some 0x22
  else if b = byte '\\' then some 0x5C
  else if b = byte '/' then some 0x2F
  else if b = byte 'b' then some 0x08
  else if b = byte 'f' then some 0x0C
  else if b = byte 'n' then some 0x0A
  else if b = byte 'r' then some 0x0D
  else if b = byte 't' then some 0x09
  else none

/-- Takes the unit of a `\u` escape off the front, with the second unit of a
surrogate pair. A surrogate that stands alone is refused when strict. -/
def unicodeEscape? (strict : Bool) (bytes : List UInt8) : Option (List UInt8 × List UInt8) := do
  let (high, rest) ← hex4? bytes
  if high < 0xD800 ∨ 0xDFFF < high then
    pure (Text.Utf8.encodeChar (Char.ofNat high), rest)
  else if strict then
    match rest with
    | b :: u :: rest => do
      if b = byte '\\' ∧ u = byte 'u' then
        let (low, rest) ← hex4? rest
        let c ← Text.Utf16.pair? high low
        pure (Text.Utf8.encodeChar c, rest)
      else none
    | _ => none
  else pure ([], rest)

/-- Takes a text up to its closing quote off the front; `fuel` bounds its length. -/
def stringBytes (strict : Bool) : Nat → List UInt8 → Option (List UInt8 × List UInt8)
  | 0, _ => none
  | _ + 1, [] => none
  | fuel + 1, b :: rest => do
    if b = byte '"' then pure ([], rest)
    else if b = byte '\\' then
      let (escaped, rest) ← match rest with
        | e :: rest =>
          if e = byte 'u' then unicodeEscape? strict rest
          else (shortEscape? e).map fun c => ([c], rest)
        | [] => none
      let (more, rest) ← stringBytes strict fuel rest
      pure (escaped ++ more, rest)
    else if b.toNat < 0x20 then none
    else
      let (more, rest) ← stringBytes strict fuel rest
      pure (b :: more, rest)

/-- Takes a text off the front, its opening quote already gone. A lenient
reader does not decode the text. -/
def string (strict : Bool) (bytes : List UInt8) : Option (String × List UInt8) := do
  let (content, rest) ← stringBytes strict (bytes.length + 1) bytes
  if strict then pure (String.ofList (← Text.Utf8.decode? content), rest) else pure ("", rest)

/-! ## §3 Numbers -/

def isDigitByte (b : UInt8) : Bool := 0x30 ≤ b && b ≤ 0x39

def asciiChars (bytes : List UInt8) : List Char := bytes.map fun b => Char.ofNat b.toNat

def digits? (bytes : List UInt8) : Option (List Char × List UInt8) :=
  match bytes.takeWhile isDigitByte with
  | [] => none
  | ds => some (asciiChars ds, bytes.drop ds.length)

/-- The parts of a number: its sign, its digits before and behind the point,
and its exponent. -/
structure Numeral where
  negative : Bool
  whole : List Char
  fraction : Option (List Char) := none
  /-- Whether the exponent is negative, and its digits. -/
  exponent : Option (Bool × List Char) := none
deriving DecidableEq, Repr

/-- Takes the fraction of a number off the front, if it has one. -/
def fraction? (bytes : List UInt8) : Option (Option (List Char) × List UInt8) :=
  match bytes with
  | b :: rest =>
    if b = byte '.' then (digits? rest).map fun (ds, rest) => (some ds, rest)
    else some (none, bytes)
  | [] => some (none, [])

/-- Takes the exponent of a number off the front, if it has one. -/
def exponent? (bytes : List UInt8) : Option (Option (Bool × List Char) × List UInt8) :=
  match bytes with
  | b :: rest =>
    if b = byte 'e' ∨ b = byte 'E' then
      let (negative, rest) := match rest with
        | s :: more =>
          if s = byte '-' then (true, more) else if s = byte '+' then (false, more) else (false, rest)
        | [] => (false, [])
      (digits? rest).map fun (ds, rest) => (some (negative, ds), rest)
    else some (none, bytes)
  | [] => some (none, [])

/-- Takes a number off the front. A whole part of several digits does not begin with zero. -/
def numeral? (bytes : List UInt8) : Option (Numeral × List UInt8) := do
  let (negative, bytes) := match bytes with
    | b :: rest => if b = byte '-' then (true, rest) else (false, bytes)
    | [] => (false, [])
  let (whole, rest) ← digits? bytes
  if whole.length > 1 ∧ whole.head? = some '0' then none
  let (fraction, rest) ← fraction? rest
  let (exponent, rest) ← exponent? rest
  pure ({ negative, whole, fraction, exponent }, rest)

/-- The smallest integer that lies beyond every double, rounding included. -/
def beyondDoubles : Nat := Nat.pow 2 1024 - Nat.pow 2 970

/-- Whether a number is too large for a double. An exponent is compared by the
place of the first digit before any power of ten is taken. -/
def Numeral.isTooLarge (n : Numeral) : Bool :=
  let fraction := n.fraction.getD []
  let significant := (n.whole ++ fraction).dropWhile (· = '0')
  let exponent : Int := match n.exponent with
    | some (true, ds) => -(Text.decimalValue ds : Int)
    | some (false, ds) => Text.decimalValue ds
    | none => 0
  let scale := exponent - fraction.length
  let place := significant.length + scale
  if significant.isEmpty ∨ place < 309 then false
  else if 309 < place then true
  else if 0 ≤ scale then
    beyondDoubles ≤ Text.decimalValue significant * Nat.pow 10 scale.toNat
  else beyondDoubles * Nat.pow 10 scale.natAbs ≤ Text.decimalValue significant

def Numeral.chars (n : Numeral) : List Char :=
  (if n.negative then ['-'] else []) ++ n.whole ++
    (match n.fraction with
      | some ds => '.' :: ds
      | none => []) ++
    (match n.exponent with
      | some (true, ds) => 'e' :: '-' :: ds
      | some (false, ds) => 'e' :: ds
      | none => [])

/-- The value of a number: an integer when it is written as one and fits 64
bits. Minus zero is no integer. -/
def Numeral.toJson (n : Numeral) : Json :=
  let value := Text.decimalValue n.whole
  let written := Json.real (String.ofList n.chars)
  if n.fraction.isSome ∨ n.exponent.isSome then written
  else if n.negative then
    if value = 0 then .real "-0.0"
    else if value ≤ 0x8000000000000000 then .int (-(value : Int))
    else written
  else if value < 0x10000000000000000 then .int value
  else written

def number (strict : Bool) (bytes : List UInt8) : Option (Json × List UInt8) := do
  let (n, rest) ← numeral? bytes
  if strict && n.isTooLarge then none else pure (n.toJson, rest)

/-! ## §4 Values -/

mutual

/-- Takes a value off the front, after white space. `fuel` bounds the steps,
of which every value takes at most one more than it has bytes. -/
def value (m : Mode) : Nat → List UInt8 → Option (Json × List UInt8)
  | 0, _ => none
  | fuel + 1, bytes =>
    match skipBlanks bytes with
    | [] => none
    | b :: rest =>
      if b = byte '"' then (string m.strict rest).map fun (s, rest) => (.str s, rest)
      else if b = byte '[' then
        if m.depth = 0 then none
        else
          let inner := { m with depth := m.depth - 1 }
          match expect ']' rest with
          | some rest => some (.arr [], rest)
          | none => (items inner fuel rest).map fun (js, rest) => (.arr js, rest)
      else if b = byte '{' then
        if m.depth = 0 then none
        else
          let inner := { m with depth := m.depth - 1 }
          match expect '}' rest with
          | some rest => some (.obj [], rest)
          | none => (members inner fuel rest).map fun (ms, rest) => (.object ms, rest)
      else if b = byte 'n' then (literal "null" (b :: rest)).map fun rest => (.null, rest)
      else if b = byte 't' then (literal "true" (b :: rest)).map fun rest => (.bool true, rest)
      else if b = byte 'f' then (literal "false" (b :: rest)).map fun rest => (.bool false, rest)
      else number m.strict (b :: rest)

def items (m : Mode) : Nat → List UInt8 → Option (List Json × List UInt8)
  | 0, _ => none
  | fuel + 1, bytes => do
    let (j, rest) ← value m fuel bytes
    match expect ',' rest with
    | some rest => do
      let (js, rest) ← items m fuel rest
      pure (j :: js, rest)
    | none => do
      let rest ← expect ']' rest
      pure ([j], rest)

def members (m : Mode) : Nat → List UInt8 → Option (List (String × Json) × List UInt8)
  | 0, _ => none
  | fuel + 1, bytes => do
    let (name, rest) ← string m.strict (← expect '"' bytes)
    let (j, rest) ← value m fuel (← expect ':' rest)
    match expect ',' rest with
    | some rest => do
      let (ms, rest) ← members m fuel rest
      pure ((name, j) :: ms, rest)
    | none => do
      let rest ← expect '}' rest
      pure ([(name, j)], rest)

end

/-- Takes a value off the front with steps enough for all bytes. -/
def takeValue (m : Mode) (bytes : List UInt8) : Option (Json × List UInt8) :=
  value m (2 * bytes.length + 2) bytes

/-- The value that a byte sequence is, nothing but white space around it. -/
def parse? (m : Mode) (bytes : List UInt8) : Option Json := do
  let (j, rest) ← takeValue m bytes
  if (skipBlanks rest).isEmpty then some j else none

end Daybook.Json.Reader
