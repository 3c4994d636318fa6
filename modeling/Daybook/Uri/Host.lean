/-
Daybook.Uri.Host — the host of a URI.

In the schemes of the web a host is a domain or an address. A last part that
is a number makes it an address of four numbers, brackets make it one of eight
groups; a domain is what remains, in lower case. In any other scheme a host
without brackets is a name that is taken as it stands.

§1 escapes, §2 addresses of four numbers, §3 addresses of eight groups,
§4 hosts.
-/
import Daybook.Text.Digits
import Daybook.Text.Pieces
import Daybook.Text.Utf8

namespace Daybook.Uri

/-! ## §1 Escapes -/

def hexDigit? (b : UInt8) : Option UInt8 :=
  if 0x30 ≤ b ∧ b ≤ 0x39 then some (b - 0x30)
  else if 0x41 ≤ b ∧ b ≤ 0x46 then some (b - 0x37)
  else if 0x61 ≤ b ∧ b ≤ 0x66 then some (b - 0x57)
  else none

/-- Bytes with each `%XX` replaced by the byte it stands for; any other percent
sign stands for itself. -/
def unescape : List UInt8 → List UInt8
  | [] => []
  | [a] => [a]
  | [a, b] => [a, b]
  | a :: b :: c :: rest =>
    if a = 0x25 then
      match hexDigit? b, hexDigit? c with
      | some high, some low => (high * 16 + low) :: unescape rest
      | _, _ => a :: unescape (b :: c :: rest)
    else a :: unescape (b :: c :: rest)

/-- The bytes that a text with escapes stands for. -/
def unescaped (cs : List Char) : List UInt8 := unescape (Text.Utf8.encode cs)

/-! ## §2 Addresses of four numbers -/

def isDigitIn (base : Nat) (c : Char) : Bool :=
  if c.isDigit then Text.digitValue c < base
  else base = 16 && (('a' ≤ c && c ≤ 'f') || ('A' ≤ c && c ≤ 'F'))

def valueIn (base : Nat) (cs : List Char) : Nat :=
  cs.foldl (fun n c => n * base + ((hexDigit? c.toNat.toUInt8).getD 0).toNat) 0

/-- A part of an address: decimal, octal behind a zero, or hexadecimal behind
`0x`. -/
def addressPart? (part : List Char) : Option Nat :=
  let (base, digits) := match part with
    | '0' :: 'x' :: rest => (16, rest)
    | '0' :: 'X' :: rest => (16, rest)
    | '0' :: c :: rest => (8, c :: rest)
    | _ => (10, part)
  if part ≠ [] ∧ digits.all (isDigitIn base) then some (valueIn base digits) else none

def dottedParts (name : List Char) : List (List Char) :=
  let parts := Text.pieces '.' name
  if parts.length > 1 ∧ parts.getLast? = some [] then parts.dropLast else parts

/-- Whether a domain has to be an address. -/
def endsInNumber (domain : List Char) : Bool :=
  match (dottedParts domain).getLast? with
  | some last => (last ≠ [] ∧ Text.allDigits last) || (addressPart? last).isSome
  | none => false

/-- Whether a dotted name is an address: at most four numbers, of which the
last one fills the bytes that the others leave. -/
def isAddress (domain : List Char) : Bool :=
  match (dottedParts domain).mapM addressPart? with
  | none => false
  | some numbers =>
    let others := numbers.dropLast
    numbers.length ≤ 4 && others.all (· < 256) &&
      (numbers.getLast?.any fun last => last < Nat.pow 256 (4 - others.length))

/-! ## §3 Addresses of eight groups -/

/-- Whether a text is a number below 256 in its shortest form. -/
def isOctet (part : List Char) : Bool :=
  part ≠ [] && Text.allDigits part && part.length ≤ 3 && Text.decimalValue part < 256 &&
    (part.length = 1 || part.head? ≠ some '0')

/-- Whether a text is one to four hexadecimal digits. -/
def isGroup (part : List Char) : Bool :=
  part ≠ [] && part.length ≤ 4 && part.all (isDigitIn 16)

/-- How many groups the parts between colons are; four numbers at the end count
for two. -/
def groupCount? (atEnd : Bool) : List (List Char) → Option Nat
  | [] => some 0
  | [part] =>
    let octets := Text.pieces '.' part
    if isGroup part then some 1
    else if atEnd && octets.length = 4 && octets.all isOctet then some 2
    else none
  | part :: parts => if isGroup part then (groupCount? atEnd parts).map (· + 1) else none

def groups? (atEnd : Bool) (cs : List Char) : Option Nat :=
  if cs = [] then some 0 else groupCount? atEnd (Text.pieces ':' cs)

/-- What stands before and behind the first double colon. -/
def atDoubleColon? : List Char → Option (List Char × List Char)
  | [] => none
  | ':' :: ':' :: rest => some ([], rest)
  | c :: cs => (atDoubleColon? cs).map fun (before, behind) => (c :: before, behind)

/-- Whether a text is an address of eight groups, of which a double colon may
stand for some. -/
def isGroupAddress (cs : List Char) : Bool :=
  match atDoubleColon? cs with
  | none => groups? true cs = some 8
  | some (before, behind) =>
    match groups? false before, groups? true behind with
    | some m, some n => m + n ≤ 7
    | _, _ => false

/-! ## §4 Hosts -/

/-- A host. -/
inductive Host where
  | domain (name : List Char)
  | address
deriving DecidableEq, Repr

namespace Host

def isForbidden (c : Char) : Bool :=
  c ∈ ['\x00', '\t', '\n', '\r', ' ', '#', '/', ':', '<', '>', '?', '@', '[', '\\', ']', '^', '|']

def isForbiddenInDomain (c : Char) : Bool :=
  isForbidden c || c.toNat < 0x20 || c = '%' || c = '\x7f'

def inBrackets? (cs : List Char) : Option Host :=
  if cs.getLast? = some ']' ∧ isGroupAddress cs.tail.dropLast then some .address else none

/-- Reads a host in one of the schemes of the web. Of a domain the letters A to Z are put in lower
case, and that is all: the mapping of international domain names (IDNA), which would turn full-width
letters into plain ones and refuse some domains altogether, is not followed. So a domain beyond
ASCII may be taken for another machine where it is `localhost`, or for a host where it is none. -/
def ofWeb? (cs : List Char) : Option Host :=
  if cs.head? = some '[' then inBrackets? cs
  else do
    let decoded ← Text.Utf8.decode? (unescaped cs)
    let domain := decoded.map Char.toLower
    if domain = [] ∨ domain.any isForbiddenInDomain then none
    else if endsInNumber domain then if isAddress domain then some .address else none
    else some (.domain domain)

def ofName? (cs : List Char) : Option Host :=
  if cs.head? = some '[' then inBrackets? cs
  else if cs.any isForbidden then none
  else some (.domain cs)

def isLocal : Host → Bool
  | domain name => name = "localhost".toList
  | address => false

end Host

end Daybook.Uri
