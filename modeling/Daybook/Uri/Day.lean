/-
Daybook.Uri.Day — the file and the day of a document.

A document is the file at the path of its URI, unless the URI names another
machine, and it has the day of that file. The other way round, a file is named
by its path, in which every byte that could be misread is escaped.

§1 the path of a URI, §2 the URI of a path, §3 the day of a document.
-/
import Daybook.DayFile
import Daybook.Uri

namespace Daybook.Uri

/-! ## §1 Paths -/

/-- Whether a byte is an ASCII letter. -/
def isLetterByte (b : UInt8) : Bool := (0x41 ≤ b && b ≤ 0x5A) || (0x61 ≤ b && b ≤ 0x7A)

/-- A path that ends in a drive gets a slash. -/
def closeDrive (bytes : List UInt8) : List UInt8 :=
  match bytes.reverse with
  | mark :: letter :: _ :: _ =>
    if isLetterByte letter ∧ (mark = 0x3A ∨ mark = 0x7C) then bytes ++ [Path.slash] else bytes
  | _ => bytes

/-- The path of the file that a URI names, if it is a file of this machine. -/
def path? (u : Uri) : Option Path :=
  if u.host.all Host.isLocal then
    u.segments.map fun segments =>
      ⟨closeDrive (segments.flatMap fun segment => Path.slash :: unescaped segment)⟩
  else none

/-! ## §2 URIs of paths -/

def isEscaped (b : UInt8) : Bool :=
  b ≤ 0x20 || 0x7F ≤ b || b ∈ "\"#<>?\x60\x7b\x7d/%\\".toUTF8.toList

def escapeDigits (b : UInt8) : List Char :=
  let digit := fun n : Nat => Char.ofNat (if n < 10 then 0x30 + n else 0x37 + n)
  [digit (b.toNat / 16), digit (b.toNat % 16)]

def escapeByte (b : UInt8) : List Char :=
  if isEscaped b then '%' :: escapeDigits b else [Char.ofNat b.toNat]

def ofPath? (p : Path) : Option String :=
  if p.isAbsolute then
    let segments := if p.names = [] then [[]] else p.names
    some (String.ofList ("file://".toList ++
      segments.flatMap fun name => '/' :: name.flatMap escapeByte))
  else none

/-! ## §3 Days -/

/-- Why a document has no day. -/
inductive DayError where
  | noUri (uri : String)
  | notLocal (uri : String)
  | badFile (error : DayFile.Error)
deriving DecidableEq, Repr

def DayError.message : DayError → String
  | noUri uri => "invalid document URI " ++ uri
  | notLocal uri => uri ++ " is not a local file URI"
  | badFile e => e.message

/-- The day of the document with this URI, whose file has to lie under `root`. -/
def dayOf (uri : String) (root : Option Path) : Except DayError Day :=
  match parse? uri with
  | none => .error (.noUri uri)
  | some u =>
    match u.path? with
    | none => .error (.notLocal uri)
    | some path => (DayFile.dayOf path root).mapError .badFile

end Daybook.Uri
