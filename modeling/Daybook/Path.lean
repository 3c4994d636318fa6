/-
Daybook.Path — where files are.

A path is a sequence of bytes, of which most are text and some are not. Two
paths are compared by their components: doubled slashes and dots inside a path
do not count, two dots are a component like any other.

§1 paths as texts, §2 components, §3 joining.
-/
import Daybook.Text.Pieces
import Daybook.Text.Utf8

namespace Daybook

/-! ## §1 Paths as texts -/

/-- The path of a file. -/
structure Path where
  bytes : List UInt8
deriving DecidableEq, Repr

namespace Path

def slash : UInt8 := 0x2F

def dot : UInt8 := 0x2E

def ofText (text : String) : Path := ⟨Text.Utf8.encode text.toList⟩

/-- The characters of a path; bytes that are no text show as U+FFFD. -/
def chars (p : Path) : List Char := Text.Utf8.decodeLossy p.bytes

def text (p : Path) : String := String.ofList p.chars

/-! ## §2 Components -/

/-- One step of a path. -/
inductive Component where
  /-- The slash that a path starts with. -/
  | root
  /-- The dot that a path starts with. -/
  | here
  | name (bytes : List UInt8)
deriving DecidableEq, Repr

def isAbsolute (p : Path) : Bool := p.bytes.head? = some slash

def start (p : Path) : List Component :=
  if p.isAbsolute then [.root]
  else if (Text.pieces slash p.bytes).head? = some [dot] then [.here]
  else []

def names (p : Path) : List (List UInt8) :=
  (Text.pieces slash p.bytes).filter fun piece => piece ≠ [] ∧ piece ≠ [dot]

def components (p : Path) : List Component := p.start ++ p.names.map .name

/-- Whether a path lies under `root`, or is `root`. -/
def isUnder (p root : Path) : Bool := root.components.isPrefixOf p.components

/-- The path without its last component; the root and the empty path are
inside nothing. -/
def parent? (p : Path) : Option Path :=
  match p.components.reverse with
  | [] => none
  | .root :: _ => none
  | _ :: rest =>
    let start := if p.isAbsolute then [slash] else []
    some ⟨start ++ Text.glue slash (rest.reverse.filterMap fun
      | .root => none
      | .here => some [dot]
      | .name bytes => some bytes)⟩

/-! ## §3 Joining -/

def join (p q : Path) : Path :=
  if q.isAbsolute then q
  else if p.bytes = [] ∨ p.bytes.getLast? = some slash then ⟨p.bytes ++ q.bytes⟩
  else ⟨p.bytes ++ slash :: q.bytes⟩

end Path

end Daybook
