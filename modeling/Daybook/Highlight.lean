/-
Daybook.Highlight — marking the words of a text.

An editor colours the words of every line that records an entry: the category,
the duration, and each word behind them. A line that records none, or a
holiday, is left alone. Marks carry absolute positions; editors receive them
as a stream of integers in which each position is relative to the one before.

§1 marks, §2 the words of a line, §3 the marks of a text, §4 the stream, §5
columns in UTF-16 units.
-/
import Daybook.Line.Reader
import Daybook.Text.Pieces
import Daybook.Text.Utf16
import Daybook.Text.Utf8

namespace Daybook.Highlight

/-! ## §1 Marks -/

/-- What a marked word is. -/
inductive Kind where
  | category
  | duration
  | word
  /-- Announced to editors, and never used. -/
  | comment
deriving DecidableEq, Repr

namespace Kind

def all : List Kind := [category, duration, word, comment]

def index : Kind → Nat
  | category => 0
  | duration => 1
  | word => 2
  | comment => 3

def name : Kind → String
  | category => "class"
  | duration => "property"
  | word => "string"
  | comment => "comment"

def legend : List String := all.map name

theorem all_index (k : Kind) : all[k.index]? = some k := by cases k <;> rfl

def ofPlace : Nat → Kind
  | 0 => category
  | 1 => duration
  | _ => word

end Kind

/-- A marked word: its line, where it begins and how long it is. -/
structure Mark where
  line : Nat
  column : Nat
  length : Nat
  kind : Kind
deriving DecidableEq, Repr

/-! ## §2 The words of a line -/

/-- The pieces of a line that are not empty, with the offsets where they
begin, the first piece being at `offset` and one character between each two. -/
def placeWords (offset : Nat) : List (List Char) → List (Nat × List Char)
  | [] => []
  | p :: ps =>
    let rest := placeWords (offset + Text.Utf8.size p + 1) ps
    if p.isEmpty then rest else (offset, p) :: rest

/-- The words of a line between its spaces, with their byte offsets. White
space at the ends belongs to no word. -/
def words (line : List Char) : List (Nat × List Char) :=
  let offset := Text.Utf8.size line - Text.Utf8.size (Text.trimStart line)
  placeWords offset (Text.pieces ' ' (Text.trim line))

def markLine (number : Nat) (line : String) : List Mark :=
  (words line.toList).zipIdx.map fun ((column, word), place) =>
    { line := number
      column := Counter.cap column
      length := Counter.cap (Text.Utf8.size word)
      kind := Kind.ofPlace place }

/-! ## §3 The marks of a text -/

/-- Whether a line records a valid entry. -/
def recordsEntry (r : Line.Reader) (line : String) : Bool :=
  match r.readValid line with
  | .ok (.entry _) => true
  | _ => false

/-- The marks of the lines that record entries. -/
def mark (r : Line.Reader) (lines : List String) : List Mark :=
  lines.zipIdx.flatMap fun (line, number) =>
    if recordsEntry r line then markLine (Counter.cap number) line else []

/-! ## §4 The stream -/

/-- The five integers of a mark: its line relative to `before`, its column,
relative only on the same line, its length, its kind and no modifiers. A mark
that goes backwards counts as one that stays. -/
def delta (before : Option Mark) (m : Mark) : List Nat :=
  let (line, column) := match before with
    | some b => if b.line = m.line then (0, m.column - b.column) else (m.line - b.line, m.column)
    | none => (m.line, m.column)
  [line, column, m.length, m.kind.index, 0]

/-- The stream of the marks that follow `before`. -/
def encodeFrom (before : Option Mark) : List Mark → List Nat
  | [] => []
  | m :: ms => delta before m ++ encodeFrom (some m) ms

def encode (ms : List Mark) : List Nat := encodeFrom none ms

/-! ## §5 Columns in UTF-16 units -/

def utf16Length (line : List Char) : Nat := Counter.cap (Text.Utf16.size line)

/-- A mark with column and length in UTF-16 units instead of bytes. A mark
that does not begin and end between two characters of its line stays as it is. -/
def toUtf16 (lines : List String) (m : Mark) : Mark :=
  let line := ((lines[m.line]?).getD "").toList
  match Text.Utf8.slice? line 0 m.column, Text.Utf8.slice? line m.column m.length with
  | some before, some word =>
    { m with column := utf16Length before, length := utf16Length word }
  | _, _ => m

end Daybook.Highlight
