/-
Daybook.Edit — tidying a text.

Tidying strips the spaces at the ends of lines and sees to a final newline.
It is told to an editor as edits, each of which replaces a span of columns of
one line; columns are UTF-16 units.

§1 positions and edits, §2 the edits that tidy a text, §3 what edits make of a
text.
-/
import Daybook.Highlight

namespace Daybook

/-! ## §1 Edits -/

/-- A place in a text: a line and a column, from zero. -/
structure Position where
  line : Nat := 0
  character : Nat := 0
deriving DecidableEq, Repr

/-- What stands between two places. -/
structure Range where
  start : Position := {}
  stop : Position := {}
deriving DecidableEq, Repr

def Range.onLine (line first last : Nat) : Range := ⟨⟨line, first⟩, ⟨line, last⟩⟩

/-- The replacement of a range by a text. -/
structure Edit where
  range : Range
  newText : String
deriving DecidableEq, Repr

namespace Edit

/-! ## §2 Tidying -/

/-- A line without the spaces at its end. -/
def stripSpaces (line : List Char) : List Char := Text.dropEndWhile (· = ' ') line

/-- The edit that tidies one line, if it needs one; `unfinished` says that a
newline has to be added behind it. -/
def ofLine? (number : Nat) (unfinished : Bool) (line : List Char) : Option Edit :=
  let stripped := stripSpaces line
  if stripped.length < line.length ∨ unfinished then
    some
      { range := .onLine (Counter.cap number) (Highlight.utf16Length stripped)
          (Highlight.utf16Length line)
        newText := if unfinished then "\n" else "" }
  else none

/-- The edits for the lines from `number` on; the last line needs a newline
unless it is empty. -/
def ofLines (number : Nat) : List (List Char) → List Edit
  | [] => []
  | [line] => (ofLine? number (!line.isEmpty) line).toList
  | line :: lines => (ofLine? number false line).toList ++ ofLines (number + 1) lines

/-- The edits that tidy a text. An empty text stays empty. -/
def tidy (text : String) : List Edit :=
  if text.isEmpty then [] else ofLines 0 (Text.pieces '\n' text.toList)

/-! ## §3 Applying edits -/

/-- A text cut at a place of it, whose column counts the UTF-16 units of its line; `none` when the
text has no such place. -/
def cutText? : Nat → Nat → List Char → Option (List Char × List Char)
  | 0, column, text =>
    (Text.cutAt? Text.Utf16.width column (text.takeWhile (· ≠ '\n'))).map
      fun (before, after) => (before, after ++ text.dropWhile (· ≠ '\n'))
  | line + 1, column, text =>
    match text.dropWhile (· ≠ '\n') with
    | [] => none
    | _ :: rest => (cutText? line column rest).map
      fun (before, after) => (text.takeWhile (· ≠ '\n') ++ '\n' :: before, after)

/-- A text after an edit; an edit of a range that the text does not have changes nothing. -/
def apply (e : Edit) (text : List Char) : List Char :=
  let start := e.range.start
  let stop := e.range.stop
  match cutText? start.line start.character text, cutText? stop.line stop.character text with
  | some (before, _), some (_, after) => before ++ e.newText.toList ++ after
  | _, _ => text

/-- A text after edits that stand in the order of their ranges. All ranges are places of the text
as it was, so the last edit is made first: it moves no place of another. -/
def applyAll (es : List Edit) (text : String) : String :=
  String.ofList (es.foldr apply text.toList)

end Edit

end Daybook
