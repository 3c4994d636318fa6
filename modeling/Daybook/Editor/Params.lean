/-
Daybook.Editor.Params — what the messages of an editor are about.

Most messages are about one document; some give a place in it or a text. A
record of parameters is written as an object or as a list of its fields, as
messages are.

§1 the records, §2 from values.
-/
import Daybook.Edit
import Daybook.Json

namespace Daybook.Editor.Params

/-! ## §1 Records -/

/-- A document that is opened. -/
structure Opened where
  uri : String
  text : String
deriving DecidableEq, Repr

/-- A document that changes; each change is a whole text. -/
structure Changed where
  uri : String
  texts : List String
deriving DecidableEq, Repr

/-- A document that is saved, perhaps with its text. -/
structure Saved where
  uri : String
  text : Option String
deriving DecidableEq, Repr

/-- A place in a document. -/
structure Place where
  uri : String
  position : Position
deriving DecidableEq, Repr

/-! ## §2 From values -/

def uri? (j : Json) : Option String := do
  Json.field? (← j.fields? ["uri"]) "uri" Json.str?

def document? (j : Json) : Option String := do
  Json.field? (← j.fields? ["textDocument"]) "textDocument" uri?

def Opened.ofJson? (j : Json) : Option Opened := do
  let document ← Json.field? (← j.fields? ["textDocument"]) "textDocument"
    (Json.fields? ["uri", "text"])
  pure
    { uri := ← Json.field? document "uri" Json.str?
      text := ← Json.field? document "text" Json.str? }

def changeText? (j : Json) : Option String := do
  Json.field? (← j.fields? ["text"]) "text" Json.str?

def Changed.ofJson? (j : Json) : Option Changed := do
  let fields ← j.fields? ["textDocument", "contentChanges"]
  pure
    { uri := ← Json.field? fields "textDocument" uri?
      texts := ← (← Json.field? fields "contentChanges" Json.arr?).mapM changeText? }

def optionalText? : Json → Option (Option String)
  | .null => some none
  | j => j.str?.map some

def Saved.ofJson? (j : Json) : Option Saved := do
  let fields ← j.fields? ["textDocument", "text"]
  pure
    { uri := ← Json.field? fields "textDocument" uri?
      text := ← Json.fieldOr fields "text" none optionalText? }

def position? (j : Json) : Option Position := do
  let fields ← j.fields? ["line", "character"]
  pure
    { line := ← Json.field? fields "line" (Json.nat? Counter.largest)
      character := ← Json.field? fields "character" (Json.nat? Counter.largest) }

def Place.ofJson? (j : Json) : Option Place := do
  let fields ← j.fields? ["textDocument", "position"]
  pure
    { uri := ← Json.field? fields "textDocument" uri?
      position := ← Json.field? fields "position" position? }

end Daybook.Editor.Params
