/-
Daybook.Editor.Outgoing — what is said to an editor.

Every request gets one reply, and whenever a text has been recorded the
problems of its lines are published. The reply to one request depends on
whether a report could be written; such a reply waits until that is known.

§1 replies, §2 problems, §3 outgoing messages, §4 sending.
-/
import Daybook.Edit
import Daybook.Files
import Daybook.Journal
import Daybook.Json
import Daybook.Uri.Day

namespace Daybook.Editor

/-! ## §1 Replies -/

/-- Why a request is refused. -/
inductive RequestError where
  | closing
  | unknownMethod (method : String)
  /-- The parameters cannot be read. What exactly is wrong with them is not told apart, so the
  wording of this error is fixed. -/
  | badParams
  | failure (text : String)
deriving DecidableEq, Repr

namespace RequestError

def code : RequestError → Int
  | closing => -32600
  | unknownMethod _ => -32601
  | badParams => -32602
  | failure _ => -32603

def message : RequestError → String
  | closing => "server is shutting down"
  | unknownMethod method => "method not found: " ++ method
  | badParams => "invalid params"
  | failure text => text

end RequestError

/-- The reply to a request. -/
inductive Reply where
  | result (value : Json)
  | error (error : RequestError)
  /-- The place of a report that has to be written first. -/
  | report (file : ReportFile)

/-! ## §2 Problems -/

/-- A problem as it is shown at its line. -/
structure Diagnostic where
  range : Range
  message : String
deriving DecidableEq, Repr

/-- The problem of a line as it is shown, unless it is a blank line; `lines`
are the lines of the text. -/
def Diagnostic.ofProblem? (categories lines : List String) (p : LineProblem) :
    Option Diagnostic :=
  (p.problem.advice? categories).map fun message =>
    { range := .onLine (Counter.cap p.line) 0
        (Highlight.utf16Length (lines.getD p.line "").toList)
      message }

def number (n : Nat) : Json := .int (Int.ofNat n)

def positionValue (p : Position) : Json :=
  .object [("line", number p.line), ("character", number p.character)]

def rangeValue (r : Range) : Json :=
  .object [("start", positionValue r.start), ("end", positionValue r.stop)]

def editValue (e : Edit) : Json :=
  .object [("range", rangeValue e.range), ("newText", .str e.newText)]

/-- A problem as a value; the number says that it is an error. -/
def Diagnostic.toJson (d : Diagnostic) : Json :=
  .object
    [("range", rangeValue d.range), ("severity", number 1), ("source", .str "tsf"),
      ("message", .str d.message)]

/-! ## §3 Messages -/

/-- A message to an editor. -/
inductive Outgoing where
  | reply (id : Json) (reply : Reply)
  | diagnostics (uri : String) (diagnostics : List Diagnostic)

namespace Outgoing

def envelope (members : List (String × Json)) : Json :=
  .object (("jsonrpc", .str "2.0") :: members)

def resultValue (id value : Json) : Json := envelope [("id", id), ("result", value)]

def errorValue (id : Json) (e : RequestError) : Json :=
  envelope
    [("id", id), ("error", .object [("code", .int e.code), ("message", .str e.message)])]

def reportValue (id : Json) (file : ReportFile) (written : Bool) : Json :=
  if !written then errorValue id (.failure file.failureMessage)
  else match Uri.ofPath? file.path with
    | some uri => resultValue id (.object [("uri", .str uri), ("range", rangeValue {})])
    | none => errorValue id (.failure (file.path.text ++ " is not absolute"))

def diagnosticsValue (uri : String) (ds : List Diagnostic) : Json :=
  envelope
    [("method", .str "textDocument/publishDiagnostics"),
      ("params", .object
        [("uri", .str uri), ("diagnostics", .arr (ds.map Diagnostic.toJson))])]

/-! ## §4 Sending -/

/-- The value that is sent; a report that it waits for is written. -/
def send {m : Type → Type} [Monad m] (files : Files m) : Outgoing → m Json
  | reply id (.result value) => pure (resultValue id value)
  | reply id (.error e) => pure (errorValue id e)
  | reply id (.report file) => do pure (reportValue id file (← files.writeReport file))
  | diagnostics uri ds => pure (diagnosticsValue uri ds)

end Outgoing

end Daybook.Editor
