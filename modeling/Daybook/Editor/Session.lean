/-
Daybook.Editor.Session — a conversation with an editor.

A session knows the texts of the open documents. A change or a save schedules
a cycle, which waits until the document is left alone: then the text is
recorded, as a draft or as a save, and its problems are published. Requests
are answered at once from what has been recorded. When the editor shuts the
session down no cycle waits any longer.

The store always answers here. If it could fail, a hover or a definition that
asks it in vain would get an internal error for its reply, and a cycle that
cannot record would publish nothing.

§1 sessions, §2 cycles, §3 requests, §4 notifications, §5 messages.
-/
import Daybook.Arguments
import Daybook.Editor.Debouncer
import Daybook.Editor.Documents
import Daybook.Editor.Message
import Daybook.Editor.Outgoing
import Daybook.Editor.Params

namespace Daybook.Editor

/-! ## §1 Sessions -/

/-- The work that waits for a document to be left alone. -/
structure Cycle where
  uri : String
  mode : WriteMode
deriving DecidableEq, Repr

/-- A conversation with an editor. -/
structure Session where
  journal : Journal
  documents : Documents := {}
  debouncer : Debouncer Cycle
  projectRoot : Option Path
  reportDirectory : Path
  /-- Whether the editor has asked the server to shut down. -/
  closing : Bool := false

namespace Session

def dayOf? (s : Session) (uri : String) : Option Day := (Uri.dayOf uri s.projectRoot).toOption

/-! ## §2 Cycles -/

def kindOf : WriteMode → String
  | .draft => "change"
  | .save => "save"

def schedule (s : Session) (uri : String) (mode : WriteMode) : Session :=
  { s with debouncer := s.debouncer.schedule (kindOf mode) uri { uri, mode } }

/-- The problems of a text as they are shown. -/
def diagnosticsOf (categories : List String) (text : String) (problems : List LineProblem) :
    List Diagnostic :=
  problems.filterMap (Diagnostic.ofProblem? categories (Text.linesOf text))

/-- Runs a cycle: records the text of its document and publishes its problems.
It does nothing for a document that is closed or no day file. -/
def runCycle (s : Session) (c : Cycle) : Session × List Outgoing :=
  match s.dayOf? c.uri, s.documents.get? c.uri with
  | some d, some text =>
    let (journal, analysis) := s.journal.record text d c.mode
    ({ s with journal },
      [.diagnostics c.uri (diagnosticsOf journal.classifier.categories text analysis.problems)])
  | _, _ => (s, [])

def runCycles (s : Session) : List Cycle → Session × List Outgoing
  | [] => (s, [])
  | c :: cs =>
    let (s, first) := s.runCycle c
    let (s, rest) := s.runCycles cs
    (s, first ++ rest)

/-- Runs all cycles that wait. -/
def flush (s : Session) : Session × List Outgoing :=
  let (debouncer, cycles) := s.debouncer.flush
  runCycles { s with debouncer } cycles

/-- Lets time pass, and runs the cycles that fall due. -/
def advance (s : Session) (ms : Nat) : Session × List Outgoing :=
  let (debouncer, due) := s.debouncer.advance ms
  runCycles { s with debouncer } (due.map (·.action))

/-! ## §3 Requests -/

def capabilities : Json :=
  .object
    [("textDocumentSync", .object
        [("openClose", .bool true), ("change", number 1),
          ("save", .object [("includeText", .bool true)])]),
      ("hoverProvider", .bool true),
      ("definitionProvider", .bool true),
      ("completionProvider", .object []),
      ("documentFormattingProvider", .bool true),
      ("semanticTokensProvider", .object
        [("legend", .object
            [("tokenTypes", .ofStrings Highlight.Kind.legend), ("tokenModifiers", .arr [])]),
          ("full", .bool true)])]

def introduction : Json :=
  .object
    [("capabilities", capabilities),
      ("serverInfo", .object [("name", .str About.name), ("version", .str About.version)])]

/-- The marks of a document as numbers, in UTF-16 columns. -/
def markStream (s : Session) (uri : String) : List Nat :=
  match s.dayOf? uri with
  | none => []
  | some d =>
    let lines := s.documents.lines uri
    Highlight.encode ((Highlight.mark (s.journal.reader d) lines).map (Highlight.toUtf16 lines))

/-- What is shown at any place of a day file. -/
def hover (s : Session) (uri : String) : Json :=
  match s.dayOf? uri with
  | none => .null
  | some d =>
    .object [("contents", .object
      [("kind", .str "plaintext"), ("value", .str (s.journal.hover d))])]

/-- The definition of anything in a day file is the report of its day. -/
def definition (s : Session) (uri : String) : Reply :=
  match s.dayOf? uri with
  | none => .result .null
  | some d => .report { directory := s.reportDirectory, day := d, text := s.journal.report d }

/-- Completion is offered up to this column. -/
def completionColumns : Nat := 5

/-- A category that is offered; the number says that it is a class. -/
def completionItem (category : String) : Json :=
  .object [("label", .str category), ("kind", number 7), ("detail", .str "Category")]

def completions (s : Session) (p : Position) : Json :=
  if p.character > completionColumns then .arr []
  else .arr (s.journal.classifier.categories.map completionItem)

def tidy (s : Session) (uri : String) : Json :=
  .arr (((s.documents.get? uri).elim [] Edit.tidy).map editValue)

def withParams {α : Type} (params : Option α) (reply : α → Reply) : Reply :=
  params.elim (.error .badParams) reply

/-- Answers a request that changes nothing. -/
def answer (s : Session) (method : String) (params : Json) : Reply :=
  match method with
  | "initialize" => .result introduction
  | "textDocument/semanticTokens/full" =>
    withParams (Params.document? params) fun uri =>
      .result (.object [("data", .ofNats (s.markStream uri))])
  | "textDocument/hover" =>
    withParams (Params.Place.ofJson? params) fun p => .result (s.hover p.uri)
  | "textDocument/definition" =>
    withParams (Params.Place.ofJson? params) fun p => s.definition p.uri
  | "textDocument/completion" =>
    withParams (Params.Place.ofJson? params) fun p => .result (s.completions p.position)
  | "textDocument/formatting" =>
    withParams (Params.document? params) fun uri => .result (s.tidy uri)
  | _ => .error (.unknownMethod method)

/-- Answers a request. A session that is closing refuses all of them; closing
it runs the cycles that wait, before the reply. -/
def request (s : Session) (id : Json) (method : String) (params : Json) :
    Session × List Outgoing :=
  if s.closing then (s, [.reply id (.error .closing)])
  else if method = "shutdown" then
    let (s, published) := flush { s with closing := true }
    (s, published ++ [.reply id (.result .null)])
  else (s, [.reply id (s.answer method params)])

/-! ## §4 Notifications -/

def setText (s : Session) (uri text : String) : Session :=
  { s with documents := s.documents.set uri text }

/-- Follows a notification; one that is unknown or cannot be read changes
nothing. -/
def notice (s : Session) (method : String) (params : Json) : Session :=
  match method with
  | "textDocument/didOpen" =>
    (Params.Opened.ofJson? params).elim s fun p => s.setText p.uri p.text
  | "textDocument/didChange" =>
    (Params.Changed.ofJson? params).elim s fun p =>
      (p.texts.getLast?.elim s (s.setText p.uri)).schedule p.uri .draft
  | "textDocument/didSave" =>
    (Params.Saved.ofJson? params).elim s fun p =>
      (p.text.elim s (s.setText p.uri)).schedule p.uri .save
  | "textDocument/didClose" =>
    (Params.document? params).elim s fun uri => { s with documents := s.documents.remove uri }
  | _ => s

/-! ## §5 Messages -/

/-- Whether a conversation goes on. -/
inductive Flow where
  | goOn
  | exit
deriving DecidableEq, Repr

/-- Handles a message. -/
def handle (s : Session) (m : Message) : Session × List Outgoing × Flow :=
  if m.method = "" then (s, [], .goOn)
  else match m.id with
    | some id =>
      let (s, out) := s.request id m.method m.params
      (s, out, .goOn)
    | none =>
      if m.method = "exit" then (s, [], .exit) else (s.notice m.method m.params, [], .goOn)

end Session

end Daybook.Editor
