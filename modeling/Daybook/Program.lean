/-
Daybook.Program — running a command line.

A command line is run on the files it finds and in the surroundings it is
started in. Every command first finds the configuration; then come the day,
the text of the file, and the store, whichever of them it needs. The first of
these that is missing ends the program.

§1 how a program ends, §2 finding things, §3 commands, §4 the whole program,
§5 a conversation on files.
-/
import Daybook.Arguments.Help
import Daybook.Arguments.Reader
import Daybook.Commands
import Daybook.Config.Load
import Daybook.DayFile
import Daybook.Editor.Server
import Daybook.Store.File

namespace Daybook.Program

/-! ## §1 How a program ends -/

/-- Why a program ends early. -/
inductive Failure where
  | noConfig
  | badRules
  | noDay (error : DayFile.ChoiceError)
  | unreadable (file : String)
  | noDirectory
  | noDatabase
  | notStored (day : Day)
deriving DecidableEq, Repr

def Failure.message : Failure → String
  | noConfig => "failed to load configuration"
  | badRules => "invalid category configuration"
  | noDay e => e.message
  | unreadable file => "failed to read " ++ file
  | noDirectory => "failed to create database directory"
  | noDatabase => "failed to open database"
  | notStored day => "failed to store timesheet for " ++ day.render

/-- What becomes of a program. -/
inductive Outcome where
  /-- It has ended, with a code, what it printed, and an error. -/
  | finished (code : Nat) (output : String) (error : Option String)
  /-- It talks to an editor, and keeps the store at a path. -/
  | serving (session : Editor.Session) (database : Path)

def printed (output : String) : Outcome := .finished 0 output none

/-- The outcome of a program that read a text: its problems make the code. -/
def checked (p : Commands.Printed) : Outcome :=
  .finished (if p.problems = 0 then 0 else 1) p.output none

def failed (output message : String) : Outcome := .finished 1 output (some message)

/-! ## §2 Finding things -/

variable {m : Type → Type} [Monad m]

/-- Finds the configuration, whose rules have to be in order. -/
def findConfig (files : Files m) (s : Surroundings) (file : Option String) :
    ExceptT Failure m Config := do
  match ← (Config.load files s (file.map Path.ofText) : m (Option Config)) with
  | none => throw .noConfig
  | some c => if c.rules.flaw?.isSome then throw .badRules else pure c

def findDay (s : Surroundings) (c : Config) (date file : Option String) :
    ExceptT Failure m Day :=
  match DayFile.choose date (file.map Path.ofText) (c.projectRoot.map Path.ofText) s.today with
  | .ok d => pure d
  | .error e => throw (.noDay e)

def readText (files : Files m) (file : String) : ExceptT Failure m String := do
  match ← files.find (.ofText file) with
  | .file content =>
    match Text.Utf8.decode? content with
    | some cs => pure (String.ofList cs)
    | none => throw (.unreadable file)
  | _ => throw (.unreadable file)

def isTransient (p : Path) : Bool := p.text ∈ ["", ":memory:"]

/-- Keeps a store, and says whether that worked. -/
def keepStore (files : Files m) (database : Path) (store : Store) : m Bool :=
  if isTransient database then pure true else files.write database store.toBytes

/-- Finds the store; a new one is made where there is none. -/
def findStore (files : Files m) (database : Path) : ExceptT Failure m Store := do
  if let some directory := database.parent? then
    if !(← files.makeDirectory directory) then throw .noDirectory
  if isTransient database then return .empty
  match ← files.find database with
  | .nothing => if ← files.write database Store.empty.toBytes then pure .empty else throw .noDatabase
  | .unreadable => throw .noDatabase
  | .file content =>
    match Store.ofBytes? content with
    | some store => pure store
    | none => throw .noDatabase

/-- Finds the journal. -/
def findJournal (files : Files m) (c : Config) : ExceptT Failure m Journal := do
  pure { classifier := c.rules.classifier, store := ← findStore files (.ofText c.databasePath) }

/-! ## §3 Commands -/

/-- Runs `save`. -/
def runSave (files : Files m) (s : Surroundings) (c : Config) (file : String)
    (date : Option String) (mode : WriteMode) : ExceptT Failure m Outcome := do
  let d ← findDay s c date (some file)
  let text ← readText files file
  let journal ← findJournal files c
  let (journal, p) := Commands.save journal file text d mode
  if ← (keepStore files (.ofText c.databasePath) journal.store : m Bool) then pure (checked p)
  else throw (.notStored d)

/-- Runs `report`. -/
def runReport (files : Files m) (s : Surroundings) (c : Config) (date : Option String)
    (write : Bool) : ExceptT Failure m Outcome := do
  let d ← findDay s c date none
  let journal ← findJournal files c
  let text := journal.report d
  let file : ReportFile := { directory := .ofText c.reportDirectory, day := d, text }
  if !write then pure (printed text)
  else if ← files.writeReport file then pure (printed (text ++ Commands.writtenNote file))
  else pure (failed text file.failureMessage)

def sessionOf (c : Config) (journal : Journal) : Editor.Session where
  journal := journal
  debouncer := { window := c.window, scope := c.scope }
  projectRoot := c.projectRoot.map Path.ofText
  reportDirectory := .ofText c.reportDirectory

def runCommand (files : Files m) (s : Surroundings) (c : Config) :
    Command → ExceptT Failure m Outcome
  | .check file date => do
    let d ← findDay s c date (some file)
    pure (checked (Commands.check c.rules.classifier file (← readText files file) d))
  | .save file date draft => runSave files s c file date (if draft then .draft else .save)
  | .report date write => runReport files s c date write
  | .tokens file date encoded => do
    let d ← findDay s c date (some file)
    pure (printed (Commands.tokens c.rules.classifier (← readText files file) d encoded))
  | .categories => pure (printed (Commands.categories c.rules.classifier))
  | .serve => do
    pure (.serving (sessionOf c (← findJournal files c)) (.ofText c.databasePath))

/-! ## §4 The whole program -/

def stopped : Arguments.Stop → Outcome
  | .help verb => printed (Arguments.helpFor verb)
  | .version => printed Arguments.versionLine
  | .fault _ => .finished 2 "" none

def run (files : Files m) (s : Surroundings) (arguments : List String) : m Outcome :=
  match Arguments.parse arguments with
  | .error stop => pure (stopped stop)
  | .ok { command := none, .. } => pure (printed (Arguments.programHelp ++ "\n"))
  | .ok { command := some command, config, .. } => do
    let result ← ExceptT.run do runCommand files s (← findConfig files s config) command
    match result with
    | .ok outcome => pure outcome
    | .error failure => pure (failed "" failure.message)

/-! ## §5 A conversation on files -/

/-- Holds a whole conversation: what is sent, with the store kept at its end. -/
def converse (files : Files m) (session : Editor.Session) (database : Path)
    (input : List UInt8) : m (List UInt8) := do
  let (session, outs) := Editor.Server.run session input
  let sent ← Editor.Server.sendAll files outs
  let _ ← keepStore files database session.journal.store
  pure sent

end Daybook.Program
