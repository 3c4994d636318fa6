/-
Daybook.Main — the program on a machine.

Here the files are those of the machine, the variables those of the process,
and time passes. What the program does with them is decided elsewhere.

§1 files, §2 surroundings, §3 conversations, §4 the program.
-/
import Daybook.Program
import Std.Time.Zoned

namespace Daybook.Main

/-! ## §1 Files -/

def find (p : Path) : IO Found := do
  try return .file (← IO.FS.readBinFile p.text).toList
  catch e => match e with
    | .noFileOrDirectory .. => return .nothing
    | _ => return .unreadable

def write (p : Path) (content : List UInt8) : IO Bool := do
  try
    IO.FS.writeBinFile p.text (ByteArray.mk content.toArray)
    return true
  catch _ => return false

def makeDirectory (p : Path) : IO Bool := do
  if p.bytes = [] then return true
  try
    IO.FS.createDirAll p.text
    return true
  catch _ => return false

/-- The files of the machine. -/
def files : Files IO := { find, write, makeDirectory }

/-! ## §2 Surroundings -/

def binding? (bytes : List UInt8) : Option (String × String) := do
  let cs ← Text.Utf8.decode? bytes
  let name := cs.takeWhile (· ≠ '=')
  if name = [] then none else some (String.ofList name, String.ofList (cs.drop (name.length + 1)))

def processVariables : IO (List (String × String)) := do
  match ← find (.ofText "/proc/self/environ") with
  | .file content => return (Text.pieces 0 content).filterMap binding?
  | _ => return []

def today : IO Day := do
  let date ← Std.Time.PlainDate.now
  match Day.ofDate? date.year.toInt date.month.val.toNat date.day.val.toNat with
  | some d => return d
  | none => throw (IO.userError "the date is out of range")

def surroundings : IO Surroundings :=
  return {
    «variables» := ← processVariables
    directory := .ofText (← IO.currentDir).toString
    today := ← today }

/-! ## §3 Conversations -/

/-- A conversation in progress. -/
structure Talk where
  session : Editor.Session
  database : Path
  /-- The bytes that have arrived and are no message yet. -/
  unread : List UInt8 := []
  /-- When time was last looked at, in milliseconds. -/
  clock : Nat

/-- Sends messages, and keeps the store if it has changed. -/
def Talk.say (t : Talk) (session : Editor.Session) (outs : List Editor.Outgoing) : IO Talk := do
  let output ← IO.getStdout
  output.write (ByteArray.mk (← Editor.Server.sendAll files outs).toArray)
  output.flush
  if session.journal.store ≠ t.session.journal.store then
    let _ ← Program.keepStore files t.database session.journal.store
  return { t with session }

/-- Takes in what has arrived. -/
def Talk.takeIn (t : Talk) (arrival : Editor.Server.Arrival) : IO (Talk × Editor.Session.Flow) := do
  let (session, outs, flow, unread) := Editor.Server.takeIn t.session t.unread arrival
  let t ← t.say session outs
  return ({ t with unread }, flow)

/-- Lets the time pass that has passed. -/
def Talk.wait (t : Talk) : IO Talk := do
  let now ← IO.monoMsNow
  let (t, _) ← t.takeIn (.time (now - t.clock))
  return { t with clock := now }

def Talk.finish (t : Talk) : IO Unit := do
  let (session, outs) := Editor.Server.run t.session t.unread
  let _ ← t.say session outs

/-- Waits for input, looking at the time again and again. -/
partial def Talk.listen (t : Talk) (input : Task (Except IO.Error ByteArray)) :
    IO (Talk × ByteArray) := do
  let t ← t.wait
  if ← IO.hasFinished input then
    return (t, ← IO.ofExcept input.get)
  IO.sleep 10
  t.listen input

/-- Holds a conversation. -/
partial def Talk.run (t : Talk) : IO Unit := do
  let input ← IO.getStdin
  let (t, arrived) ← t.listen (← IO.asTask (input.read 65536))
  if arrived.isEmpty then t.finish
  else
    let (t, flow) ← t.takeIn (.bytes arrived.toList)
    match flow with
    | .goOn => t.run
    | .exit => Talk.finish { t with unread := [] }

end Daybook.Main

open Daybook in
def main (arguments : List String) : IO UInt32 := do
  match ← Program.run Main.files (← Main.surroundings) arguments with
  | .finished code output message =>
    IO.print output
    if let some text := message then IO.eprintln ("Error: " ++ text)
    else if code = 2 then IO.eprint Arguments.programHelp
    return code.toUInt32
  | .serving session database =>
    let talk : Main.Talk := { session, database, clock := ← IO.monoMsNow }
    talk.run
    return 0
