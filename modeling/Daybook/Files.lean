/-
Daybook.Files — what the library needs of a file system.

Files are looked up, written and put into directories; that is all. The
operations are given as a value, so that the same program runs on the files of
a machine and on a tree of files in memory.

§1 the operations, §2 report files.
-/
import Daybook.Path
import Daybook.Report

namespace Daybook

/-! ## §1 Operations -/

/-- What stands at a path. -/
inductive Found where
  | nothing
  | file (content : List UInt8)
  /-- A directory, or a file that may not be read. -/
  | unreadable
deriving DecidableEq, Repr

/-- A file system, whose operations run in `m`. -/
structure Files (m : Type → Type) where
  /-- Looks up a path. -/
  find : Path → m Found
  /-- Writes a file, and says whether that worked. -/
  write : Path → List UInt8 → m Bool
  /-- Makes a directory and those it lies in, unless they exist. -/
  makeDirectory : Path → m Bool

/-! ## §2 Report files -/

/-- A report that is to be written. -/
structure ReportFile where
  directory : Path
  day : Day
  text : String
deriving Repr

namespace ReportFile

def path (r : ReportFile) : Path := r.directory.join (.ofText (Report.fileName r.day))

def failureMessage (r : ReportFile) : String := "failed to write report " ++ r.path.text

end ReportFile

def Files.writeReport {m : Type → Type} [Monad m] (files : Files m) (r : ReportFile) : m Bool := do
  if ← files.makeDirectory r.directory then
    files.write r.path (Text.Utf8.encode r.text.toList)
  else pure false

end Daybook
