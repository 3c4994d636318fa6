/-
Daybook.Arguments — what a command line asks for.

A command line names a command and gives it a file, options and flags. Two
options go with every command, before its name or behind it: where the
configuration is, and whether to be verbose.

§1 the program that is named first, §2 requests, §3 slots, §4 commands.
-/

namespace Daybook

/-! ## §1 The program -/

namespace About

/-- What the program is called: on its command line, to editors, and as the directory of its
configuration. -/
def name : String := "tsf"

def version : String := "0.1.0"

end About

/-! ## §2 Requests -/

/-- A command with what it is given. -/
inductive Command where
  | check (file : String) (date : Option String)
  | save (file : String) (date : Option String) (draft : Bool)
  | report (date : Option String) (write : Bool)
  | tokens (file : String) (date : Option String) (encoded : Bool)
  | categories
  | serve
deriving DecidableEq, Repr

/-- A command line. -/
structure Arguments where
  verbose : Bool := false
  config : Option String := none
  command : Option Command := none
deriving DecidableEq, Repr

namespace Arguments

/-! ## §3 Slots -/

/-- What a slot holds. -/
inductive Holds where
  /-- Nothing: it is a flag. -/
  | nothing
  | text
  /-- A path, which is not empty. -/
  | path
deriving DecidableEq, Repr

/-- An option, a flag, or the place of a file. -/
structure Slot where
  name : String
  letter : Option Char := none
  holds : Holds
  help : String
deriving DecidableEq, Repr

def verboseFlag : Slot := ⟨"verbose", some 'v', .nothing, "Enable verbose output"⟩

def configOption : Slot := ⟨"config", some 'c', .path, "Path to config file"⟩

def helpFlag : Slot := ⟨"help", some 'h', .nothing, "Print help"⟩

def versionFlag : Slot := ⟨"version", some 'V', .nothing, "Print version"⟩

def commonSlots : List Slot := [verboseFlag, configOption]

def fileSlot (help : String) : Slot := ⟨"file", none, .path, help⟩

def dateOption (help : String) : Slot := ⟨"date", none, .text, help⟩

/-! ## §4 Commands -/

/-- How a command is written. -/
structure Verb where
  name : String
  about : String
  operand : Option Slot := none
  options : List Slot := []
deriving DecidableEq, Repr

def helpVerb : String := "help"

/-- The commands, apart from `help`. -/
def verbs : List Verb :=
  [ { name := "check"
      about := "Report the lines of a day file that do not parse"
      operand := some (fileSlot "Day file, usually \x60<root>/YYYY/MM/DD.tsf\x60")
      options :=
        [dateOption "Date of the file (YYYY-MM-DD); taken from the path when omitted"] },
    { name := "save"
      about := "Parse a day file and store its entries"
      operand := some (fileSlot "")
      options :=
        [dateOption "", ⟨"draft", none, .nothing, "Store as a draft: only pending totals change"⟩] },
    { name := "report"
      about := "Print daily, weekly and monthly statistics"
      options :=
        [dateOption "Day to report on (YYYY-MM-DD); defaults to today",
          ⟨"write", none, .nothing, "Also write the report file and print its path"⟩] },
    { name := "tokens"
      about := "Print the semantic tokens of a day file"
      operand := some (fileSlot "")
      options :=
        [dateOption "",
          ⟨"encoded", none, .nothing, "Print the delta-encoded stream as JSON"⟩] },
    { name := "categories", about := "List configured categories" },
    { name := "serve", about := "Run the language server on stdin/stdout" } ]

def verb? (name : String) : Option Verb := verbs.find? (·.name = name)

end Arguments

end Daybook
