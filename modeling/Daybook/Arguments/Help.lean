/-
Daybook.Arguments.Help — how a command line is written.

The help for the program lists its commands, the help for a command its file;
both list the options. Names stand in a column that is as wide as the longest
of them.

§1 columns, §2 slots, §3 pages.
-/
import Daybook.Arguments

namespace Daybook.Arguments

/-! ## §1 Columns -/

def padTo (width : Nat) (s : String) : String :=
  s ++ String.ofList (List.replicate (width - s.length) ' ')

def block? (title : String) (rows : List (String × String)) : Option String :=
  if rows = [] then none
  else
    let width := (rows.map fun r => r.1.length).foldl max 0
    some (title ++ ":\n" ++
      String.join (rows.map fun (name, help) => "  " ++ padTo width name ++ "  " ++ help ++ "\n"))

/-! ## §2 Slots -/

def placeholder (slot : Slot) : String :=
  "<" ++ String.ofList (slot.name.toList.map Char.toUpper) ++ ">"

def optionName (slot : Slot) : String :=
  (match slot.letter with
    | some letter => String.ofList ['-', letter, ',', ' ']
    | none => "    ") ++
    "--" ++ slot.name ++ if slot.holds = .nothing then "" else " " ++ placeholder slot

def optionRows (slots : List Slot) : List (String × String) :=
  slots.map fun slot => (optionName slot, slot.help)

/-! ## §3 Pages -/

def page (parts : List (Option String)) : String :=
  String.intercalate "\n" (parts.filterMap id)

def programHelp : String :=
  page
    [some "Plain-text timesheet CLI and language server\n",
      some ("Usage: " ++ About.name ++ " [OPTIONS] [COMMAND]\n"),
      block? "Commands" ((verbs.map fun v => (v.name, v.about)) ++
        [(helpVerb, "Print this message or the help of the given subcommand(s)")]),
      block? "Options" (optionRows (commonSlots ++ [helpFlag, versionFlag]))]

def Verb.help (v : Verb) : String :=
  let operand := v.operand.toList
  page
    [some (v.about ++ "\n"),
      some ("Usage: " ++ About.name ++ " " ++ v.name ++ " [OPTIONS]" ++
        String.join (operand.map fun slot => " " ++ placeholder slot) ++ "\n"),
      block? "Arguments" (operand.map fun slot => (placeholder slot, slot.help)),
      block? "Options" (optionRows (v.options ++ commonSlots ++ [helpFlag]))]

def helpFor (name : Option String) : String :=
  match name.bind verb? with
  | some v => v.help
  | none => programHelp

def versionLine : String := About.name ++ " " ++ About.version ++ "\n"

end Daybook.Arguments
