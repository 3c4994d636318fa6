/-
Daybook.Arguments.Reader — reading a command line.

Arguments are read from left to right, first those before the name of the
command, then those behind it. The value of an option stands behind an equals
sign or is the next argument, letters of flags may be bundled, and behind two
dashes nothing is an option any more. A value is only looked at when the next
slot is filled or the arguments end, so a later fault can come first.

§1 why a command line is not run, §2 slots that are filled, §3 one argument,
§4 levels, §5 command lines.
-/
import Daybook.Arguments

namespace Daybook.Arguments

/-! ## §1 Stops -/

/-- What is wrong with a command line. -/
inductive Fault where
  | missingOperand
  | unknownArgument
  | badValue
  | tooManyValues
  | unknownCommand
  | repeated
deriving DecidableEq, Repr

/-- Why a command line is not run. -/
inductive Stop where
  /-- It asks for help, perhaps with a command. -/
  | help (verb : Option String)
  | version
  | fault (fault : Fault)
deriving DecidableEq, Repr

/-! ## §2 Slots that are filled -/

/-- What has been read at one level. -/
structure Filled where
  values : List (String × String) := []
  /-- The slot that was found last, with its value unless that is still to come. -/
  pending : Option (Slot × Option String) := none
deriving DecidableEq, Repr

namespace Filled

def isAwaiting (f : Filled) : Bool := f.pending.any fun p => p.2.isNone

/-- Fills a slot, which may be filled only once. -/
def fill (f : Filled) (slot : Slot) (value : String) : Except Stop Filled :=
  if (f.values.lookup slot.name).isSome then .error (.fault .repeated)
  else if slot.holds = .path ∧ value = "" then .error (.fault .badValue)
  else .ok { f with values := (slot.name, value) :: f.values }

/-- Fills the slot that was found last. -/
def settle (f : Filled) : Except Stop Filled :=
  match f.pending with
  | none => .ok f
  | some (_, none) => .error (.fault .badValue)
  | some (slot, some value) => fill { f with pending := none } slot value

def attach (f : Filled) (slot : Slot) (value : String) : Except Stop Filled := do
  (← f.settle).fill slot value

/-- Finds a slot, whose value comes later if there is none yet. -/
def await (f : Filled) (slot : Slot) (value : Option String) : Except Stop Filled := do
  pure { ← f.settle with pending := some (slot, value) }

/-- Raises a flag; two flags stop everything. -/
def raise (f : Filled) (verb : Option String) (slot : Slot) : Except Stop Filled := do
  let f ← f.settle
  if slot = helpFlag then throw (.help verb)
  if slot = versionFlag then throw .version
  f.fill slot "true"

end Filled

/-! ## §3 One argument -/

/-- What can be read at one level: before the name of the command, or behind it. -/
structure Level where
  /-- The command whose level this is. -/
  verb : Option String
  slots : List Slot
  operand : Option Slot := none
  /-- The commands that may be named here. -/
  commands : List String := []
deriving DecidableEq, Repr

/-- Reads an option that is named, behind its dashes. -/
def readName (l : Level) (f : Filled) (text : List Char) : Except Stop Filled :=
  let name := text.takeWhile (· ≠ '=')
  match l.slots.find? fun s => s.name = String.ofList name, text.drop name.length with
  | none, _ => .error (.fault .unknownArgument)
  | some slot, [] => if slot.holds = .nothing then f.raise l.verb slot else f.await slot none
  | some slot, _ :: value =>
    if slot.holds = .nothing then .error (.fault .tooManyValues)
    else f.attach slot (String.ofList value)

/-- Reads options that are given by letters, behind their dash. What follows
the letter of an option that holds something is its value. -/
def readLetters (l : Level) (f : Filled) : List Char → Except Stop Filled
  | [] => .ok f
  | letter :: rest =>
    match l.slots.find? fun s => s.letter = some letter with
    | none => .error (.fault .unknownArgument)
    | some slot =>
      if slot.holds = .nothing then do readLetters l (← f.raise l.verb slot) rest
      else match rest with
        | [] => f.await slot none
        | '=' :: value => f.attach slot (String.ofList value)
        | value => f.attach slot (String.ofList value)

def hasOperand (l : Level) (f : Filled) : Bool :=
  l.operand.any fun slot =>
    (f.values.lookup slot.name).isSome || f.pending.any fun p => p.1 = slot

/-- Reads an argument that is no option. -/
def readOperand (l : Level) (f : Filled) (behindDashes : Bool) (argument : String) :
    Except Stop Filled :=
  match l.operand.filter fun _ => !hasOperand l f with
  | some slot => f.await slot (some argument)
  | none =>
    if l.commands = [] ∨ (behindDashes ∧ argument ∈ l.commands) then
      .error (.fault .unknownArgument)
    else .error (.fault .unknownCommand)

/-- Reads an argument that is neither the name of a command nor two dashes. -/
def readArgument (l : Level) (f : Filled) (argument : String) : Except Stop Filled :=
  match argument.toList with
  | '-' :: '-' :: text => readName l f text
  | '-' :: c :: rest => readLetters l f (c :: rest)
  | _ =>
    match f.pending with
    | some (slot, none) => .ok { f with pending := some (slot, some argument) }
    | _ => readOperand l f false argument

/-! ## §4 Levels -/

/-- Reads the arguments of a level, up to the name of a command. -/
def readLevel (l : Level) (f : Filled) (behindDashes : Bool) :
    List String → Except Stop (Filled × Option (String × List String))
  | [] => .ok (f, none)
  | argument :: rest =>
    if behindDashes then do readLevel l (← readOperand l f true argument) true rest
    else if !f.isAwaiting ∧ argument ∈ l.commands then .ok (f, some (argument, rest))
    else if argument = "--" then readLevel l f true rest
    else do readLevel l (← readArgument l f argument) false rest

/-- The level before the name of a command. -/
def outer : Level where
  verb := none
  slots := commonSlots ++ [helpFlag, versionFlag]
  commands := verbs.map Verb.name ++ [helpVerb]

/-- The level behind the name of a command. -/
def Verb.level (v : Verb) : Level where
  verb := some v.name
  slots := v.options ++ commonSlots ++ [helpFlag]
  operand := v.operand

def readVerb (v : Verb) (arguments : List String) : Except Stop (List (String × String)) := do
  let (f, _) ← readLevel v.level {} false arguments
  let f ← f.settle
  if v.operand.any fun slot => (f.values.lookup slot.name).isNone then
    throw (.fault .missingOperand)
  pure f.values

/-- Reads what stands behind `help`: nothing, or the name of one command. -/
def readHelp : List String → Stop
  | [] => .help none
  | [name] => if (verb? name).isSome ∨ name = helpVerb then .help (some name)
    else .fault .unknownCommand
  | _ => .fault .unknownCommand

/-! ## §5 Command lines -/

def commandOf? (name : String) (values : List (String × String)) : Option Command :=
  let file := (values.lookup "file").getD ""
  let date := values.lookup "date"
  let has := fun flag : String => (values.lookup flag).isSome
  match name with
  | "check" => some (.check file date)
  | "save" => some (.save file date (has "draft"))
  | "report" => some (.report date (has "write"))
  | "tokens" => some (.tokens file date (has "encoded"))
  | "categories" => some .categories
  | "serve" => some .serve
  | _ => none

/-- The request that the values of both levels make; those behind the name of
the command count more. -/
def ofValues (before behind : List (String × String)) (command : Option Command) : Arguments where
  verbose := ((behind ++ before).lookup "verbose").isSome
  config := (behind ++ before).lookup "config"
  command := command

def parse (arguments : List String) : Except Stop Arguments := do
  let (f, command) ← readLevel outer {} false arguments
  match command with
  | none => pure (ofValues (← f.settle).values [] none)
  | some (name, rest) =>
    match verb? name with
    | none => throw (readHelp rest)
    | some v =>
      let values ← readVerb v rest
      pure (ofValues (← f.settle).values values (commandOf? name values))

end Daybook.Arguments
