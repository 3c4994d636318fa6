/-
Daybook.Config.Load — finding a configuration.

Over the defaults lies the user's file, over that the file that was asked for,
over that the environment. A file that is missing is no layer; one that cannot
be read leaves no configuration at all.

§1 surroundings, §2 the default places, §3 layers.
-/
import Daybook.Arguments
import Daybook.Config
import Daybook.Config.Variable
import Daybook.Files
import Daybook.Toml.Reader

namespace Daybook

/-! ## §1 Surroundings -/

/-- What a program is told when it starts. -/
structure Surroundings where
  «variables» : List (String × String) := []
  /-- The working directory. -/
  directory : Path
  today : Day

namespace Surroundings

def get? (s : Surroundings) (name : String) : Option String := s.«variables».lookup name

def home? (s : Surroundings) : Option Path :=
  ((s.get? "HOME").filter (· ≠ "")).map Path.ofText

/-- A directory that a variable may name by an absolute path; else it is a
place in the user's directory. -/
def userDirectory? (s : Surroundings) (name place : String) : Option Path :=
  match ((s.get? name).map Path.ofText).filter Path.isAbsolute with
  | some directory => some directory
  | none => s.home?.map (·.join (.ofText place))

end Surroundings

namespace Config

/-! ## §2 Default places -/

def initial (s : Surroundings) : Config :=
  let data := match s.userDirectory? "XDG_DATA_HOME" ".local/share" with
    | some directory => directory.join (.ofText About.name)
    | none => .ofText "."
  { databasePath := (data.join (.ofText "tsf.db")).text
    reportDirectory := (s.get? "TMPDIR").getD "/tmp" }

def userFile? (s : Surroundings) : Option Path :=
  (s.userDirectory? "XDG_CONFIG_HOME" ".config").map fun directory =>
    (directory.join (.ofText About.name)).join (.ofText "config.toml")

/-! ## §3 Layers -/

/-- The layer of a file: none if it is missing, and a fault if it is no table. -/
inductive Layer where
  | missing
  | fault
  | table (value : Json)

def Layer.ofContent (content : List UInt8) : Layer :=
  match (Text.Utf8.decode? content).bind fun cs => Toml.parse? (String.ofList cs) with
  | some value => table value
  | none => fault

/-- The directory and all that it lies in, by `n` steps at most. -/
def upwards : Nat → Path → List Path
  | 0, _ => []
  | n + 1, p => p :: p.parent?.elim [] (upwards n)

/-- Where a file may be: a relative path is looked up in the working directory
and in those it lies in. -/
def candidates (s : Surroundings) (p : Path) : List Path :=
  if p.isAbsolute then [p]
  else (upwards (s.directory.bytes.length + 1) s.directory).map (·.join p)

variable {m : Type → Type} [Monad m]

def readFirst (files : Files m) : List Path → m Layer
  | [] => pure .missing
  | p :: ps => do
    match ← files.find p with
    | .file content => pure (.ofContent content)
    | _ => readFirst files ps

def readLayer (files : Files m) (s : Surroundings) : Option Path → m Layer
  | none => pure .missing
  | some p => readFirst files (candidates s p)

def tables? : List Layer → Option (List Json)
  | [] => some []
  | .fault :: _ => none
  | .missing :: layers => tables? layers
  | .table value :: layers => (tables? layers).map (value :: ·)

def load (files : Files m) (s : Surroundings) (file : Option Path) : m (Option Config) := do
  let user ← readLayer files s (userFile? s)
  let given ← readLayer files s file
  pure do
    let layers ← tables? [user, given]
    let settings := s.«variables».filterMap fun v => Variable.setting? v.1 v.2
    ofJson? (stack ((initial s).toJson :: layers ++ settings))

end Config

end Daybook
