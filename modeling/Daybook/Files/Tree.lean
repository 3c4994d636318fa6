/-
Daybook.Files.Tree — files in memory.

A tree of files is a list of places and what stands there. A place is the list
of the names that lead to it from the root. Relative paths start at a working
directory, and two dots lead back from a directory that exists.

§1 places, §2 the operations.
-/
import Daybook.Files

namespace Daybook.Files

/-! ## §1 Places -/

abbrev Place := List (List UInt8)

/-- What stands at a place. -/
inductive Node where
  | directory
  | file (content : List UInt8)
deriving DecidableEq, Repr

/-- Files in memory. -/
structure Tree where
  nodes : List (Place × Node) := []
  /-- The working directory. -/
  here : Place := []
deriving DecidableEq, Repr

namespace Tree

def get? (t : Tree) (place : Place) : Option Node :=
  if place = [] then some .directory else t.nodes.lookup place

def isDirectory (t : Tree) (place : Place) : Bool := t.get? place = some .directory

def put (t : Tree) (place : Place) (node : Node) : Tree :=
  { t with nodes := (place, node) :: t.nodes.filter fun n => n.1 ≠ place }

/-- Follows names from a place; a name that leads on or back has to be read
in a directory. -/
def walk? (t : Tree) (place : Place) : List (List UInt8) → Option Place
  | [] => some place
  | name :: names =>
    if name = [Path.dot, Path.dot] then
      if t.isDirectory place then t.walk? place.dropLast names else none
    else t.walk? (place ++ [name]) names

def asksDirectory (p : Path) : Bool :=
  match p.bytes.reverse with
  | b :: rest => b = Path.slash || (b = Path.dot && (rest = [] || rest.head? = some Path.slash))
  | [] => true

def place? (t : Tree) (p : Path) : Option Place :=
  if p.bytes = [] ∨ 0 ∈ p.bytes then none
  else t.walk? (if p.isAbsolute then [] else t.here) p.names

/-! ## §2 Operations -/

def find (t : Tree) (p : Path) : Found :=
  match (t.place? p).bind t.get? with
  | none => .nothing
  | some .directory => .unreadable
  | some (.file content) => if asksDirectory p then .nothing else .file content

def write (t : Tree) (p : Path) (content : List UInt8) : Option Tree :=
  match t.place? p with
  | none => none
  | some place =>
    if t.isDirectory place ∨ !t.isDirectory place.dropLast ∨ asksDirectory p then none
    else some (t.put place (.file content))

/-- Makes the directories that lead to a place behind `done`. -/
def makeAll (t : Tree) (done : Place) : List (List UInt8) → Option Tree
  | [] => some t
  | name :: names =>
    let place := done ++ [name]
    match t.get? place with
    | some .directory => makeAll t place names
    | some (.file _) => none
    | none => makeAll (t.put place .directory) place names

def makeDirectory (t : Tree) (p : Path) : Option Tree :=
  if p.bytes = [] then some t
  else match t.place? p with
    | none => none
    | some place => makeAll t [] place

/-- Runs an operation that may fail; a tree on which it fails stays as it was. -/
def attempt (operation : Tree → Option Tree) : StateM Tree Bool := fun t =>
  match operation t with
  | some t => (true, t)
  | none => (false, t)

def files : Files (StateM Tree) where
  find p := fun t => (t.find p, t)
  write p content := attempt (write · p content)
  makeDirectory p := attempt (makeDirectory · p)

end Tree

end Daybook.Files
