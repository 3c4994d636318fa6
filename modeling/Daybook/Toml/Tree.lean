/-
Daybook.Toml.Tree — the tables of a TOML document.

A document is a tree of tables that is built line by line. A header opens a
table, a key with dots reaches into tables below the open one. What is defined
once may not be defined again: a table has one header at most, dots do not
reach into a table that has a header, and a header does not open a table that
dots have made.

§1 the tree, §2 reaching into it, §3 adding to it, §4 its value.
-/
import Daybook.Json

namespace Daybook.Toml

/-! ## §1 The tree -/

/-- How a table came to be. -/
inductive Origin where
  /-- Only as the place of another table. -/
  | implied
  /-- By a key with dots. -/
  | dotted
  /-- By a header of its own. -/
  | opened
deriving DecidableEq, Repr

/-- A part of a document. -/
inductive Node where
  | value (value : Json)
  | table (origin : Origin) (members : List (String × Node))
  /-- A list of tables, of which the last one is still open. -/
  | tables (elements : List (List (String × Node)))

/-- The members of a table, in order. -/
abbrev Members := List (String × Node)

def replaceMember (name : String) (node : Node) (ms : Members) : Members :=
  ms.map fun m => if m.1 = name then (name, node) else m

/-! ## §2 Reaching into the tree -/

/-- Changes the table that a path leads to, from a table of the given origin.
Tables that are missing are made; `dotted` says that the path is part of a key
rather than of a header. -/
def reach (dotted : Bool) (change : Origin → Members → Option Members) :
    List String → Origin → Members → Option Members
  | [], origin, ms => change origin ms
  | name :: path, _, ms =>
    match ms.lookup name with
    | none =>
      let origin := if dotted then .dotted else .implied
      (reach dotted change path origin []).map fun inner => ms ++ [(name, .table origin inner)]
    | some (.value _) => none
    | some (.table origin inner) =>
      if dotted ∧ origin = .opened then none
      else (reach dotted change path origin inner).map fun inner =>
        replaceMember name (.table origin inner) ms
    | some (.tables elements) =>
      (reach dotted change path .opened (elements.getLast?.getD [])).map fun inner =>
        replaceMember name (.tables (elements.dropLast ++ [inner])) ms

/-! ## §3 Adding to the tree -/

def addValue (path : List String) (name : String) (value : Json) (ms : Members) : Option Members :=
  let add := fun origin (ms : Members) =>
    if (path ≠ [] ∧ origin ≠ Origin.dotted) ∨ (ms.lookup name).isSome then none
    else some (ms ++ [(name, .value value)])
  reach true add path .opened ms

def openTable (path : List String) (name : String) (ms : Members) : Option Members :=
  let enter := fun _ (ms : Members) =>
    match ms.lookup name with
    | none => some (ms ++ [(name, .table .opened [])])
    | some (.table .implied inner) => some (replaceMember name (.table .opened inner) ms)
    | some _ => none
  reach false enter path .opened ms

def openElement (path : List String) (name : String) (ms : Members) : Option Members :=
  let enter := fun _ (ms : Members) =>
    match ms.lookup name with
    | none => some (ms ++ [(name, .tables [[]])])
    | some (.tables elements) => some (replaceMember name (.tables (elements ++ [[]])) ms)
    | some _ => none
  reach false enter path .opened ms

def addBelow (here path : List String) (name : String) (value : Json) (ms : Members) :
    Option Members :=
  reach false (fun _ inner => addValue path name value inner) here .opened ms

/-! ## §4 Values -/

mutual

def Node.toJson : Node → Json
  | .value j => j
  | .table _ ms => .object (membersToJson ms)
  | .tables elements => .arr (elementsToJson elements)

def membersToJson : List (String × Node) → List (String × Json)
  | [] => []
  | m :: ms => memberToJson m :: membersToJson ms

def memberToJson : String × Node → String × Json
  | (name, node) => (name, node.toJson)

def elementsToJson : List (List (String × Node)) → List Json
  | [] => []
  | ms :: rest => .object (membersToJson ms) :: elementsToJson rest

end

end Daybook.Toml
