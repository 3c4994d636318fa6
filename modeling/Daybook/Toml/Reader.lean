/-
Daybook.Toml.Reader — reading a TOML document.

A document is read line by line: a line is blank, or a header, or a key with
its value. Lists and tables in braces are values that contain values; they may
nest only so deep.

§1 values, §2 lines, §3 documents.
-/
import Daybook.Toml.Scalar
import Daybook.Toml.Tree

namespace Daybook.Toml

/-! ## §1 Values -/

/-- How deep values may nest. -/
def depthLimit : Nat := 80

/-- The table with the given members, each of which has a key. -/
def tableOf? (pairs : List (List String × Json)) : Option Json := do
  let members ← pairs.foldlM (fun ms (names, value) => do
    let (path, name) ← splitKey? names
    addValue path name value ms) []
  some (.object (membersToJson members))

mutual

/-- Takes a value off the front. `fuel` bounds the steps, `depth` how deep the
value may nest. -/
def value? : Nat → Nat → List Char → Option (Json × List Char)
  | 0, _, _ => none
  | fuel + 1, depth, cs =>
    match cs with
    | '[' :: rest =>
      if depth ≤ 1 then none
      else
        match skipGap (rest.length + 1) rest with
        | ']' :: rest => some (.arr [], rest)
        | rest => (items? fuel (depth - 1) rest).map fun (js, rest) => (.arr js, rest)
    | '{' :: rest =>
      if depth ≤ 1 then none
      else
        match skipSpaces rest with
        | '}' :: rest => some (.object [], rest)
        | rest => do
          let (pairs, rest) ← pairs? fuel (depth - 1) rest
          some (← tableOf? pairs, rest)
    | '"' :: _ => (text? cs).map fun (t, rest) => (.str t, rest)
    | '\'' :: _ => (text? cs).map fun (t, rest) => (.str t, rest)
    | _ => scalar? cs

def items? : Nat → Nat → List Char → Option (List Json × List Char)
  | 0, _, _ => none
  | fuel + 1, depth, cs => do
    let (j, rest) ← value? fuel depth cs
    match skipGap (rest.length + 1) rest with
    | ']' :: rest => some ([j], rest)
    | ',' :: rest =>
      match skipGap (rest.length + 1) rest with
      | ']' :: rest => some ([j], rest)
      | rest => do
        let (js, rest) ← items? fuel depth rest
        some (j :: js, rest)
    | _ => none

/-- Takes the members of a table and its closing brace off the front. -/
def pairs? : Nat → Nat → List Char → Option (List (List String × Json) × List Char)
  | 0, _, _ => none
  | fuel + 1, depth, cs => do
    let (names, rest) ← key? (cs.length + 1) cs
    match rest with
    | '=' :: rest => do
      let (j, rest) ← value? fuel depth (skipSpaces rest)
      match skipSpaces rest with
      | '}' :: rest => some ([(names, j)], rest)
      | ',' :: rest => do
        let (pairs, rest) ← pairs? fuel depth (skipSpaces rest)
        some ((names, j) :: pairs, rest)
      | _ => none
    | _ => none

end

/-! ## §2 Lines -/

/-- A document that is being read: its tables, and where the last header led. -/
structure Document where
  members : Members := []
  here : List String := []

def header? (d : Document) (isElement : Bool) (cs : List Char) :
    Option (Document × List Char) := do
  let (names, rest) ← key? (cs.length + 1) (skipSpaces cs)
  let (path, name) ← splitKey? names
  let rest ← behind? ']' rest
  let rest ← if isElement then behind? ']' rest else some rest
  let members ← if isElement then openElement path name d.members
    else openTable path name d.members
  some ({ members, here := names }, ← lineEnd? rest)

def pair? (d : Document) (cs : List Char) : Option (Document × List Char) := do
  let (names, rest) ← key? (cs.length + 1) cs
  let (path, name) ← splitKey? names
  let rest ← behind? '=' rest
  let (j, rest) ← value? (2 * rest.length + 2) depthLimit (skipSpaces rest)
  let members ← addBelow d.here path name j d.members
  some ({ d with members }, ← lineEnd? rest)

def line? (d : Document) (cs : List Char) : Option (Document × List Char) :=
  match lineEnd? cs with
  | some rest => some (d, rest)
  | none =>
    match skipSpaces cs with
    | '[' :: '[' :: rest => header? d true rest
    | '[' :: rest => header? d false rest
    | rest => pair? d rest

/-! ## §3 Documents -/

/-- Reads lines up to the end; `fuel` bounds their number. -/
def lines? : Nat → Document → List Char → Option Document
  | _, d, [] => some d
  | 0, _, _ => none
  | fuel + 1, d, cs => do
    let (d, rest) ← line? d cs
    lines? fuel d rest

def parse? (text : String) : Option Json :=
  let cs := match text.toList with
    | '\ufeff' :: rest => rest
    | cs => cs
  (lines? (cs.length + 1) {} cs).map fun d => .object (membersToJson d.members)

end Daybook.Toml
