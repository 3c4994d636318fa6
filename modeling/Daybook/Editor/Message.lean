/-
Daybook.Editor.Message — what an editor says.

A message has an identifier, a method and parameters, each of which may be
missing. A message with an identifier is a request and wants a reply; one
without is a notification; one without a method is a reply to the server. It
is written as an object or as a list of its fields in that order.

Of an object only these three members are read: none of them may occur twice,
and the others have to keep the grammar of JSON and nothing else.

§1 messages, §2 from a value, §3 from bytes.
-/
import Daybook.Json.Reader

namespace Daybook.Editor

/-! ## §1 Messages -/

/-- A message from an editor. -/
structure Message where
  id : Option Json := none
  method : String := ""
  params : Json := .null
deriving BEq, Repr

namespace Message

def isRequest (m : Message) : Bool := m.id.isSome

/-! ## §2 From a value -/

def memberNames : List String := ["id", "method", "params"]

def ofFields? (fields : List (String × Json)) : Option Message := do
  let id := match fields.lookup "id" with
    | none | some .null => none
    | some id => some id
  pure
    { id
      method := ← Json.fieldOr fields "method" "" Json.str?
      params := (fields.lookup "params").getD .null }

def ofJson? (j : Json) : Option Message := do ofFields? (← j.fields? memberNames)

/-! ## §3 From bytes -/

def memberDepth : Nat := 126

/-- Takes the value of a member off the front, and adds it to those read
before it; `fuel` bounds the steps. -/
def takeMember (fuel : Nat) (name : String) (fields : List (String × Json))
    (bytes : List UInt8) : Option (List (String × Json) × List UInt8) :=
  if name ∈ memberNames then do
    if (fields.lookup name).isSome then none
    let (j, rest) ← Json.Reader.value { depth := memberDepth } fuel bytes
    pure ((name, j) :: fields, rest)
  else do
    let (_, rest) ← Json.Reader.value { strict := false, depth := fuel } fuel bytes
    pure (fields, rest)

def takeMembers : Nat → List (String × Json) → List UInt8 →
    Option (List (String × Json) × List UInt8)
  | 0, _, _ => none
  | fuel + 1, fields, bytes => do
    let (name, rest) ← Json.Reader.string true (← Json.Reader.expect '"' bytes)
    let (fields, rest) ← takeMember fuel name fields (← Json.Reader.expect ':' rest)
    match Json.Reader.expect ',' rest with
    | some rest => takeMembers fuel fields rest
    | none => do
      let rest ← Json.Reader.expect '\x7d' rest
      pure (fields, rest)

def membersOf? (bytes : List UInt8) : Option (List (String × Json)) := do
  let rest ← Json.Reader.expect '\x7b' bytes
  let (fields, rest) ← match Json.Reader.expect '\x7d' rest with
    | some rest => some ([], rest)
    | none => takeMembers (2 * bytes.length + 2) [] rest
  if (Json.Reader.skipBlanks rest).isEmpty then some fields else none

def ofBytes? (bytes : List UInt8) : Option Message :=
  if (Json.Reader.expect '\x7b' bytes).isSome then (membersOf? bytes).bind ofFields?
  else (Json.Reader.parse? { depth := memberDepth + 1 } bytes).bind ofJson?

end Message

end Daybook.Editor
