/-
Daybook.Config — what can be configured.

A configuration says where things are, how long an edit is left alone, and
what the rules are. It is read from tables; the tables of several places lie
one over the other, the defaults lowest.

§1 configurations, §2 as tables, §3 layers.
-/
import Daybook.Path
import Daybook.Rules.Json
import Daybook.Editor.Debouncer

namespace Daybook

/-! ## §1 Configurations -/

/-- A configuration. -/
structure Config where
  /-- The file of the store. -/
  databasePath : String
  /-- The directory that day files lie under. -/
  projectRoot : Option String := none
  /-- Where reports are written. -/
  reportDirectory : String
  /-- How long a document is left alone before it is recorded, in milliseconds. -/
  window : Nat := 1000
  /-- Which documents share a window. -/
  scope : Editor.Scope := .document
  rules : Rules := {}

namespace Config

/-! ## §2 As tables -/

def scopeName : Editor.Scope → String
  | .document => "document"
  | .everything => "global"

def scopeOf? : String → Option Editor.Scope
  | "document" => some .document
  | "global" => some .everything
  | _ => none

def toJson (c : Config) : Json :=
  .object
    ([("database_path", .str c.databasePath), ("project_root", .ofString? c.projectRoot),
      ("report_dir", .str c.reportDirectory),
      ("debounce", .object
        [("window_ms", .int (Int.ofNat c.window)), ("scope", .str (scopeName c.scope))])] ++
      c.rules.toFields)

def optionalText? : Json → Option (Option String)
  | .null => some none
  | j => j.str?.map some

def debounce? (j : Json) : Option (Nat × Editor.Scope) := do
  let fields ← j.fields? ["window_ms", "scope"]
  pure
    (← Json.field? fields "window_ms" (Json.nat? 0xFFFFFFFFFFFFFFFF),
      ← Json.field? fields "scope" fun j => j.str?.bind scopeOf?)

/-- Reads a configuration from a table that has all settings; members that are
no settings are ignored. -/
def ofJson? (j : Json) : Option Config :=
  match j with
  | .obj fields => do
    let (window, scope) ← Json.field? fields "debounce" debounce?
    pure
      { databasePath := ← Json.field? fields "database_path" Json.str?
        projectRoot := ← Json.field? fields "project_root" optionalText?
        reportDirectory := ← Json.field? fields "report_dir" Json.str?
        window, scope
        rules := ← Rules.ofFields? fields }
  | _ => none

/-! ## §3 Layers -/

mutual

/-- A value over another: tables are merged, anything else replaces what lies
under it. -/
def overlay (low : Json) : Json → Json
  | .obj high =>
    match low with
    | .obj ms => .obj (membersOver ms high)
    | _ => .obj high
  | j => j

def membersOver (low : List (String × Json)) : List (String × Json) → List (String × Json)
  | [] => low
  | m :: ms => membersOver (memberOver low m) ms

def memberOver (low : List (String × Json)) : String × Json → List (String × Json)
  | (name, high) =>
    Json.put name (match low.lookup name with
      | some j => overlay j high
      | none => high) low

end

/-- Layers from the lowest to the highest as one table. -/
def stack (layers : List Json) : Json := layers.foldl overlay (.obj [])

end Config

end Daybook
