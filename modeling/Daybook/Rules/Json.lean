/-
Daybook.Rules.Json — rules as dynamic values.

Configuration files and programs hand over rules as nested tables. A table or
list that is missing is empty; the table of tasks, when it is there, has to
be complete. Members of other names are ignored.
-/
import Daybook.Json
import Daybook.Rules

namespace Daybook

/-! ## §1 Task patterns -/

namespace TaskPattern

def ofJson? (j : Json) : Option TaskPattern := do
  let fields ← j.fields? ["prefix", "onlyNumbers"]
  pure
    { stem := ← Json.field? fields "prefix" Json.str?
      onlyNumbers := ← Json.field? fields "onlyNumbers" Json.bool? }

def toJson (p : TaskPattern) : Json :=
  .object [("prefix", .str p.stem), ("onlyNumbers", .bool p.onlyNumbers)]

end TaskPattern

/-! ## §2 Rules -/

namespace Rules

/-- Reads a table of two lists of texts, either of which may be missing. -/
def twoLists? (first second : String) (j : Json) : Option (List String × List String) := do
  let fields ← j.fields? [first, second]
  pure (← Json.fieldOr fields first [] Json.strings?, ← Json.fieldOr fields second [] Json.strings?)

def ofFields? (fields : List (String × Json)) : Option Rules := do
  let (regular, overtime) ←
    Json.fieldOr fields "categories" ([], []) (twoLists? "regular" "overtime")
  let (yearly, single) ← Json.fieldOr fields "holidays" ([], []) (twoLists? "repeatable" "addhoc")
  let tasks ← Json.fieldOr fields "tasks" {} TaskPattern.ofJson?
  pure { regular, overtime, yearly, single, tasks }

def ofJson? (j : Json) : Option Rules := do
  ofFields? (← j.fields? ["categories", "holidays", "tasks"])

def toFields (r : Rules) : List (String × Json) :=
  [("categories",
      .object [("regular", .ofStrings r.regular), ("overtime", .ofStrings r.overtime)]),
    ("holidays", .object [("repeatable", .ofStrings r.yearly), ("addhoc", .ofStrings r.single)]),
    ("tasks", r.tasks.toJson)]

/-- The table of rules, all its members present. -/
def toJson (r : Rules) : Json := .object r.toFields

end Rules

end Daybook
