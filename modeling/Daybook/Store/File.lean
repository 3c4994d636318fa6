/-
Daybook.Store.File — the store as a file.

The format is the library's own, in the place of that of a database: nothing
is asked of it but that what was written is found again. The rows of a store
are a list of lists, behind the next number to give. Numbers are written as
texts, since a JSON number of any size is not read back as it was. An empty
file has no table yet; any other content has to be a store.

§1 rows, §2 stores, §3 files.
-/
import Daybook.Text.Digits
import Daybook.Json.Printer
import Daybook.Json.Reader
import Daybook.Store

namespace Daybook

/-! ## §1 Rows -/

def Json.ofNat (n : Nat) : Json := .str (Text.decimal n)

def Json.ofInt (i : Int) : Json := .str (Text.signedDecimal i)

def Json.anyNat? (j : Json) : Option Nat := j.str?.bind fun s => Text.numeralValue? s.toList

def Json.int? (j : Json) : Option Int := j.str?.bind fun s => Text.signedValue? s.toList

namespace Row

def toJson (r : Row) : Json :=
  .arr [.ofNat r.id, .ofInt r.key, .bool r.holiday, .bool r.pending, .ofNat r.hours,
    .ofNat r.minutes, .str r.comment, .ofString? r.task, .str r.category]

def ofJson? : Json → Option Row
  | .arr [id, key, .bool holiday, .bool pending, hours, minutes, .str comment, task,
      .str category] => do
    pure
      { holiday, pending, comment, category
        id := ← id.anyNat?
        key := ← key.int?
        hours := ← hours.anyNat?
        minutes := ← minutes.anyNat?
        task := task.str? }
  | _ => none

end Row

/-! ## §2 Stores -/

namespace Store

def toJson (s : Store) : Json := .arr [.ofNat s.nextId, .arr (s.rows.map Row.toJson)]

def ofJson? : Json → Option Store
  | .arr [nextId, .arr rows] => do
    pure { nextId := ← nextId.anyNat?, rows := ← rows.mapM Row.ofJson? }
  | _ => none

/-! ## §3 Files -/

/-- The content of the file of a store. -/
def toBytes (s : Store) : List UInt8 := Text.Utf8.encode (s.toJson.renderChars ++ ['\n'])

/-- The table in a file, if there is one yet; `none` for a file that is none of a store. -/
def table? (bytes : List UInt8) : Option (Option Store) :=
  if bytes = [] then some none
  else ((Json.Reader.parse? { depth := 8 } bytes).bind ofJson?).map some

/-- What opening does to the table of a file. It creates a table where there is none; a table that
is there stays as it is, its rows, their numbers and the number that comes next. -/
def initialise : Option Store → Store
  | none => empty
  | some s => s

/-- Opens a file by its content. -/
def ofBytes? (bytes : List UInt8) : Option Store := (table? bytes).map initialise

end Store

end Daybook
