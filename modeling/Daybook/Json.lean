/-
Daybook.Json — dynamic values.

Editors send JSON, and configuration files are read into the same values. An
object is a list of members in the order of their names, each name once, so
two objects with the same members are the same value.

§1 values, §2 the members of an object, §3 looking into a value.
-/

namespace Daybook

/-! ## §1 Values -/

/-- A JSON value. -/
inductive Json where
  | null
  | bool (value : Bool)
  | int (value : Int)
  /-- A number with a fraction or an exponent, or too large for 64 bits, as it was written. -/
  | real (text : String)
  | str (text : String)
  | arr (items : List Json)
  | obj (members : List (String × Json))
deriving Inhabited, BEq, Repr

namespace Json

/-! ## §2 Members -/

/-- Sets the member `name` among members in order, replacing one of that name. -/
def put (name : String) (value : Json) : List (String × Json) → List (String × Json)
  | [] => [(name, value)]
  | m :: ms =>
    if name = m.1 then (name, value) :: ms
    else if name < m.1 then (name, value) :: m :: ms
    else m :: put name value ms

theorem lookup_cons_eq (name other : String) (value : Json) (ms : List (String × Json)) :
    ((name, value) :: ms).lookup other = if other = name then some value else ms.lookup other := by
  rw [List.lookup_cons]
  by_cases h : other = name
  · rw [if_pos h, beq_iff_eq.mpr h]
  · rw [if_neg h, beq_false_of_ne h]

/-- Setting a member is seen under its name and nowhere else. -/
theorem lookup_put (name other : String) (value : Json) (ms : List (String × Json)) :
    (put name value ms).lookup other = if other = name then some value else ms.lookup other := by
  induction ms with
  | nil => exact lookup_cons_eq name other value []
  | cons m ms ih =>
    obtain ⟨first, v⟩ := m
    simp only [put]
    split
    · next heq =>
      subst heq
      simp only [lookup_cons_eq]
      split <;> rfl
    · next hne =>
      split
      · exact lookup_cons_eq name other value _
      · rw [lookup_cons_eq, ih, lookup_cons_eq]
        by_cases h : other = first
        · rw [if_pos h, if_pos h, if_neg fun h' => hne (h'.symm.trans h)]
        · rw [if_neg h, if_neg h]

/-- The object with the given members; of two with one name the later counts. -/
def object (members : List (String × Json)) : Json :=
  .obj (members.foldl (fun ms (name, value) => put name value ms) [])

def ofNats (ns : List Nat) : Json := .arr (ns.map fun n => .int (Int.ofNat n))

def ofStrings (ss : List String) : Json := .arr (ss.map .str)

def ofString? : Option String → Json
  | some s => .str s
  | none => .null

/-! ## §3 Looking into a value -/

def get? (j : Json) (name : String) : Option Json :=
  match j with
  | obj ms => ms.lookup name
  | _ => none

def str? : Json → Option String
  | str s => some s
  | _ => none

def bool? : Json → Option Bool
  | bool b => some b
  | _ => none

/-- The number of a value that is an integer from 0 to `largest`. -/
def nat? (largest : Nat) : Json → Option Nat
  | int i => if 0 ≤ i ∧ i ≤ largest then some i.toNat else none
  | _ => none

def arr? : Json → Option (List Json)
  | arr js => some js
  | _ => none

def strings? (j : Json) : Option (List String) := do (← j.arr?).mapM str?

/-! ## §4 Records

A record with fixed fields is written as an object, or as a list of the
fields in their order, of which the last ones may be missing. -/

/-- The fields of a record, by name. A list may not be longer than the record. -/
def fields? (names : List String) : Json → Option (List (String × Json))
  | obj ms => some ms
  | arr js => if js.length ≤ names.length then some (names.zip js) else none
  | _ => none

/-- The field `name`, read by `read`, or `default` when it is missing. -/
def fieldOr {α : Type} (fields : List (String × Json)) (name : String) (default : α)
    (read : Json → Option α) : Option α :=
  match fields.lookup name with
  | some j => read j
  | none => some default

def field? {α : Type} (fields : List (String × Json)) (name : String) (read : Json → Option α) :
    Option α :=
  (fields.lookup name).bind read

end Json

end Daybook
