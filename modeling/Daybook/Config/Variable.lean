/-
Daybook.Config.Variable — settings from the environment.

A variable whose name starts with `TSF_`, in upper or lower case, is a
setting: a double underscore in its name leads one level down. Its value is a
truth value, a number, a list in brackets, a table in braces or a text; what
cannot be read as a whole is a text as it stands.

§1 plain values, §2 lists and tables, §3 variables.
-/
import Daybook.Toml.Words
import Daybook.Json.Reader
import Daybook.Text.Blank

namespace Daybook.Config.Variable

/-! ## §1 Plain values -/

def isSpace (c : Char) : Bool := c = ' ' || c = '\t' || c = '\n' || c = '\r' || c = '\x0c'

def skipSpaces (cs : List Char) : List Char := cs.dropWhile isSpace

def isDelimiter (c : Char) : Bool := c ∈ [',', '{', '}', '[', ']']

def splitSign : List Char → Bool × List Char
  | '-' :: rest => (true, rest)
  | '+' :: rest => (false, rest)
  | cs => (false, cs)

def isReal (cs : List Char) : Bool :=
  let whole := cs.takeWhile Char.isDigit
  match cs.drop whole.length with
  | '.' :: rest =>
    let fraction := rest.takeWhile Char.isDigit
    (whole ≠ [] || fraction ≠ []) &&
      match rest.drop fraction.length with
      | [] => true
      | e :: exponent =>
        let digits := (splitSign exponent).2
        (e = 'e' || e = 'E') && digits ≠ [] && Text.allDigits digits
  | _ => false

def integer? (cs : List Char) : Option Json :=
  let (negative, digits) := splitSign cs
  let value := Text.decimalValue digits
  if digits = [] ∨ !Text.allDigits digits then none
  else if negative then
    if value ≤ 0x8000000000000000 then some (.int (-(Int.ofNat value))) else none
  else if value < 0x10000000000000000 then some (.int (Int.ofNat value))
  else none

def word (cs : List Char) : Json :=
  if isReal (splitSign cs).2 then .real (String.ofList cs)
  else (integer? cs).getD (.str (String.ofList cs))

def behindWord? (w : String) (cs : List Char) : Option (List Char) :=
  if w.toList.isPrefixOf cs then some (cs.drop w.length) else none

/-- A text between double quotes, in which a backslash escapes; `fuel` bounds
its length. -/
def quoted? : Nat → List Char → Option (List Char × List Char)
  | 0, _ => none
  | _, [] => none
  | fuel + 1, c :: cs => do
    if c = '"' then some ([], cs)
    else
      let (c, rest) ← if c = '\\' then Toml.escape? cs else some (c, cs)
      let (more, rest) ← quoted? fuel rest
      some (c :: more, rest)

def plain? (cs : List Char) : Option (Json × List Char) :=
  match behindWord? "true" cs, behindWord? "false" cs, cs with
  | some rest, _, _ => some (.bool true, rest)
  | none, some rest, _ => some (.bool false, rest)
  | none, none, '"' :: rest =>
    (quoted? (rest.length + 1) rest).map fun (t, rest) => (.str (String.ofList t), rest)
  | none, none, '\'' :: c :: '\'' :: rest => some (.str (String.ofList [c]), rest)
  | none, none, '\'' :: _ => none
  | none, none, cs =>
    let text := cs.takeWhile (!isDelimiter ·)
    some (word (Text.trim text), cs.drop text.length)

/-! ## §2 Lists and tables -/

def key? (cs : List Char) : Option (String × List Char) :=
  match cs with
  | '"' :: rest =>
    (quoted? (rest.length + 1) rest).map fun (t, rest) => (String.ofList t, skipSpaces rest)
  | cs =>
    match cs.takeWhile fun c => !isDelimiter c ∧ c ≠ '=' with
    | [] => none
    | name => some (String.ofList (Text.trim name), cs.drop name.length)

mutual

/-- Takes a value off the front, with the spaces around it; `fuel` bounds the
steps. -/
def value? : Nat → List Char → Option (Json × List Char)
  | 0, _ => none
  | fuel + 1, cs =>
    let read : Option (Json × List Char) :=
      match skipSpaces cs with
      | '[' :: rest => (items? fuel rest).map fun (js, rest) => (Json.arr js, rest)
      | '{' :: rest => (members? fuel rest).map fun (ms, rest) => (Json.object ms, rest)
      | rest => plain? rest
    read.map fun (j, rest) => (j, skipSpaces rest)

def items? : Nat → List Char → Option (List Json × List Char)
  | 0, _ => none
  | _, ']' :: rest => some ([], rest)
  | fuel + 1, cs => do
    let (j, rest) ← value? fuel cs
    match rest with
    | ']' :: rest => some ([j], rest)
    | ',' :: rest => do
      let (js, rest) ← items? fuel rest
      some (j :: js, rest)
    | _ => none

def members? : Nat → List Char → Option (List (String × Json) × List Char)
  | 0, _ => none
  | _, '}' :: rest => some ([], rest)
  | fuel + 1, cs => do
    let (name, rest) ← key? (skipSpaces cs)
    match rest with
    | '=' :: rest => do
      let (j, rest) ← value? fuel rest
      match rest with
      | '}' :: rest => some ([(name, j)], rest)
      | ',' :: rest => do
        let (ms, rest) ← members? fuel rest
        some ((name, j) :: ms, rest)
      | _ => none
    | _ => none

end

def valueOf (text : String) : Json :=
  match value? (2 * text.length + 2) text.toList with
  | some (j, []) => j
  | _ => .str text

/-! ## §3 Variables -/

def opening : List Char := "tsf_".toList

def levels : List Char → List (List Char)
  | [] => [[]]
  | '_' :: '_' :: rest => [] :: levels rest
  | '.' :: rest => [] :: levels rest
  | c :: rest =>
    match levels rest with
    | [] => [[c]]
    | level :: more => (c :: level) :: more

def path? (name : String) : Option (List String) :=
  let name := name.toList.map Char.toLower
  if opening.isPrefixOf name then
    let path := levels (Text.trim (name.drop opening.length))
    if [] ∈ path then none else some (path.map String.ofList)
  else none

def nested (value : Json) : List String → Json
  | [] => value
  | name :: path => .object [(name, nested value path)]

def setting? (name value : String) : Option Json := (path? name).map (nested (valueOf value))

end Daybook.Config.Variable
