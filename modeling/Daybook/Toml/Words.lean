/-
Daybook.Toml.Words — blanks, texts and keys of TOML.

A text is quoted by one or three quotes of either kind. Between double quotes
a backslash escapes, between single quotes nothing does; three quotes let a
text run over several lines. Everything here takes what it reads off the front
of the characters and hands back the rest.

§1 blanks and comments, §2 escapes, §3 texts, §4 keys.
-/
import Daybook.Text.Pieces

namespace Daybook.Toml

/-! ## §1 Blanks and comments -/

def isSpace (c : Char) : Bool := c = ' ' || c = '\t'

def skipSpaces (cs : List Char) : List Char := cs.dropWhile isSpace

def isPlain (c : Char) : Bool := c = '\t' || (0x20 ≤ c.toNat && c.toNat ≠ 0x7F)

def newline? : List Char → Option (List Char)
  | '\n' :: rest => some rest
  | '\r' :: '\n' :: rest => some rest
  | _ => none

def skipComment : List Char → List Char
  | '#' :: rest => rest.dropWhile isPlain
  | cs => cs

/-- The characters behind the end of a line, where nothing but spaces and a
comment may stand before it. -/
def lineEnd? (cs : List Char) : Option (List Char) :=
  match skipComment (skipSpaces cs) with
  | [] => some []
  | cs => newline? cs

/-- The characters behind spaces, comments and newlines; `fuel` bounds the lines. -/
def skipGap : Nat → List Char → List Char
  | 0, cs => cs
  | fuel + 1, cs =>
    match newline? (skipComment (skipSpaces cs)) with
    | some rest => skipGap fuel rest
    | none => skipSpaces cs

/-! ## §2 Escapes -/

def hexValue? (c : Char) : Option Nat :=
  if c.isDigit then some (c.toNat - '0'.toNat)
  else if 'a' ≤ c ∧ c ≤ 'f' then some (c.toNat - 'a'.toNat + 10)
  else if 'A' ≤ c ∧ c ≤ 'F' then some (c.toNat - 'A'.toNat + 10)
  else none

def codePoint? (digits : Nat) (cs : List Char) : Option (Char × List Char) := do
  let values ← (cs.take digits).mapM hexValue?
  let n := values.foldl (fun n v => n * 16 + v) 0
  if values.length = digits ∧ n.isValidChar then some (Char.ofNat n, cs.drop digits) else none

def escape? : List Char → Option (Char × List Char)
  | 'b' :: rest => some ('\x08', rest)
  | 't' :: rest => some ('\t', rest)
  | 'n' :: rest => some ('\n', rest)
  | 'f' :: rest => some ('\x0c', rest)
  | 'r' :: rest => some ('\r', rest)
  | '"' :: rest => some ('"', rest)
  | '\\' :: rest => some ('\\', rest)
  | 'u' :: rest => codePoint? 4 rest
  | 'U' :: rest => codePoint? 8 rest
  | _ => none

/-- The characters behind a backslash that ends a line, and all blanks after it. -/
def skipFold? (cs : List Char) : Option (List Char) :=
  (newline? (skipSpaces cs)).map fun rest => rest.dropWhile fun c => isSpace c || c = '\n' || c = '\r'

/-! ## §3 Texts -/

/-- A text between double quotes; `fuel` bounds its length. -/
def quotedText? : Nat → List Char → Option (List Char × List Char)
  | 0, _ => none
  | _, [] => none
  | fuel + 1, c :: cs => do
    if c = '"' then some ([], cs)
    else
      let (c, rest) ← if c = '\\' then escape? cs else if isPlain c then some (c, cs) else none
      let (more, rest) ← quotedText? fuel rest
      some (c :: more, rest)

def literalText? (cs : List Char) : Option (List Char × List Char) :=
  let text := cs.takeWhile fun c => c ≠ '\'' ∧ isPlain c
  match cs.drop text.length with
  | '\'' :: rest => some (text, rest)
  | _ => none

/-- What a run of quotes means in a text of several lines: the quotes that
belong to the text, and whether the text ends behind them. -/
def quoteRun (quote : Char) (cs : List Char) : List Char × Option (List Char) :=
  let n := (cs.takeWhile (· = quote)).length
  if n < 3 then (List.replicate n quote, none)
  else (List.replicate (min (n - 3) 2) quote, some (cs.drop (min n 5)))

/-- One step in a text of several lines: a character that belongs to it. -/
def linesStep? (escapes : Bool) (c : Char) (cs : List Char) : Option (List Char × List Char) :=
  if c = '\\' ∧ escapes then
    match skipFold? cs with
    | some rest => some ([], rest)
    | none => (escape? cs).map fun (e, rest) => ([e], rest)
  else match newline? (c :: cs) with
    | some rest => some (['\n'], rest)
    | none => if isPlain c then some ([c], cs) else none

/-- A text between three quotes; `fuel` bounds its length. -/
def linesText? (quote : Char) : Nat → List Char → Option (List Char × List Char)
  | 0, _ => none
  | _, [] => none
  | fuel + 1, c :: cs =>
    if c = quote then
      match quoteRun quote (c :: cs) with
      | (text, some rest) => some (text, rest)
      | (text, none) =>
        (linesText? quote fuel ((c :: cs).drop text.length)).map fun (more, rest) =>
          (text ++ more, rest)
    else do
      let (text, rest) ← linesStep? (quote = '"') c cs
      let (more, rest) ← linesText? quote fuel rest
      some (text ++ more, rest)

/-- A text of several lines, its opening quotes already gone; a newline right
behind them does not count. -/
def openedLines? (quote : Char) (cs : List Char) : Option (List Char × List Char) :=
  linesText? quote (cs.length + 1) ((newline? cs).getD cs)

def lineText? : List Char → Option (String × List Char)
  | '"' :: cs => (quotedText? (cs.length + 1) cs).map fun (t, rest) => (String.ofList t, rest)
  | '\'' :: cs => (literalText? cs).map fun (t, rest) => (String.ofList t, rest)
  | _ => none

def text? : List Char → Option (String × List Char)
  | '"' :: '"' :: '"' :: cs => (openedLines? '"' cs).map fun (t, rest) => (String.ofList t, rest)
  | '\'' :: '\'' :: '\'' :: cs =>
    (openedLines? '\'' cs).map fun (t, rest) => (String.ofList t, rest)
  | cs => lineText? cs

/-! ## §4 Keys -/

def isBare (c : Char) : Bool := c.isAlphanum || c = '_' || c = '-'

def simpleKey? (cs : List Char) : Option (String × List Char) :=
  match cs.takeWhile isBare with
  | [] => lineText? cs
  | name => some (String.ofList name, cs.drop name.length)

/-- A key: names with dots between them; `fuel` bounds their number. -/
def key? : Nat → List Char → Option (List String × List Char)
  | 0, _ => none
  | fuel + 1, cs => do
    let (name, rest) ← simpleKey? cs
    match skipSpaces rest with
    | '.' :: rest => do
      let (names, rest) ← key? fuel (skipSpaces rest)
      some (name :: names, rest)
    | rest => some ([name], rest)

/-- The path and the last name of a key. -/
def splitKey? (names : List String) : Option (List String × String) :=
  names.getLast?.map fun name => (names.dropLast, name)

end Daybook.Toml
