/-
Daybook.Json.Printer — JSON values as texts.

The written form is compact: no space between tokens, members in the order of
their names. Inside a text only the quote, the backslash and the controls
below U+0020 are escaped; five of those controls have names of their own.
-/
import Daybook.Json
import Daybook.Text.Digits

namespace Daybook.Json

/-! ## §1 Texts -/

def hex4 (n : Nat) : List Char :=
  let digits := Nat.toDigits 16 n
  List.replicate (4 - digits.length) '0' ++ digits

def escapeChar (c : Char) : List Char :=
  match c with
  | '"' => ['\\', '"']
  | '\\' => ['\\', '\\']
  | '\x08' => ['\\', 'b']
  | '\x0c' => ['\\', 'f']
  | '\n' => ['\\', 'n']
  | '\r' => ['\\', 'r']
  | '\t' => ['\\', 't']
  | c => if c.toNat < 0x20 then '\\' :: 'u' :: hex4 c.toNat else [c]

def renderString (s : String) : List Char := '"' :: s.toList.flatMap escapeChar ++ ['"']

/-! ## §2 Values -/

mutual

def renderChars : Json → List Char
  | .null => "null".toList
  | .bool true => "true".toList
  | .bool false => "false".toList
  | .int i => (Text.signedDecimal i).toList
  | .real text => text.toList
  | .str s => renderString s
  | .arr js => '[' :: renderItems js
  | .obj ms => '{' :: renderMembers ms

def renderItems : List Json → List Char
  | [] => [']']
  | [j] => renderChars j ++ [']']
  | j :: js => renderChars j ++ ',' :: renderItems js

def renderMembers : List (String × Json) → List Char
  | [] => ['}']
  | [m] => renderMember m ++ ['}']
  | m :: ms => renderMember m ++ ',' :: renderMembers ms

def renderMember : String × Json → List Char
  | (name, value) => renderString name ++ ':' :: renderChars value

end

def render (j : Json) : String := String.ofList (renderChars j)

end Daybook.Json
