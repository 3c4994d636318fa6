/-
Daybook.Token — the lexical units of a line.

A line is cut into spaces, dots and runs. Only a space or a dot ends a run,
and spaces are never merged, so `1h30m` and `Task-123` are single words and
nothing of the line is lost: the texts of the tokens, put together, are the
line again. A run of ASCII digits is a number and remembers how it was
written; its value is capped and serves bound checks only.

§1 the tokens, §2 scanning, §3 the way back.
-/
import Daybook.Text.Digits

namespace Daybook

/-! ## §1 Tokens -/

/-- One lexical unit of a line. -/
inductive Token where
  | space
  | dot
  | word (text : String)
  /-- A run of ASCII digits; `value` is what they denote, capped at `Token.maxValue`. -/
  | number (value : Nat) (text : String)
deriving DecidableEq, Repr, Inhabited

namespace Token

def maxValue : Nat := 0xFFFFFFFFFFFFFFFF

def chars : Token → List Char
  | space => [' ']
  | dot => ['.']
  | word text => text.toList
  | number _ text => text.toList

/-- A short description of a token: its kind and, for a run, its text. -/
def describe : Token → String
  | space => "space"
  | dot => "dot"
  | word text => "word(" ++ text ++ ")"
  | number _ text => "number(" ++ text ++ ")"

def ofRun (run : List Char) : Token :=
  if Text.allDigits run then number (Text.cappedValue maxValue run) (String.ofList run)
  else word (String.ofList run)

/-! ## §2 Scanning

The scan goes from the right: a character other than a space or a dot joins
the run that begins what follows, or begins a run of its own. -/

/-- A line cut up, its runs not yet classified. -/
inductive Piece where
  | space
  | dot
  | run (chars : List Char)
deriving DecidableEq, Repr

/-- The pieces of a line that begins with `c` and goes on as `rest` was cut. -/
def Piece.push (c : Char) (rest : List Piece) : List Piece :=
  if c = ' ' then .space :: rest
  else if c = '.' then .dot :: rest
  else match rest with
    | .run cs :: rest => .run (c :: cs) :: rest
    | _ => .run [c] :: rest

def cut : List Char → List Piece
  | [] => []
  | c :: cs => Piece.push c (cut cs)

def ofPiece : Piece → Token
  | .space => space
  | .dot => dot
  | .run cs => ofRun cs

def scan (cs : List Char) : List Token := (cut cs).map ofPiece

/-- The tokens of a line. -/
def tokenize (line : String) : List Token := scan line.toList

/-! ## §3 The way back -/

def allChars (ts : List Token) : List Char := ts.flatMap chars

/-- The text of the tokens `ts` in order. -/
def join (ts : List Token) : String := String.ofList (allChars ts)

@[simp] theorem toList_join (ts : List Token) : (join ts).toList = allChars ts := by
  simp [join]

@[simp] theorem allChars_nil : allChars [] = [] := rfl

@[simp] theorem allChars_cons (t : Token) (ts : List Token) :
    allChars (t :: ts) = t.chars ++ allChars ts := by
  simp [allChars]

end Token

end Daybook
