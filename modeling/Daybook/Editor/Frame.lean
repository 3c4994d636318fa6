/-
Daybook.Editor.Frame — messages on a stream of bytes.

A frame is a few header lines, a blank line, and a body. One header counts:
the length of the body in bytes. Blank lines before it do not count, and of
two lengths the later one does. What goes wrong spoils one frame only: reading
goes on behind the line, or behind the body, that was bad.

§1 writing, §2 faults, §3 header lines, §4 frames, §5 reading makes progress.
-/
import Daybook.Editor.Message
import Daybook.Json.Printer
import Daybook.Text.Blank
import Daybook.Text.Printable

namespace Daybook.Editor.Frame

/-! ## §1 Writing -/

def header (length : Nat) : List Char :=
  "Content-Length: ".toList ++ Text.numeral length ++ "\r\n\r\n".toList

def write (body : List UInt8) : List UInt8 := Text.Utf8.encode (header body.length) ++ body

def bodyOf (j : Json) : List UInt8 := Text.Utf8.encode j.renderChars

def ofJson (j : Json) : List UInt8 := write (bodyOf j)

/-- A value in its frame, put together as one text before it becomes bytes. -/
def ofJsonText (j : Json) : List UInt8 :=
  Text.Utf8.encode (header (Text.Utf8.size j.renderChars) ++ j.renderChars)

/-! ## §2 Faults -/

/-- Why a frame is not read. -/
inductive Fault where
  /-- A header line is no text. -/
  | badText (fault : Text.Utf8.Fault)
  /-- A length is no number. -/
  | badLength (value : String)
  /-- The stream ends before the body does. -/
  | cutShort
  /-- The body is no message. -/
  | badBody
deriving DecidableEq, Repr

def Fault.message : Fault → String
  | badText f =>
    match f.length with
    | some n =>
      "invalid utf-8 sequence of " ++ Text.decimal n ++ " bytes from index " ++
        Text.decimal f.offset
    | none => "incomplete utf-8 byte sequence from index " ++ Text.decimal f.offset
  | badLength value => "invalid Content-Length " ++ Text.quoted value
  | cutShort => "early eof"
  | badBody => "malformed JSON-RPC message"

/-! ## §3 Header lines -/

/-- What a header line says. -/
inductive HeaderLine where
  | blank
  | length (bytes : Nat)
  /-- Anything else, which is ignored. -/
  | other
deriving DecidableEq, Repr

/-- A length: digits, perhaps behind a plus sign, that fit 64 bits. -/
def length? (value : List Char) : Option Nat :=
  let digits := match value with
    | '+' :: rest => rest
    | _ => value
  if digits ≠ [] ∧ Text.allDigits digits ∧ Text.decimalValue digits < 0x10000000000000000 then
    some (Text.decimalValue digits)
  else none

def HeaderLine.ofChars (line : List Char) : Except Fault HeaderLine :=
  let line := Text.trimEnd line
  if line = [] then .ok .blank
  else match line.dropWhile (· ≠ ':') with
    | [] => .ok .other
    | _ :: value =>
      if (line.takeWhile (· ≠ ':')).map Char.toLower = "content-length".toList then
        match length? (Text.trim value) with
        | some n => .ok (.length n)
        | none => .error (.badLength (String.ofList (Text.trim value)))
      else .ok .other

def HeaderLine.ofBytes (line : List UInt8) : Except Fault HeaderLine :=
  match Text.Utf8.fault? line with
  | some fault => .error (.badText fault)
  | none => ofChars (Text.Utf8.decodeLossy line)

/-! ## §4 Frames -/

/-- What reading a frame yields: the body or a fault, and the bytes behind it. -/
abbrev Reading := Except Fault (List UInt8) × List UInt8

def takeBody (length : Nat) (bytes : List UInt8) : Reading :=
  if bytes.length < length then (.error .cutShort, [])
  else (.ok (bytes.take length), bytes.drop length)

/-- Where a header line leads, with `length` the last length before it and
`bytes` what follows: to a frame that is read, or to the next header line with
the length to remember. -/
def afterLine (length : Option Nat) (line bytes : List UInt8) : Reading ⊕ Option Nat :=
  match HeaderLine.ofBytes line with
  | .error fault => .inl (.error fault, bytes)
  | .ok .other => .inr length
  | .ok (.length n) => .inr (some n)
  | .ok .blank =>
    match length with
    | some n => .inl (takeBody n bytes)
    | none => .inr none

/-- Reads on in a header: `line` holds the bytes of the current line, last one
first. -/
def readFrom (length : Option Nat) (line : List UInt8) : List UInt8 → Option Reading
  | [] =>
    if line = [] then none
    else match afterLine length line.reverse [] with
      | .inl reading => some reading
      | .inr _ => none
  | b :: bytes =>
    if b = 0x0A then
      match afterLine length (b :: line).reverse bytes with
      | .inl reading => some reading
      | .inr length => readFrom length [] bytes
    else readFrom length (b :: line) bytes

/-- Reads a frame. There is none at the end of the bytes, nor in a header that
the end cuts off. -/
def read? (bytes : List UInt8) : Option Reading := readFrom none [] bytes

def readMessage? (bytes : List UInt8) : Option (Except Fault Message × List UInt8) :=
  (read? bytes).map fun (body, rest) =>
    (body.bind fun body => match Message.ofBytes? body with
      | some message => .ok message
      | none => .error .badBody, rest)

/-! ## §5 Progress -/

theorem length_takeBody_le (n : Nat) (bytes : List UInt8) :
    (takeBody n bytes).2.length ≤ bytes.length := by
  unfold takeBody
  split <;> simp

theorem length_le_of_afterLine {length : Option Nat} {line bytes : List UInt8} {r : Reading}
    (h : afterLine length line bytes = .inl r) : r.2.length ≤ bytes.length := by
  unfold afterLine at h
  split at h
  · simp only [Sum.inl.injEq] at h
    subst h
    exact Nat.le_refl _
  · simp at h
  · simp at h
  · split at h
    · simp only [Sum.inl.injEq] at h
      subst h
      exact length_takeBody_le ..
    · simp at h

/-- Reading leaves fewer bytes than there were in the current line and behind it. -/
theorem length_lt_of_readFrom {length : Option Nat} {line bytes : List UInt8} {r : Reading}
    (h : readFrom length line bytes = some r) : r.2.length < line.length + bytes.length := by
  induction bytes generalizing length line with
  | nil =>
    rw [readFrom] at h
    split at h
    · simp at h
    · next hne =>
      have hpos := List.length_pos_iff.2 hne
      split at h
      · next hline =>
        have hle := length_le_of_afterLine hline
        simp only [Option.some.injEq] at h
        subst h
        simp at hle
        simp [hle]
        omega
      · simp at h
  | cons b bytes ih =>
    rw [readFrom] at h
    split at h
    · split at h
      · next hline =>
        have hle := length_le_of_afterLine hline
        simp only [Option.some.injEq] at h
        subst h
        simp
        omega
      · have hlt := ih h
        simp at hlt ⊢
        omega
    · have hlt := ih h
      simp at hlt ⊢
      omega

/-- Every frame that is read takes at least one byte. -/
theorem length_lt_of_read? {bytes : List UInt8} {r : Reading} (h : read? bytes = some r) :
    r.2.length < bytes.length := by
  simpa using length_lt_of_readFrom h

/-- Reading a message takes something off the bytes. -/
theorem length_lt_of_readMessage? {bytes rest : List UInt8} {m : Except Fault Message}
    (h : readMessage? bytes = some (m, rest)) : rest.length < bytes.length := by
  unfold readMessage? at h
  obtain ⟨r, hr, heq⟩ := Option.map_eq_some_iff.1 h
  have hlt := length_lt_of_read? hr
  simp only [Prod.mk.injEq] at heq
  rw [← heq.2]
  exact hlt

end Daybook.Editor.Frame
