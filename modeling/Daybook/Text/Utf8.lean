/-
Daybook.Text.Utf8 — characters as bytes.

Editors and files hand over bytes, and columns inside this library are
counted in bytes, so the encoding is spelled out here once: §1 encodes, §2
decodes, §3 measures and cuts a text by byte offsets.

Decoding reads every byte sequence as a list of chunks: a character, an
ill-formed stretch of one to three bytes, or the beginning of a character
that the end of the input cuts off. A strict reader refuses the last two and
names the place (`fault?`); a tolerant one puts U+FFFD in their place
(`decodeLossy`). An ill-formed stretch is as long as it can be while it is
still the beginning of some character, and never less than one byte.
-/
import Daybook.Text.Measure

namespace Daybook.Text.Utf8

/-! ## §1 Encoding -/

def width (c : Char) : Nat :=
  if c.toNat < 0x80 then 1 else if c.toNat < 0x800 then 2 else if c.toNat < 0x10000 then 3 else 4

def encodeChar (c : Char) : List UInt8 :=
  let n := c.toNat
  if n < 0x80 then [n.toUInt8]
  else if n < 0x800 then [(0xC0 + n / 64).toUInt8, (0x80 + n % 64).toUInt8]
  else if n < 0x10000 then
    [(0xE0 + n / 4096).toUInt8, (0x80 + n / 64 % 64).toUInt8, (0x80 + n % 64).toUInt8]
  else
    [(0xF0 + n / 262144).toUInt8, (0x80 + n / 4096 % 64).toUInt8, (0x80 + n / 64 % 64).toUInt8,
      (0x80 + n % 64).toUInt8]

def encode (cs : List Char) : List UInt8 := cs.flatMap encodeChar

@[simp] theorem encode_nil : encode [] = [] := rfl

@[simp] theorem encode_cons (c : Char) (cs : List Char) :
    encode (c :: cs) = encodeChar c ++ encode cs := rfl

@[simp] theorem encode_append (as bs : List Char) : encode (as ++ bs) = encode as ++ encode bs :=
  List.flatMap_append

theorem length_encodeChar (c : Char) : (encodeChar c).length = width c := by
  unfold encodeChar width
  simp only
  split
  · rfl
  · split
    · rfl
    · split <;> rfl

/-! ## §2 Decoding -/

/-- A stretch of a byte sequence. -/
inductive Chunk where
  /-- A well-formed character. -/
  | char (c : Char)
  /-- That many bytes which begin no character that could go on as the input does. -/
  | bad (length : Nat)
  /-- That many bytes which begin a character the input ends inside of. -/
  | cut (length : Nat)
deriving DecidableEq, Repr

/-- The beginning of a character of several bytes: how many bytes have been
seen and how many are missing, the bits so far, and the range in which the
next byte has to lie. -/
structure Partial where
  seen : Nat
  missing : Nat
  bits : Nat
  low : Nat := 0x80
  high : Nat := 0xBF
deriving DecidableEq, Repr

/-- The beginning that a first byte makes, if it begins a character of
several bytes. The ranges keep out overlong forms, surrogates and what lies
beyond U+10FFFF. -/
def Partial.ofLead (b : Nat) : Option Partial :=
  if 0xC2 ≤ b ∧ b ≤ 0xDF then some { seen := 1, missing := 1, bits := b - 0xC0 }
  else if b = 0xE0 then some { seen := 1, missing := 2, bits := 0, low := 0xA0 }
  else if b = 0xED then some { seen := 1, missing := 2, bits := 0xD, high := 0x9F }
  else if 0xE1 ≤ b ∧ b ≤ 0xEF then some { seen := 1, missing := 2, bits := b - 0xE0 }
  else if b = 0xF0 then some { seen := 1, missing := 3, bits := 0, low := 0x90 }
  else if 0xF1 ≤ b ∧ b ≤ 0xF3 then some { seen := 1, missing := 3, bits := b - 0xF0 }
  else if b = 0xF4 then some { seen := 1, missing := 3, bits := 4, high := 0x8F }
  else none

/-- The chunks of a byte sequence, `start` being the character begun before it. -/
def chunksFrom (start : Option Partial) : List UInt8 → List Chunk
  | [] => match start with
    | none => []
    | some p => [.cut p.seen]
  | byte :: bytes =>
    let b := byte.toNat
    let fresh : List Chunk :=
      if b < 0x80 then .char (Char.ofNat b) :: chunksFrom none bytes
      else match Partial.ofLead b with
        | some p => chunksFrom (some p) bytes
        | none => .bad 1 :: chunksFrom none bytes
    match start with
    | none => fresh
    | some p =>
      if p.low ≤ b ∧ b ≤ p.high then
        let bits := 64 * p.bits + b % 64
        if p.missing = 1 then .char (Char.ofNat bits) :: chunksFrom none bytes
        else chunksFrom (some { seen := p.seen + 1, missing := p.missing - 1, bits := bits }) bytes
      else .bad p.seen :: fresh

def chunks (bytes : List UInt8) : List Chunk := chunksFrom none bytes

def Chunk.char? : Chunk → Option Char
  | .char c => some c
  | _ => none

def Chunk.lossy : Chunk → Char
  | .char c => c
  | _ => '\ufffd'

/-- The text that a byte sequence encodes; `none` when it encodes none. -/
def decode? (bytes : List UInt8) : Option (List Char) := (chunks bytes).mapM Chunk.char?

/-- The text of a byte sequence, with U+FFFD for each stretch that is no character. -/
def decodeLossy (bytes : List UInt8) : List Char := (chunks bytes).map Chunk.lossy

/-- Where a byte sequence stops being a text: the offset, and the length of
the ill-formed stretch there, or `none` when the input ends inside a character. -/
structure Fault where
  offset : Nat
  length : Option Nat
deriving DecidableEq, Repr

/-- The first fault among chunks that begin at `offset`. -/
def faultFrom (offset : Nat) : List Chunk → Option Fault
  | [] => none
  | .char c :: rest => faultFrom (offset + width c) rest
  | .bad n :: _ => some ⟨offset, some n⟩
  | .cut _ :: _ => some ⟨offset, none⟩

/-- The first fault of a byte sequence; `none` exactly when it is a text. -/
def fault? (bytes : List UInt8) : Option Fault := faultFrom 0 (chunks bytes)

/-! ## §3 Measuring and cutting by bytes -/

def size (cs : List Char) : Nat := measure width cs

/-- The part of `cs` of `length` bytes from byte offset `start`, if both ends
fall between characters. -/
def slice? (cs : List Char) (start length : Nat) : Option (List Char) := do
  let (_, rest) ← cutAt? width start cs
  let (part, _) ← cutAt? width length rest
  pure part

theorem width_pos (c : Char) : 0 < width c := by
  unfold width; split
  · decide
  · split
    · decide
    · split <;> decide

@[simp] theorem size_nil : size [] = 0 := rfl

@[simp] theorem size_cons (c : Char) (cs : List Char) : size (c :: cs) = width c + size cs :=
  measure_cons ..

@[simp] theorem size_append (as bs : List Char) : size (as ++ bs) = size as + size bs :=
  measure_append ..

/-- The stretch of the bytes of `part` is `part`. -/
theorem slice?_append (before part after : List Char) :
    slice? (before ++ (part ++ after)) (size before) (size part) = some part := by
  simp [slice?, size, cutAt?_append width width_pos]

/-- A stretch of the bytes of a text stands between two parts of it. -/
theorem eq_append_of_slice? {cs part : List Char} {start length : Nat}
    (h : slice? cs start length = some part) :
    ∃ before after, cs = before ++ (part ++ after) ∧ size before = start ∧ size part = length := by
  simp only [slice?, bind, pure, Option.bind_eq_some_iff] at h
  obtain ⟨⟨before, rest⟩, hfirst, ⟨word, after⟩, hsecond, heq⟩ := h
  cases heq
  obtain ⟨rfl, hstart⟩ := eq_append_of_cutAt? hfirst
  obtain ⟨rfl, hlength⟩ := eq_append_of_cutAt? hsecond
  exact ⟨before, after, rfl, hstart, hlength⟩

/-- The bytes that a text is measured by are those it is encoded in. -/
theorem length_encode (cs : List Char) : (encode cs).length = size cs := by
  induction cs with
  | nil => rfl
  | cons c cs ih => simp [encode, length_encodeChar] at ih ⊢; omega

/-- No character takes less than a byte. -/
theorem length_le_length_encode (cs : List Char) : cs.length ≤ (encode cs).length := by
  rw [length_encode]
  induction cs with
  | nil => exact Nat.zero_le _
  | cons c cs ih =>
    have := width_pos c
    rw [List.length_cons, size_cons]
    omega

end Daybook.Text.Utf8
