/-
Daybook.Text.Utf16 — columns as editors count them.

An editor's column is a number of UTF-16 code units: a character outside the
basic plane counts for two. §1 gives the units themselves, so that a span of
columns can be compared with the words it is meant to cover, and §2 counts
them.
-/
import Daybook.Text.Measure

namespace Daybook.Text.Utf16

/-! ## §1 Units -/

/-- The code units of one character: itself, or a high and a low surrogate. -/
def encodeChar (c : Char) : List Nat :=
  if c.toNat < 0x10000 then [c.toNat]
  else [0xD800 + (c.toNat - 0x10000) / 0x400, 0xDC00 + (c.toNat - 0x10000) % 0x400]

def encode (cs : List Char) : List Nat := cs.flatMap encodeChar

@[simp] theorem encode_append (as bs : List Char) : encode (as ++ bs) = encode as ++ encode bs :=
  List.flatMap_append

/-- The character of a surrogate pair, if the two units are one. -/
def pair? (high low : Nat) : Option Char :=
  if 0xD800 ≤ high ∧ high ≤ 0xDBFF ∧ 0xDC00 ≤ low ∧ low ≤ 0xDFFF then
    some (Char.ofNat (0x10000 + (high - 0xD800) * 0x400 + (low - 0xDC00)))
  else none

/-! ## §2 Counting -/

def width (c : Char) : Nat := if c.toNat < 0x10000 then 1 else 2

def size (cs : List Char) : Nat := measure width cs

theorem width_pos (c : Char) : 0 < width c := by
  unfold width; split <;> decide

@[simp] theorem size_nil : size [] = 0 := rfl

@[simp] theorem size_cons (c : Char) (cs : List Char) : size (c :: cs) = width c + size cs :=
  measure_cons ..

@[simp] theorem size_append (as bs : List Char) : size (as ++ bs) = size as + size bs :=
  measure_append ..

/-- Counting units agrees with writing them. -/
theorem length_encode (cs : List Char) : (encode cs).length = size cs := by
  induction cs with
  | nil => rfl
  | cons c cs ih =>
    have hc : (encodeChar c).length = width c := by
      unfold encodeChar width; split <;> rfl
    simp [encode, hc] at ih ⊢; omega

end Daybook.Text.Utf16
