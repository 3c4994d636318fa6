/-
Daybook.Proofs.Utf8RoundTrip — every text survives its bytes.

Decoding works through the bytes one at a time, with a character begun or not.
§1 states what one byte does to it. §2 runs these steps over the bytes of a
character, by the number of bytes; of three and four bytes, the first one says
in which range the second has to lie, and the encoder keeps to it. Main
statement (§3): `decode?_encode`. A tolerant reader also finds a text again
that stands behind bytes which are none, as long as it begins with an ASCII
character (§4).
-/
import Daybook.Text.Utf8

namespace Daybook.Text.Utf8

/-! ## §1 One byte -/

theorem toNat_toUInt8 {n : Nat} (h : n < 256) : n.toUInt8.toNat = n := by
  simpa using h

/-- A byte below `0x80` is a character of its own. -/
theorem chunksFrom_ascii {n : Nat} (h : n < 0x80) (bytes : List UInt8) :
    chunksFrom none (n.toUInt8 :: bytes) = .char (Char.ofNat n) :: chunksFrom none bytes := by
  have hn : n.toUInt8.toNat = n := toNat_toUInt8 (by omega)
  simp only [chunksFrom, hn, if_pos h]

theorem chunksFrom_lead {n : Nat} {p : Partial} (hlow : 0x80 ≤ n) (hhigh : n < 256)
    (hlead : Partial.ofLead n = some p) (bytes : List UInt8) :
    chunksFrom none (n.toUInt8 :: bytes) = chunksFrom (some p) bytes := by
  have hn : n.toUInt8.toNat = n := toNat_toUInt8 hhigh
  simp only [chunksFrom, hn, if_neg (Nat.not_lt.mpr hlow), hlead]

/-- A byte with six more bits, in the range that the character begun asks for. -/
theorem chunksFrom_tail {k : Nat} {p : Partial} (hk : k < 64) (hlow : p.low ≤ 0x80 + k)
    (hhigh : 0x80 + k ≤ p.high) (bytes : List UInt8) :
    chunksFrom (some p) ((0x80 + k).toUInt8 :: bytes) =
      if p.missing = 1 then .char (Char.ofNat (64 * p.bits + k)) :: chunksFrom none bytes
      else
        chunksFrom
          (some { seen := p.seen + 1, missing := p.missing - 1, bits := 64 * p.bits + k })
          bytes := by
  have hn : (0x80 + k).toUInt8.toNat = 0x80 + k := toNat_toUInt8 (by omega)
  have hbits : (0x80 + k) % 64 = k := by omega
  rw [chunksFrom]
  simp only [hn, hbits, hlow, hhigh, and_self, if_true]

/-! ## §2 One character -/

/-- A character lies outside the surrogates and below U+110000. -/
theorem toNat_valid (c : Char) : c.toNat < 0xD800 ∨ (0xDFFF < c.toNat ∧ c.toNat < 0x110000) :=
  c.valid

theorem ofLead_two {n : Nat} (hlow : 0x80 ≤ n) (hhigh : n < 0x800) :
    Partial.ofLead (0xC0 + n / 64) = some { seen := 1, missing := 1, bits := n / 64 } := by
  rw [Partial.ofLead, if_pos (by omega), Nat.add_sub_cancel_left]

/-- What the first of three bytes asks of the second. -/
theorem ofLead_three {n : Nat} (hvalid : n < 0xD800 ∨ 0xDFFF < n) (hlow : 0x800 ≤ n)
    (hhigh : n < 0x10000) :
    ∃ p, Partial.ofLead (0xE0 + n / 4096) = some p ∧ p.missing = 2 ∧ p.bits = n / 4096 ∧
      p.low ≤ 0x80 + n / 64 % 64 ∧ 0x80 + n / 64 % 64 ≤ p.high := by
  unfold Partial.ofLead
  rw [if_neg (by omega)]
  by_cases he0 : n / 4096 = 0
  · rw [if_pos (by omega)]
    refine ⟨_, rfl, rfl, ?_, ?_, ?_⟩ <;> dsimp only <;> omega
  · rw [if_neg (by omega)]
    by_cases hed : n / 4096 = 0xD
    · rw [if_pos (by omega)]
      refine ⟨_, rfl, rfl, ?_, ?_, ?_⟩ <;> dsimp only <;> omega
    · rw [if_neg (by omega), if_pos (by omega)]
      refine ⟨_, rfl, rfl, ?_, ?_, ?_⟩ <;> dsimp only <;> omega

/-- What the first of four bytes asks of the second. -/
theorem ofLead_four {n : Nat} (hlow : 0x10000 ≤ n) (hhigh : n < 0x110000) :
    ∃ p, Partial.ofLead (0xF0 + n / 262144) = some p ∧ p.missing = 3 ∧ p.bits = n / 262144 ∧
      p.low ≤ 0x80 + n / 4096 % 64 ∧ 0x80 + n / 4096 % 64 ≤ p.high := by
  unfold Partial.ofLead
  rw [if_neg (by omega), if_neg (by omega), if_neg (by omega), if_neg (by omega)]
  by_cases hf0 : n / 262144 = 0
  · rw [if_pos (by omega)]
    refine ⟨_, rfl, rfl, ?_, ?_, ?_⟩ <;> dsimp only <;> omega
  · rw [if_neg (by omega)]
    by_cases hf4 : n / 262144 = 4
    · rw [if_neg (by omega), if_pos (by omega)]
      refine ⟨_, rfl, rfl, ?_, ?_, ?_⟩ <;> dsimp only <;> omega
    · rw [if_pos (by omega)]
      refine ⟨_, rfl, rfl, ?_, ?_, ?_⟩ <;> dsimp only <;> omega

/-- The bytes of a character are that character, whatever follows. -/
theorem chunksFrom_encodeChar (c : Char) (bytes : List UInt8) :
    chunksFrom none (encodeChar c ++ bytes) = .char c :: chunksFrom none bytes := by
  have hvalid := toNat_valid c
  have hself : Char.ofNat c.toNat = c := Char.ofNat_toNat c
  unfold encodeChar
  generalize c.toNat = n at hvalid hself ⊢
  subst hself
  dsimp only
  split
  · next hone =>
    exact chunksFrom_ascii hone bytes
  · split
    · next hone htwo =>
      have hlead := ofLead_two (Nat.not_lt.mp hone) htwo
      have hbits : 64 * (n / 64) + n % 64 = n := by omega
      rw [List.cons_append, chunksFrom_lead (by omega) (by omega) hlead, List.singleton_append,
        chunksFrom_tail (by omega) (by dsimp only; omega) (by dsimp only; omega)]
      simp only [if_true, hbits]
    · split
      · next htwo hthree =>
        obtain ⟨p, hlead, hmissing, hbits, hlow, hhigh⟩ :=
          ofLead_three (by omega) (Nat.not_lt.mp htwo) hthree
        have hsum : 64 * (64 * (n / 4096) + n / 64 % 64) + n % 64 = n := by omega
        rw [List.cons_append, chunksFrom_lead (by omega) (by omega) hlead, List.cons_append,
          chunksFrom_tail (by omega) hlow hhigh, if_neg (by omega), List.singleton_append,
          chunksFrom_tail (by omega) (by dsimp only; omega) (by dsimp only; omega)]
        simp only [hmissing, hbits, if_true, hsum]
      · next hthree =>
        obtain ⟨p, hlead, hmissing, hbits, hlow, hhigh⟩ :=
          ofLead_four (n := n) (by omega) (by omega)
        have hsum : 64 * (64 * (64 * (n / 262144) + n / 4096 % 64) + n / 64 % 64) + n % 64 = n := by
          omega
        rw [List.cons_append, chunksFrom_lead (by omega) (by omega) hlead, List.cons_append,
          chunksFrom_tail (by omega) hlow hhigh, if_neg (by omega), List.cons_append,
          chunksFrom_tail (by omega) (by dsimp only; omega) (by dsimp only; omega),
          if_neg (by dsimp only; omega), List.singleton_append,
          chunksFrom_tail (by omega) (by dsimp only; omega) (by dsimp only; omega)]
        simp only [hmissing, hbits, if_true, hsum]

theorem encodeChar_ascii {c : Char} (h : c.toNat < 0x80) : encodeChar c = [c.toNat.toUInt8] := by
  simp only [encodeChar, if_pos h]

/-- No byte of a character beyond ASCII is an ASCII byte. -/
theorem le_of_mem_encodeChar {c : Char} (h : 0x80 ≤ c.toNat) :
    ∀ b ∈ encodeChar c, 0x80 ≤ b.toNat := by
  have hvalid := toNat_valid c
  have hlarge : ∀ n, 0x80 ≤ n → n < 256 → 0x80 ≤ n.toUInt8.toNat := fun n hlow hhigh => by
    rw [toNat_toUInt8 hhigh]
    exact hlow
  unfold encodeChar
  dsimp only
  rw [if_neg (Nat.not_lt.mpr h)]
  intro b hb
  split at hb
  · simp only [List.mem_cons, List.not_mem_nil, or_false] at hb
    rcases hb with rfl | rfl <;> exact hlarge _ (by omega) (by omega)
  · split at hb
    · simp only [List.mem_cons, List.not_mem_nil, or_false] at hb
      rcases hb with rfl | rfl | rfl <;> exact hlarge _ (by omega) (by omega)
    · simp only [List.mem_cons, List.not_mem_nil, or_false] at hb
      rcases hb with rfl | rfl | rfl | rfl <;> exact hlarge _ (by omega) (by omega)

/-! ## §3 Texts -/

/-- The chunks of an encoded text are its characters. -/
theorem chunks_encode (cs : List Char) : chunks (encode cs) = cs.map .char := by
  induction cs with
  | nil => rfl
  | cons c cs ih =>
    rw [encode, List.flatMap_cons, chunks, chunksFrom_encodeChar]
    exact congrArg _ ih

/-- Decoding gives back what was encoded. -/
theorem decode?_encode (cs : List Char) : decode? (encode cs) = some cs := by
  rw [decode?, chunks_encode]
  induction cs with
  | nil => rfl
  | cons c cs ih => simp [Chunk.char?, ih]

/-- The tolerant reader reads a text back as well. -/
theorem decodeLossy_encode (cs : List Char) : decodeLossy (encode cs) = cs := by
  rw [decodeLossy, chunks_encode, List.map_map]
  exact List.map_id cs

/-! ## §4 Texts behind other bytes -/

/-- Behind a first byte, no byte below 0x80 is asked for. -/
theorem low_of_ofLead {b : Nat} {p : Partial} (h : Partial.ofLead b = some p) : 0x80 ≤ p.low := by
  unfold Partial.ofLead at h
  repeat' split at h
  all_goals
    cases h
    try simp

theorem chunksFrom_none_cons (b : UInt8) (bytes : List UInt8) :
    chunksFrom none (b :: bytes) =
      if b.toNat < 0x80 then .char (Char.ofNat b.toNat) :: chunksFrom none bytes
      else match Partial.ofLead b.toNat with
        | some p => chunksFrom (some p) bytes
        | none => .bad 1 :: chunksFrom none bytes := rfl

/-- A byte that does not continue what was begun is read afresh. -/
theorem chunksFrom_some_cons (p : Partial) (b : UInt8) (bytes : List UInt8) :
    chunksFrom (some p) (b :: bytes) =
      if p.low ≤ b.toNat ∧ b.toNat ≤ p.high then
        if p.missing = 1 then
          .char (Char.ofNat (64 * p.bits + b.toNat % 64)) :: chunksFrom none bytes
        else
          chunksFrom
            (some
              { seen := p.seen + 1, missing := p.missing - 1, bits := 64 * p.bits + b.toNat % 64 })
            bytes
      else .bad p.seen :: chunksFrom none (b :: bytes) := by
  simp only [chunksFrom]

/-- An ASCII byte stands for itself, and ends whatever has been begun before it. -/
theorem map_lossy_chunksFrom {start : Option Partial} (hstart : ∀ p ∈ start, 0x80 ≤ p.low)
    (before : List UInt8) {b : UInt8} (hb : b.toNat < 0x80) (after : List UInt8) :
    (chunksFrom start (before ++ b :: after)).map Chunk.lossy =
      (chunksFrom start before).map Chunk.lossy ++
        Char.ofNat b.toNat :: (chunksFrom none after).map Chunk.lossy := by
  induction before generalizing start with
  | nil =>
    cases start with
    | none =>
      rw [List.nil_append, chunksFrom_none_cons, if_pos hb]
      rfl
    | some p =>
      have hlow := hstart p rfl
      rw [List.nil_append, chunksFrom_some_cons, if_neg (by omega), chunksFrom_none_cons, if_pos hb]
      rfl
  | cons a before ih =>
    have hfresh : (chunksFrom none (a :: (before ++ b :: after))).map Chunk.lossy =
        (chunksFrom none (a :: before)).map Chunk.lossy ++
          Char.ofNat b.toNat :: (chunksFrom none after).map Chunk.lossy := by
      rw [chunksFrom_none_cons, chunksFrom_none_cons]
      split
      · rw [List.map_cons, List.map_cons, ih (by simp), List.cons_append]
      · split
        · next p hlead =>
          exact ih fun q hq => Option.some.inj hq ▸ low_of_ofLead hlead
        · rw [List.map_cons, List.map_cons, ih (by simp), List.cons_append]
    cases start with
    | none => exact hfresh
    | some p =>
      rw [List.cons_append, chunksFrom_some_cons, chunksFrom_some_cons]
      split
      · split
        · rw [List.map_cons, List.map_cons, ih (by simp), List.cons_append]
        · exact ih fun q hq => by cases hq; simp
      · rw [List.map_cons, List.map_cons, hfresh, List.cons_append]

/-- A text that begins with an ASCII character is read as it is behind any bytes. -/
theorem decodeLossy_append (before : List UInt8) {c : Char} (hc : c.toNat < 0x80)
    (cs : List Char) :
    decodeLossy (before ++ encode (c :: cs)) = decodeLossy before ++ c :: cs := by
  have hbyte : c.toNat.toUInt8.toNat = c.toNat := toNat_toUInt8 (by omega)
  have hrest : (chunksFrom none (encode cs)).map Chunk.lossy = cs := decodeLossy_encode cs
  rw [encode_cons, encodeChar_ascii hc, List.singleton_append, decodeLossy, chunks,
    map_lossy_chunksFrom (by simp) before (hbyte.symm ▸ hc), hbyte, hrest, Char.ofNat_toNat]
  rfl

end Daybook.Text.Utf8
