/-
Daybook.Proofs.JsonRoundTrip — a written value is read back.

What the printer puts between quotes the reader takes apart again, character
by character (§1). A value that is followed by anything is taken off with just
its own bytes (§2); a list of such values is one too, as long as it does not
nest deeper than the reader allows (§3). Numbers and objects are left out:
their written form is not the only one.
-/
import Daybook.Json.Printer
import Daybook.Json.Reader
import Daybook.Proofs.Utf8RoundTrip

namespace Daybook.Json.Reader

open Text.Utf8 (encode encodeChar)

/-! ## §1 Texts -/

/-- The reader of texts takes `content` and the closing quote off `bytes`, and leaves `rest`. -/
def TakesText (content rest bytes : List UInt8) : Prop :=
  ∀ fuel, bytes.length < fuel → stringBytes true fuel bytes = some (content, rest)

/-- A byte of a text that stands for itself. -/
structure IsPlain (b : UInt8) : Prop where
  notQuote : b ≠ byte '"'
  notBackslash : b ≠ byte '\\'
  notControl : 0x20 ≤ b.toNat

namespace TakesText

variable {content rest bytes : List UInt8}

theorem of_succ (h : ∀ fuel, bytes.length ≤ fuel →
    stringBytes true (fuel + 1) bytes = some (content, rest)) : TakesText content rest bytes := by
  intro fuel hfuel
  cases fuel with
  | zero => exact absurd hfuel (Nat.not_lt_zero _)
  | succ fuel => exact h fuel (Nat.le_of_lt_succ hfuel)

theorem quote (rest : List UInt8) : TakesText [] rest (byte '"' :: rest) :=
  of_succ fun fuel _ => by simp [stringBytes]

theorem plain (h : TakesText content rest bytes) {b : UInt8} (hb : IsPlain b) :
    TakesText (b :: content) rest (b :: bytes) := by
  refine of_succ fun fuel hfuel => ?_
  have hmore := h fuel hfuel
  have hcontrol := Nat.not_lt.mpr hb.notControl
  simp only [stringBytes, if_neg hb.notQuote, if_neg hb.notBackslash, if_neg hcontrol, hmore]
  rfl

theorem plains (h : TakesText content rest bytes) {bs : List UInt8} (hbs : ∀ b ∈ bs, IsPlain b) :
    TakesText (bs ++ content) rest (bs ++ bytes) := by
  induction bs with
  | nil => exact h
  | cons b bs ih =>
    have hmore := ih fun x hx => hbs x (by simp [hx])
    exact hmore.plain (hbs b (by simp))

theorem short (h : TakesText content rest bytes) {e b : UInt8} (hu : e ≠ byte 'u')
    (he : shortEscape? e = some b) :
    TakesText (b :: content) rest (byte '\\' :: e :: bytes) := by
  refine of_succ fun fuel hfuel => ?_
  have hmore := h fuel (by simp at hfuel; omega)
  have hquote : byte '\\' ≠ byte '"' := by decide
  simp only [stringBytes, if_neg hquote, if_true, if_neg hu, he, Option.map_some]
  simp [hmore]

end TakesText

theorem hex4?_append {bs : List UInt8} {n : Nat} (h : hex4? bs = some (n, []))
    (rest : List UInt8) : hex4? (bs ++ rest) = some (n, rest) := by
  match bs, h with
  | a :: b :: c :: d :: more, h =>
    simp only [hex4?, bind, Option.bind_eq_some_iff] at h
    obtain ⟨w, ha, x, hb, y, hc, z, hd, h⟩ := h
    cases h
    simp [hex4?, ha, hb, hc, hd]

/-- The numerals of the controls are read back. -/
theorem hex4?_hex4 : ∀ n < 0x20, hex4? (encode (hex4 n)) = some (n, []) := by decide

theorem TakesText.unicode {content rest bytes : List UInt8} (h : TakesText content rest bytes)
    {c : Char} (hc : c.toNat < 0x20) :
    TakesText (encodeChar c ++ content) rest
      (byte '\\' :: byte 'u' :: (encode (hex4 c.toNat) ++ bytes)) := by
  refine of_succ fun fuel hfuel => ?_
  have hmore := h fuel (by simp at hfuel; omega)
  have hquote : byte '\\' ≠ byte '"' := by decide
  have hhex := hex4?_append (hex4?_hex4 c.toNat hc) bytes
  have hself : Char.ofNat c.toNat = c := Char.ofNat_toNat c
  have hunicode : unicodeEscape? true (encode (hex4 c.toNat) ++ bytes) =
      some (encodeChar c, bytes) := by
    simp only [unicodeEscape?, hhex]
    simp [hself]
    omega
  simp only [stringBytes, if_neg hquote, if_true, hunicode]
  simp [hmore]

/-- The bytes of a character that is not escaped stand for themselves. -/
theorem isPlain_of_mem_encodeChar {c : Char} (hquote : c ≠ '"') (hbackslash : c ≠ '\\')
    (hcontrol : 0x20 ≤ c.toNat) : ∀ b ∈ encodeChar c, IsPlain b := by
  have hne : ∀ {b : UInt8} {d : Char}, b.toNat ≠ (byte d).toNat → b ≠ byte d :=
    fun h heq => h (congrArg UInt8.toNat heq)
  intro b hb
  by_cases hascii : c.toNat < 0x80
  · rw [Text.Utf8.encodeChar_ascii hascii, List.mem_singleton] at hb
    have hself : b.toNat = c.toNat := hb ▸ Text.Utf8.toNat_toUInt8 (by omega)
    refine ⟨hne ?_, hne ?_, by omega⟩
    · rw [hself]
      exact fun h => hquote (Char.toNat_inj.mp h)
    · rw [hself]
      exact fun h => hbackslash (Char.toNat_inj.mp h)
  · have hlarge := Text.Utf8.le_of_mem_encodeChar (Nat.not_lt.mp hascii) b hb
    have hquote' : (byte '"').toNat = 0x22 := rfl
    have hbackslash' : (byte '\\').toNat = 0x5C := rfl
    exact ⟨hne (by omega), hne (by omega), by omega⟩

/-- The reader of texts undoes the escaping of any character. -/
theorem TakesText.char {content rest bytes : List UInt8} (h : TakesText content rest bytes)
    (c : Char) : TakesText (encodeChar c ++ content) rest (encode (escapeChar c) ++ bytes) := by
  unfold escapeChar
  split
  · exact h.short (by decide) rfl
  · exact h.short (by decide) rfl
  · exact h.short (by decide) rfl
  · exact h.short (by decide) rfl
  · exact h.short (by decide) rfl
  · exact h.short (by decide) rfl
  · exact h.short (by decide) rfl
  · next hquote hbackslash _ _ _ _ _ =>
    split
    · next hcontrol => exact h.unicode hcontrol
    · next hcontrol =>
      rw [Text.Utf8.encode_cons, Text.Utf8.encode_nil, List.append_nil]
      exact h.plains (isPlain_of_mem_encodeChar hquote hbackslash (Nat.not_lt.mp hcontrol))

/-- The reader of texts undoes the escaping of any text. -/
theorem takesText_escaped (cs : List Char) (rest : List UInt8) :
    TakesText (encode cs) rest (encode (cs.flatMap escapeChar) ++ byte '"' :: rest) := by
  induction cs with
  | nil => exact TakesText.quote rest
  | cons c cs ih =>
    rw [List.flatMap_cons, Text.Utf8.encode_append, List.append_assoc]
    exact ih.char c

/-- A written text is taken off the front, whatever follows its closing quote. -/
theorem string_escaped (s : String) (rest : List UInt8) :
    string true (encode (s.toList.flatMap escapeChar) ++ byte '"' :: rest) = some (s, rest) := by
  rw [string, takesText_escaped s.toList rest _ (Nat.lt_succ_self _)]
  simp [Text.Utf8.decode?_encode]

/-! ## §2 Values -/

theorem encode_ascii_cons {c : Char} (h : c.toNat < 0x80) (cs : List Char) :
    encode (c :: cs) = byte c :: encode cs := by
  rw [Text.Utf8.encode_cons, Text.Utf8.encodeChar_ascii h]
  rfl

theorem skipBlanks_cons {b : UInt8} (h : isBlankByte b = false) (bytes : List UInt8) :
    skipBlanks (b :: bytes) = b :: bytes := by
  rw [skipBlanks, List.dropWhile_cons_of_neg (by simp [h])]

theorem expect_cons {b : UInt8} (h : isBlankByte b = false) (c : Char) (bytes : List UInt8) :
    expect c (b :: bytes) = if b = byte c then some bytes else none := by
  rw [expect, skipBlanks_cons h]

/-- The reader takes the written form of `j` off the front of any bytes, with one step for each
byte of it, and does not take its beginning for the end of a list. -/
structure ReadsBack (m : Mode) (j : Json) : Prop where
  first : ∃ b bytes, encode (renderChars j) = b :: bytes ∧ isBlankByte b = false ∧ b ≠ byte ']'
  taken : ∀ rest fuel, (encode (renderChars j)).length ≤ fuel →
    value m fuel (encode (renderChars j) ++ rest) = some (j, rest)

theorem ReadsBack.of_succ {m : Mode} {j : Json}
    (first : ∃ b bytes, encode (renderChars j) = b :: bytes ∧ isBlankByte b = false ∧
      b ≠ byte ']')
    (taken : ∀ rest fuel, (encode (renderChars j)).length ≤ fuel + 1 →
      value m (fuel + 1) (encode (renderChars j) ++ rest) = some (j, rest)) : ReadsBack m j where
  first := first
  taken rest fuel hfuel := by
    cases fuel with
    | zero =>
      obtain ⟨b, bytes, hbytes, _⟩ := first
      rw [hbytes] at hfuel
      cases hfuel
    | succ fuel => exact taken rest fuel hfuel

theorem readsBack_null (m : Mode) : ReadsBack m .null :=
  .of_succ ⟨byte 'n', _, rfl, by decide, by decide⟩ fun _ _ _ => rfl

theorem readsBack_bool (m : Mode) (b : Bool) : ReadsBack m (.bool b) := by
  cases b with
  | true => exact .of_succ ⟨byte 't', _, rfl, by decide, by decide⟩ fun _ _ _ => rfl
  | false => exact .of_succ ⟨byte 'f', _, rfl, by decide, by decide⟩ fun _ _ _ => rfl

/-- A text is read back from its printed form. -/
theorem readsBack_str {m : Mode} (hstrict : m.strict = true) (s : String) :
    ReadsBack m (.str s) := by
  refine .of_succ ⟨byte '"', _, rfl, by decide, by decide⟩ fun rest fuel _ => ?_
  have hbytes : encode (renderChars (.str s)) ++ rest =
      byte '"' :: (encode (s.toList.flatMap escapeChar) ++ byte '"' :: rest) := by
    rw [renderChars, renderString, List.cons_append, encode_ascii_cons (by decide),
      Text.Utf8.encode_append, List.cons_append, List.append_assoc]
    rfl
  rw [hbytes, value, skipBlanks_cons (by decide)]
  simp [hstrict, string_escaped]

/-! ## §3 Lists -/

theorem encode_renderItems_cons (j k : Json) (js : List Json) :
    encode (renderItems (j :: k :: js)) =
      encode (renderChars j) ++ byte ',' :: encode (renderItems (k :: js)) := by
  rw [renderItems, Text.Utf8.encode_append, encode_ascii_cons (by decide)]
  simp

theorem encode_renderItems_single (j : Json) :
    encode (renderItems [j]) = encode (renderChars j) ++ [byte ']'] := by
  rw [renderItems, Text.Utf8.encode_append, encode_ascii_cons (by decide), Text.Utf8.encode_nil]

/-- The items of a list are taken off the front with the closing bracket. -/
theorem items_renderItems {m : Mode} {js : List Json} (hne : js ≠ [])
    (h : ∀ j ∈ js, ReadsBack m j) (rest : List UInt8) (fuel : Nat)
    (hfuel : (encode (renderItems js)).length ≤ fuel) :
    items m fuel (encode (renderItems js) ++ rest) = some (js, rest) := by
  induction js generalizing fuel with
  | nil => exact absurd rfl hne
  | cons j js ih =>
    have hj := h j (by simp)
    cases js with
    | nil =>
      rw [encode_renderItems_single] at hfuel ⊢
      rw [List.length_append] at hfuel
      cases fuel with
      | zero => cases hfuel
      | succ fuel =>
        rw [items, List.append_assoc, hj.taken _ fuel (Nat.le_of_succ_le_succ hfuel)]
        simp [expect_cons (show isBlankByte (byte ']') = false by decide),
          show byte ']' ≠ byte ',' by decide]
    | cons k js =>
      rw [encode_renderItems_cons] at hfuel ⊢
      rw [List.length_append, List.length_cons] at hfuel
      cases fuel with
      | zero => omega
      | succ fuel =>
        have hmore := ih (by simp) (fun x hx => h x (List.mem_cons_of_mem _ hx)) fuel (by omega)
        rw [items, List.append_assoc, hj.taken _ fuel (by omega)]
        simp [expect_cons (show isBlankByte (byte ',') = false by decide), hmore]

/-- What begins like a value is no closing bracket. -/
theorem expect_renderItems {m : Mode} {j : Json} (h : ReadsBack m j) (js : List Json)
    (rest : List UInt8) : expect ']' (encode (renderItems (j :: js)) ++ rest) = none := by
  obtain ⟨b, bytes, hbytes, hblank, hbracket⟩ := h.first
  have hcut : ∃ more, encode (renderItems (j :: js)) = b :: more := by
    cases js with
    | nil => exact ⟨_, by rw [encode_renderItems_single, hbytes, List.cons_append]⟩
    | cons k js => exact ⟨_, by rw [encode_renderItems_cons, hbytes, List.cons_append]⟩
  obtain ⟨more, hmore⟩ := hcut
  rw [hmore, List.cons_append, expect_cons hblank, if_neg hbracket]

/-- A list of values that are read back is read back one level deeper. -/
theorem readsBack_arr {m : Mode} {js : List Json} (hdepth : m.depth ≠ 0)
    (h : ∀ j ∈ js, ReadsBack { m with depth := m.depth - 1 } j) : ReadsBack m (.arr js) := by
  refine .of_succ ⟨byte '[', _, rfl, by decide, by decide⟩ fun rest fuel hfuel => ?_
  rw [renderChars, encode_ascii_cons (by decide)] at hfuel ⊢
  have hquote : byte '[' ≠ byte '"' := by decide
  rw [List.cons_append, value, skipBlanks_cons (by decide)]
  simp only [if_neg hquote, if_true, if_neg hdepth]
  cases js with
  | nil =>
    have hend : expect ']' (encode (renderItems []) ++ rest) = some rest := rfl
    rw [hend]
  | cons j js =>
    rw [List.length_cons] at hfuel
    rw [expect_renderItems (h j (by simp)),
      items_renderItems (by simp) h rest fuel (Nat.le_of_succ_le_succ hfuel)]
    rfl

/-- A value that is read back is all that its written form holds, blanks aside. -/
theorem parse?_render {m : Mode} {j : Json} (h : ReadsBack m j) {blanks : List UInt8}
    (hblanks : skipBlanks blanks = []) :
    parse? m (encode (renderChars j) ++ blanks) = some j := by
  have hfuel : (encode (renderChars j)).length ≤
      2 * (encode (renderChars j) ++ blanks).length + 2 := by
    rw [List.length_append]
    omega
  rw [parse?, takeValue, h.taken blanks _ hfuel]
  simp [hblanks]

end Daybook.Json.Reader
