/-
Daybook.Proofs.MarkedColumns — columns in UTF-16 units lead to the same words.

The scan counts bytes, an editor counts UTF-16 units. A mark of the scan
begins and ends between two characters of its line, so its line falls into
three parts: what stands before the word, the word, and what stands behind it.
Counting the parts in units instead of bytes moves the mark to where the units
of the same word are. Main statement: `toUtf16_designates`; the way out for
marks that cut a character in two is never taken.

§1 the parts of a line, §2 the marks of a text have such parts, §3 counting
the parts in units, §4 the main statement.
-/
import Daybook.Proofs.MarkedWords

namespace Daybook.Highlight

open Text

/-! ## §1 The parts of a line -/

/-- The mark covers `word` in the line that is `before ++ word ++ after`. -/
structure Mark.StandsOn (m : Mark) (line before word after : List Char) : Prop where
  parts : line = before ++ (word ++ after)
  column : m.column = Utf8.size before
  length : m.length = Utf8.size word
  word_ne_nil : word ≠ []

namespace Mark.StandsOn

variable {m : Mark} {line before word after : List Char}

theorem slice?_before (h : m.StandsOn line before word after) :
    Utf8.slice? line 0 m.column = some before := by
  have hslice := Utf8.slice?_append [] before (word ++ after)
  rw [h.parts, h.column]
  simpa using hslice

theorem slice?_word (h : m.StandsOn line before word after) :
    Utf8.slice? line m.column m.length = some word := by
  rw [h.parts, h.column, h.length]
  exact Utf8.slice?_append before word after

end Mark.StandsOn

/-! ## §2 The marks of a text -/

theorem trim_ne_nil_of_recordsEntry {r : Line.Reader} {line : String}
    (h : recordsEntry r line = true) : trim line.toList ≠ [] := by
  obtain ⟨e, hread, _⟩ := recordsEntry_iff.mp h
  obtain ⟨hspace, _⟩ := Line.Grammar.entry_eq_ok (Line.grammar_entry_of_read hread)
  exact List.ne_nil_of_mem hspace

/-- A mark of a line stands on a word of it. -/
theorem exists_standsOn_of_mem_markLine {line : String} {number : Nat} {m : Mark}
    (hne : trim line.toList ≠ []) (hshort : Utf8.size line.toList ≤ Counter.largest)
    (hm : m ∈ markLine number line) :
    ∃ before word after, m.StandsOn line.toList before word after := by
  have hspan : m.span ∈ (words line.toList).map spanOf := by
    rw [← map_span_markLine hne hshort number]
    exact List.mem_map_of_mem hm
  obtain ⟨w, hw, hspan⟩ := List.mem_map.mp hspan
  obtain ⟨hcovered, hword, _⟩ := covered_words hne w hw
  rw [hspan] at hcovered
  obtain ⟨before, after, hparts, hcolumn, hlength⟩ := Utf8.eq_append_of_slice? hcovered
  exact ⟨before, w.2, after, hparts, hcolumn.symm, hlength.symm, hword⟩

/-- The marks that a line of the text contributes carry its number, and it records an entry. -/
theorem of_mem_marks_of_line {r : Line.Reader} {lines : List String}
    (hfew : lines.length < 2 ^ 32) {line : String} {number : Nat}
    (hline : lines[number]? = some line) {m : Mark}
    (hm : m ∈ if recordsEntry r line then markLine (Counter.cap number) line else []) :
    m.line = number ∧ recordsEntry r line = true ∧ m ∈ markLine number line := by
  have hnumber : number < lines.length := (List.getElem?_eq_some_iff.mp hline).1
  rw [Counter.cap_of_le (Nat.le_of_lt_succ (Nat.lt_trans hnumber hfew))] at hm
  split at hm
  · next hrecords =>
    refine ⟨?_, hrecords, hm⟩
    obtain ⟨_, _, rfl⟩ := List.mem_map.mp hm
    rfl
  · cases hm

/-- Every mark of a text stands on a word of its line. -/
theorem exists_standsOn_of_mem_mark {r : Line.Reader} {lines : List String}
    (hfew : lines.length < 2 ^ 32)
    (hshort : ∀ line ∈ lines, Utf8.size line.toList < 2 ^ 32) {m : Mark} (hm : m ∈ mark r lines) :
    ∃ line, lines[m.line]? = some line ∧
      ∃ before word after, m.StandsOn line.toList before word after := by
  obtain ⟨⟨line, number⟩, hmem, hm⟩ := List.mem_flatMap.mp hm
  have hline : lines[number]? = some line := List.mk_mem_zipIdx_iff_getElem?.mp hmem
  have hsize := hshort line (List.mem_of_getElem? hline)
  obtain ⟨rfl, hrecords, hm⟩ := of_mem_marks_of_line hfew hline hm
  exact ⟨line, hline, exists_standsOn_of_mem_markLine (trim_ne_nil_of_recordsEntry hrecords)
    (Nat.le_of_lt_succ hsize) hm⟩

/-! ## §3 Counting in units -/

/-- No character takes more UTF-16 units than bytes. -/
theorem utf16Width_le_width (c : Char) : Utf16.width c ≤ Utf8.width c := by
  have hpos := Utf8.width_pos c
  unfold Utf16.width
  split
  · exact hpos
  · next hlarge =>
    rw [Utf8.width, if_neg (by omega), if_neg (by omega), if_neg hlarge]
    decide

/-- A text has no more units than bytes. -/
theorem utf16Size_le_size (cs : List Char) : Utf16.size cs ≤ Utf8.size cs := by
  induction cs with
  | nil => exact Nat.le_refl _
  | cons c cs ih =>
    have := utf16Width_le_width c
    simp only [Utf16.size_cons, Utf8.size_cons]
    omega

theorem utf16Length_of_short {cs : List Char} (h : Utf8.size cs < 2 ^ 32) :
    utf16Length cs = Utf16.size cs :=
  Counter.cap_of_le (Nat.le_of_lt_succ (Nat.lt_of_le_of_lt (utf16Size_le_size cs) h))

/-- A mark that stands on a word is rewritten: its parts are counted anew. -/
theorem Mark.StandsOn.toUtf16_eq {m : Mark} {lines : List String} {line : String}
    {before word after : List Char} (h : m.StandsOn line.toList before word after)
    (hline : lines[m.line]? = some line) (hshort : Utf8.size line.toList < 2 ^ 32) :
    toUtf16 lines m = { m with column := Utf16.size before, length := Utf16.size word } := by
  have hsize : Utf8.size before < 2 ^ 32 ∧ Utf8.size word < 2 ^ 32 := by
    rw [h.parts] at hshort
    simp only [Utf8.size_append] at hshort
    omega
  simp only [toUtf16, hline, Option.getD_some, h.slice?_before, h.slice?_word,
    utf16Length_of_short hsize.1, utf16Length_of_short hsize.2]

/-! ## §4 The main statement -/

/-- The part of a sequence of bytes or units that begins at `start`. -/
def stretch {α : Type} (xs : List α) (start length : Nat) : List α := (xs.drop start).take length

theorem stretch_append {α : Type} (before part after : List α) :
    stretch (before ++ (part ++ after)) before.length part.length = part := by
  simp [stretch]

/-- On the line, `q` says in units what `p` says in bytes. -/
structure Designates (line : List Char) (p q : Mark) : Prop where
  line_eq : q.line = p.line
  kind_eq : q.kind = p.kind
  /-- The span of `p` is that of a word, and both its ends fall between characters. -/
  word : ∃ before word, Utf8.slice? line 0 p.column = some before ∧
    Utf8.slice? line p.column p.length = some word ∧ word ≠ [] ∧
    stretch (Utf8.encode line) p.column p.length = Utf8.encode word ∧
    stretch (Utf16.encode line) q.column q.length = Utf16.encode word ∧
    q.length = (Utf16.encode word).length

/-- A mark that stands on a word designates the same word in UTF-16 units. -/
theorem Mark.StandsOn.designates {m : Mark} {line before word after : List Char}
    (h : m.StandsOn line before word after) :
    Designates line m { m with column := Utf16.size before, length := Utf16.size word } where
  line_eq := rfl
  kind_eq := rfl
  word := by
    refine ⟨before, word, h.slice?_before, h.slice?_word, h.word_ne_nil, ?_, ?_, ?_⟩
    · rw [h.parts, h.column, h.length, ← Utf8.length_encode, ← Utf8.length_encode,
        Utf8.encode_append, Utf8.encode_append]
      exact stretch_append ..
    · rw [h.parts, ← Utf16.length_encode, ← Utf16.length_encode, Utf16.encode_append,
        Utf16.encode_append]
      exact stretch_append ..
    · exact (Utf16.length_encode word).symm

/-- **Columns in UTF-16 units lead to the same words.** Mark by mark, the rewritten list has the
line and the kind of the original, and the units that it points at are those of the word whose
bytes the original points at. -/
theorem toUtf16_designates (r : Line.Reader) (lines : List String) (hfew : lines.length < 2 ^ 32)
    (hshort : ∀ line ∈ lines, Utf8.size line.toList < 2 ^ 32) (i : Nat) (p q : Mark)
    (hp : (mark r lines)[i]? = some p) (hq : ((mark r lines).map (toUtf16 lines))[i]? = some q) :
    ∃ line, lines[p.line]? = some line ∧ Designates line.toList p q := by
  obtain ⟨line, hline, before, word, after, hstands⟩ :=
    exists_standsOn_of_mem_mark hfew hshort (List.mem_of_getElem? hp)
  have hsize := hshort line (List.mem_of_getElem? hline)
  rw [List.getElem?_map, hp, Option.map_some, Option.some.injEq,
    hstands.toUtf16_eq hline hsize] at hq
  subst hq
  exact ⟨line, hline, hstands.designates⟩

/-- The word behind a character of four bytes and two units, on a line that begins with white
space of three bytes and one unit: byte 25 is unit 18. -/
theorem toUtf16_designates_beyondPlane :
    let lines := ["größe 0.0", "\u2003größe  1h30m 😀ß ende"]
    let p : Mark := { line := 1, column := 25, length := 4, kind := .word }
    let q : Mark := { line := 1, column := 18, length := 4, kind := .word }
    lines.length < 2 ^ 32 ∧ (∀ line ∈ lines, Utf8.size line.toList < 2 ^ 32) ∧
    (mark sampleReader lines)[3]? = some p ∧
    ((mark sampleReader lines).map (toUtf16 lines))[3]? = some q ∧
    ∃ line, lines[p.line]? = some line ∧ Designates line.toList p q := by
  intro lines p q
  have hfew : lines.length < 2 ^ 32 := by decide
  have hshort : ∀ line ∈ lines, Utf8.size line.toList < 2 ^ 32 := by decide
  have hp : (mark sampleReader lines)[3]? = some p := by decide +kernel
  have hq : ((mark sampleReader lines).map (toUtf16 lines))[3]? = some q := by decide +kernel
  exact ⟨hfew, hshort, hp, hq, toUtf16_designates sampleReader lines hfew hshort 3 p q hp hq⟩

end Daybook.Highlight
