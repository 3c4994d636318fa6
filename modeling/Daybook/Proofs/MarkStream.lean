/-
Daybook.Proofs.MarkStream — an editor reads the stream of marks back.

The stream gives every mark relative to the one before it, by a difference
that stops at zero, so it is faithful only if no mark goes backwards. Marks of
one line follow each other because its words do, and marks of different lines
because the lines do; counting columns in UTF-16 units keeps that order, as a
longer beginning of a line has more units. Main statement: `decode_encode_mark`.

§1 reading a stream, §2 marks in order, §3 streams of marks in order, §4 the
marks of a text are in order, §5 so they are in UTF-16 columns, §6 the main
statement.
-/
import Daybook.Proofs.MarkedColumns

namespace Daybook.Highlight

open Text

/-! ## §1 Reading a stream -/

/-- The marks of a stream, as editors read it. `line` and `column` are those of the mark before: a
group of five begins with the lines to go down, and with the columns to go on from there or, on a
new line, from its beginning. There is nothing to read in a group cut short, of an unannounced
kind, or with modifiers, as none are announced. -/
def decodeFrom (line column : Nat) : List Nat → Option (List Mark)
  | [] => some []
  | down :: right :: length :: index :: modifiers :: rest => do
    let kind ← Kind.all[index]?
    if modifiers ≠ 0 then none
    let line' := line + down
    let column' := if down = 0 then column + right else right
    let ms ← decodeFrom line' column' rest
    pure ({ line := line', column := column', length, kind } :: ms)
  | _ => none

/-- The marks of a whole stream. -/
def decode (stream : List Nat) : Option (List Mark) := decodeFrom 0 0 stream

/-! ## §2 Marks in order -/

/-- The first mark begins before the second: on a line above, or on the same line to the left. -/
def Mark.Before (a b : Mark) : Prop := a.line < b.line ∨ a.line = b.line ∧ a.column < b.column

/-- The differences that stand for `b` behind `a` add up to `b` again. -/
def Mark.Lossless (a b : Mark) : Prop :=
  a.line + (b.line - a.line) = b.line ∧
  (a.line = b.line → a.column + (b.column - a.column) = b.column)

/-- Between marks in order, no difference is cut off. -/
theorem Mark.Before.lossless {a b : Mark} (h : a.Before b) : a.Lossless b := by
  simp only [Mark.Before, Mark.Lossless] at h ⊢
  omega

/-- Every mark begins before all that follow it. -/
def Ordered (ms : List Mark) : Prop := ms.Pairwise Mark.Before

theorem Ordered.isChain_lossless {ms : List Mark} (h : Ordered ms) : ms.IsChain Mark.Lossless :=
  List.IsChain.imp (fun _ _ hab => hab.lossless) h.isChain

/-! ## §3 Streams -/

/-- One group is read back, whatever follows it. -/
theorem decodeFrom_delta {a b : Mark} (h : a.Before b) (rest : List Nat) :
    decodeFrom a.line a.column (delta (some a) b ++ rest) =
      (decodeFrom b.line b.column rest).map (b :: ·) := by
  obtain ⟨hline, hcolumn⟩ := h.lossless
  simp only [delta]
  split
  · next hsame =>
    simp only [List.cons_append, List.nil_append, decodeFrom, Kind.all_index, Nat.add_zero, if_true,
      hcolumn hsame, hsame]
    cases decodeFrom b.line b.column rest <;> simp
  · next hdown =>
    have hpositive : b.line - a.line ≠ 0 := by
      simp only [Mark.Before] at h
      omega
    simp only [List.cons_append, List.nil_append, decodeFrom, Kind.all_index, hline,
      if_neg hpositive]
    cases decodeFrom b.line b.column rest <;> simp

/-- The stream of marks in order is read back, from any mark on. -/
theorem decodeFrom_encodeFrom (a : Mark) (ms : List Mark) (h : Ordered (a :: ms)) :
    decodeFrom a.line a.column (encodeFrom (some a) ms) = some ms := by
  induction ms generalizing a with
  | nil => rfl
  | cons b ms ih =>
    have hab : a.Before b := List.rel_of_pairwise_cons h List.mem_cons_self
    have hrest : Ordered (b :: ms) := h.of_cons
    rw [encodeFrom, decodeFrom_delta hab, ih b hrest]
    rfl

/-- The first group stands alone: it is read from the beginning of the first line. -/
theorem decodeFrom_delta_none (b : Mark) (rest : List Nat) :
    decodeFrom 0 0 (delta none b ++ rest) = (decodeFrom b.line b.column rest).map (b :: ·) := by
  simp only [delta, List.cons_append, List.nil_append, decodeFrom, Kind.all_index, Nat.zero_add,
    ite_self]
  cases decodeFrom b.line b.column rest <;> simp

/-- Marks in order are read back from their stream. -/
theorem decode_encode {ms : List Mark} (h : Ordered ms) : decode (encode ms) = some ms := by
  cases ms with
  | nil => rfl
  | cons b ms =>
    rw [decode, encode, encodeFrom, decodeFrom_delta_none, decodeFrom_encodeFrom b ms h]
    rfl

/-! ## §4 The marks of a text -/

/-- The words of a line follow each other. -/
theorem pairwise_words {line : List Char} (hne : trim line ≠ []) :
    ((words line).map spanOf).Pairwise fun a b => a.1 < b.1 := by
  have hgaps := (coversWords_words hne).gaps
  rw [← List.isChain_iff_pairwise]
  exact List.IsChain.imp (fun a b hab => by omega) hgaps

theorem ordered_markLine {line : String} (hne : trim line.toList ≠ [])
    (hshort : Utf8.size line.toList ≤ Counter.largest) (number : Nat) :
    Ordered (markLine number line) := by
  have hwords := pairwise_words hne
  rw [← map_span_markLine hne hshort number, List.pairwise_map] at hwords
  refine List.Pairwise.imp_of_mem (fun {a b} ha hb hab => ?_) hwords
  obtain ⟨_, _, rfl⟩ := List.mem_map.mp ha
  obtain ⟨_, _, rfl⟩ := List.mem_map.mp hb
  exact .inr ⟨rfl, hab⟩

/-- The marks of lines stand in order. -/
theorem ordered_mark (r : Line.Reader) {lines : List String} (hfew : lines.length < 2 ^ 32)
    (hshort : ∀ line ∈ lines, Utf8.size line.toList < 2 ^ 32) : Ordered (mark r lines) := by
  have hnumbers : lines.zipIdx.Pairwise fun p q => p.2 < q.2 := by
    rw [← List.pairwise_map (f := Prod.snd) (R := (· < ·)), List.zipIdx_map_snd]
    exact List.pairwise_lt_range'
  refine List.pairwise_flatMap.mpr ⟨?_, ?_⟩
  · rintro ⟨line, number⟩ hmem
    dsimp only
    split
    · next hrecords =>
      have hsize := hshort line (List.fst_mem_of_mem_zipIdx hmem)
      exact ordered_markLine (trim_ne_nil_of_recordsEntry hrecords) (Nat.le_of_lt_succ hsize) _
    · exact List.Pairwise.nil
  · refine List.Pairwise.imp_of_mem (fun {p q} hp hq hpq => ?_) hnumbers
    intro a ha b hb
    have hline := (of_mem_marks_of_line hfew (List.mk_mem_zipIdx_iff_getElem?.mp hp) ha).1
    have hline' := (of_mem_marks_of_line hfew (List.mk_mem_zipIdx_iff_getElem?.mp hq) hb).1
    exact .inl (by rw [hline, hline']; exact hpq)

/-! ## §5 The marks in UTF-16 columns -/

/-- A mark further right on a line has more units before it. -/
theorem utf16Size_lt_of_standsOn {a b : Mark}
    {line before word after before' word' after' : List Char}
    (ha : a.StandsOn line before word after) (hb : b.StandsOn line before' word' after')
    (hab : a.column < b.column) : Utf16.size before < Utf16.size before' := by
  have hprefix : before <+: line := ⟨_, ha.parts.symm⟩
  have hprefix' : before' <+: line := ⟨_, hb.parts.symm⟩
  rw [ha.column, hb.column] at hab
  rcases List.prefix_or_prefix_of_prefix hprefix hprefix' with ⟨between, rfl⟩ | ⟨between, rfl⟩
  · cases between with
    | nil => simp at hab
    | cons c cs =>
      have hpos := Utf16.width_pos c
      simp only [Utf16.size_append, Utf16.size_cons]
      omega
  · simp only [Utf8.size_append] at hab
    omega

/-- They stay in order in UTF-16 columns. -/
theorem ordered_map_toUtf16 (r : Line.Reader) {lines : List String} (hfew : lines.length < 2 ^ 32)
    (hshort : ∀ line ∈ lines, Utf8.size line.toList < 2 ^ 32) :
    Ordered ((mark r lines).map (toUtf16 lines)) := by
  rw [Ordered, List.pairwise_map]
  refine List.Pairwise.imp_of_mem (fun {a b} ha hb hab => ?_) (ordered_mark r hfew hshort)
  obtain ⟨line, hline, before, word, after, hstands⟩ := exists_standsOn_of_mem_mark hfew hshort ha
  obtain ⟨line', hline', before', word', after', hstands'⟩ :=
    exists_standsOn_of_mem_mark hfew hshort hb
  rw [hstands.toUtf16_eq hline (hshort line (List.mem_of_getElem? hline)),
    hstands'.toUtf16_eq hline' (hshort line' (List.mem_of_getElem? hline'))]
  rcases hab with habove | ⟨hsame, hleft⟩
  · exact .inl habove
  · rw [hsame, hline', Option.some.injEq] at hline
    subst hline
    exact .inr ⟨hsame, utf16Size_lt_of_standsOn hstands hstands' hleft⟩

/-! ## §6 The main statement -/

/-- The stream of the marks loses nothing of them. -/
structure Faithful (ms : List Mark) : Prop where
  readBack : decode (encode ms) = some ms
  ordered : Ordered ms
  lossless : ms.IsChain Mark.Lossless

theorem Ordered.faithful {ms : List Mark} (h : Ordered ms) : Faithful ms :=
  ⟨decode_encode h, h, h.isChain_lossless⟩

/-- **An editor reads the stream of marks back**, in bytes and in UTF-16 units: both lists are in
order, so each difference of the stream adds up again, and the stream gives back its list. -/
theorem decode_encode_mark (r : Line.Reader) (lines : List String) (hfew : lines.length < 2 ^ 32)
    (hshort : ∀ line ∈ lines, Utf8.size line.toList < 2 ^ 32) :
    Faithful (mark r lines) ∧ Faithful ((mark r lines).map (toUtf16 lines)) := by
  have hbytes := ordered_mark r hfew hshort
  have hunits := ordered_map_toUtf16 r hfew hshort
  exact ⟨hbytes.faithful, hunits.faithful⟩

/-- Two lines with marks and, between them, one without; the words of the first stand behind
characters of several bytes. -/
theorem decode_encode_mark_acrossLines :
    let lines := ["größe 1h 😀ß x", "other 1.0", "größe 1h"]
    lines.length < 2 ^ 32 ∧ (∀ line ∈ lines, Utf8.size line.toList < 2 ^ 32) ∧
    encode ((mark sampleReader lines).map (toUtf16 lines)) =
      [0, 0, 5, 0, 0, 0, 6, 2, 1, 0, 0, 3, 3, 2, 0, 0, 4, 1, 2, 0, 2, 0, 5, 0, 0, 0, 6, 2, 1, 0] ∧
    Faithful (mark sampleReader lines) ∧
    Faithful ((mark sampleReader lines).map (toUtf16 lines)) := by
  intro lines
  have hfew : lines.length < 2 ^ 32 := by decide
  have hshort : ∀ line ∈ lines, Utf8.size line.toList < 2 ^ 32 := by decide
  exact ⟨hfew, hshort, by decide +kernel, decode_encode_mark sampleReader lines hfew hshort⟩

end Daybook.Highlight
