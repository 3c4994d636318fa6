/-
Daybook.Proofs.MarkedWords — the marks of a text are the columns its reader sees.

Marks come from a scan of their own: the line is trimmed, cut at every space,
and offsets are summed up. The reader never takes part in that, and still the
two agree on every line: the first mark covers the category, the second the
duration, and nothing but spaces stands between marks. Main statement:
`marks_agree`, for texts whose lines and columns a 32-bit count can hold.

§1 what the marks of a line have to be, §2 the scan unfolded column by column,
§3 rows of words and the stretches they cover, §4 the marks of one line, §5
the marks of one line among those of the text, §6 the main statement.
-/
import Daybook.Analysis
import Daybook.Highlight
import Daybook.Proofs.LineGrammar
import Mathlib.Algebra.Group.Nat.Defs
import Mathlib.Data.List.Chain

namespace Daybook.Highlight

open Line.Grammar (column behind)

/-! ## §1 What the marks of a line have to be -/

/-- Where a mark begins and how long it is, in bytes. -/
def Mark.span (m : Mark) : Nat × Nat := (m.column, m.length)

/-- The part of a line that a span covers; `none` unless both ends fall
between characters. -/
def covered? (line : List Char) (span : Nat × Nat) : Option (List Char) :=
  Text.Utf8.slice? line span.1 span.2

/-- What stands between the end of one span and the beginning of the next. -/
def gap? (line : List Char) (a b : Nat × Nat) : Option (List Char) :=
  Text.Utf8.slice? line (a.1 + a.2) (b.1 - (a.1 + a.2))

/-- The spans cover all words of a line between its outer white space. -/
structure CoversWords (line : List Char) (spans : List (Nat × Nat)) : Prop where
  /-- Every span covers a word, without a space in it. -/
  words : ∀ s ∈ spans, ∃ word, covered? line s = some word ∧ word ≠ [] ∧ ' ' ∉ word
  /-- Each span ends before the next begins, and only spaces lie between. -/
  gaps : spans.IsChain fun a b =>
    a.1 + a.2 < b.1 ∧ ∃ n, gap? line a b = some (List.replicate (n + 1) ' ')
  /-- Before the first span there is white space only. -/
  front : ∀ s ∈ spans.head?, ∃ blanks,
    gap? line (0, 0) s = some blanks ∧ ∀ c ∈ blanks, Text.isBlank c = true
  /-- Behind the last span there is white space only. -/
  back : ∀ s ∈ spans.getLast?, ∃ blanks,
    gap? line s (Text.Utf8.size line, 0) = some blanks ∧ ∀ c ∈ blanks, Text.isBlank c = true

/-- The marks `ms` show the entry `e` on its line: the category, the duration
and every word behind them. -/
structure Shows (line : List Char) (e : Entry) (ms : List Mark) : Prop where
  kinds : ∃ n, ms.map Mark.kind = .category :: .duration :: List.replicate n .word
  category : ∀ m ∈ ms[0]?, covered? line m.span = some e.category.toList
  duration : ∀ m ∈ ms[1]?, ∃ word, covered? line m.span = some word ∧
    WorkTime.ofTokens? (Token.tokenize (String.ofList word)) = some ⟨e.hours, e.minutes⟩
  covers : CoversWords line (ms.map Mark.span)

/-- The line is read as the entry, and the entry is valid. -/
def Records (r : Line.Reader) (line : String) (e : Entry) : Prop :=
  r.read line = .ok (.entry e) ∧ e.violation? = none

/-- A line is read as a valid entry just if it records it. -/
theorem readValid_eq_ok_entry {r : Line.Reader} {line : String} {e : Entry} :
    r.readValid line = .ok (.entry e) ↔ Records r line e := by
  rw [Line.Reader.readValid_eq_ok, Item.violation?, Records]

/-- Whether a line is marked is decided as recording decides it. -/
theorem recordsEntry_iff {r : Line.Reader} {line : String} :
    recordsEntry r line = true ↔ ∃ e, Records r line e := by
  simp only [← readValid_eq_ok_entry, recordsEntry]
  split
  · next e h => simp [h]
  · next h =>
    simp only [Bool.false_eq_true, false_iff, not_exists]
    exact fun e he => h e he

theorem lineOutcome_eq_ok_entry {r : Line.Reader} {line : String} {number : Nat} {e : Entry} :
    lineOutcome r line number = .ok (.entry e) ↔ Records r line e := by
  rw [← readValid_eq_ok_entry, lineOutcome]
  cases r.readValid line <;> simp [Except.mapError]

/-! ## §2 The scan, column by column -/

theorem placeWords_spaces (offset n : Nat) (cs : List Char) :
    placeWords offset (Text.pieces ' ' (List.replicate n ' ' ++ cs)) =
      placeWords (offset + n) (Text.pieces ' ' cs) := by
  induction n generalizing offset with
  | zero => rfl
  | succ n ih =>
    rw [List.replicate_succ, List.cons_append, Text.pieces_sep_cons, placeWords]
    simp [ih, Nat.add_assoc, Nat.add_comm 1 n]

/-- The scan takes the first column, skips the spaces, and goes on behind them. -/
theorem placeWords_column {cs : List Char} (hne : cs ≠ []) (hcs : cs.head? ≠ some ' ')
    (offset : Nat) :
    ∃ n, cs = column cs ++ (List.replicate n ' ' ++ behind cs) ∧
      (n = 0 → behind cs = []) ∧
      placeWords offset (Text.pieces ' ' cs) =
        (offset, column cs) ::
          placeWords (offset + Text.Utf8.size (column cs) + n)
            (Text.pieces ' ' (behind cs)) := by
  have hcolumn : (column cs).isEmpty = false := by
    simpa using Line.Grammar.column_ne_nil hne hcs
  have hfree := Line.Grammar.space_not_mem_column cs
  by_cases hspace : ' ' ∈ cs
  · obtain ⟨n, hn⟩ := Line.Grammar.exists_columns hspace
    refine ⟨n + 1, hn, by simp, ?_⟩
    conv => lhs; rw [hn, Text.pieces_append hfree]
    simp [placeWords, hcolumn, placeWords_spaces, Nat.add_assoc, Nat.add_comm 1 n]
  · have hbehind := Line.Grammar.behind_eq_nil hspace
    have hself := Line.Grammar.column_eq_self hspace
    refine ⟨0, by simp [hbehind, hself], fun _ => hbehind, ?_⟩
    conv => lhs; rw [Text.pieces_of_not_mem hspace]
    rw [hself] at hcolumn
    simp [placeWords, hcolumn, hbehind, hself, Text.pieces]

/-! ## §3 Rows of words -/

/-- `Row offset cs ws`: the text `cs` begins at `offset` and is the words
`ws`, each at its offset, with spaces between them. -/
inductive Row : Nat → List Char → List (Nat × List Char) → Prop
  | last {offset : Nat} {word : List Char} : word ≠ [] → ' ' ∉ word →
      Row offset word [(offset, word)]
  | next {offset : Nat} {word rest : List Char} {ws : List (Nat × List Char)} (n : Nat) :
      word ≠ [] → ' ' ∉ word → Row (offset + Text.Utf8.size word + (n + 1)) rest ws →
      Row offset (word ++ (List.replicate (n + 1) ' ' ++ rest)) ((offset, word) :: ws)

/-- The scan of a text with no space at its ends finds a row of words. -/
theorem row_placeWords (offset : Nat) (cs : List Char) (hne : cs ≠ [])
    (hfirst : cs.head? ≠ some ' ') (hlast : cs.getLast? ≠ some ' ') :
    Row offset cs (placeWords offset (Text.pieces ' ' cs)) := by
  -- the text behind the first column is shorter, and has no space at its ends either
  induction hlen : cs.length using Nat.strongRecOn generalizing offset cs with
  | _ length ih =>
    obtain ⟨n, hcut, hbehind, hwords⟩ := placeWords_column hne hfirst offset
    have hword := Line.Grammar.column_ne_nil hne hfirst
    have hfree := Line.Grammar.space_not_mem_column cs
    rw [hwords]
    cases n with
    | zero =>
      rw [hbehind rfl, List.replicate_zero, List.append_nil, List.append_nil] at hcut
      rw [hbehind rfl, ← hcut]
      rw [← hcut] at hword hfree
      exact Row.last hword hfree
    | succ n =>
      have hrest : behind cs ≠ [] := by
        intro hnil
        rw [hcut, hnil] at hlast
        simp [List.getLast?_replicate] at hlast
      have hshort : (behind cs).length < length := by
        rw [← hlen]
        conv => rhs; rw [hcut]
        simp
        omega
      have hend : (behind cs).getLast? ≠ some ' ' := by
        intro h
        rw [hcut] at hlast
        simp [List.getLast?_append, h] at hlast
      have hrow := ih _ hshort (offset + Text.Utf8.size (column cs) + (n + 1)) _ hrest
        (Line.Grammar.head?_behind cs) hend rfl
      have := Row.next n hword hfree hrow
      rwa [← hcut] at this

def spanOf (w : Nat × List Char) : Nat × Nat := (w.1, Text.Utf8.size w.2)

theorem size_spaces (n : Nat) : Text.Utf8.size (List.replicate n ' ') = n := by
  induction n with
  | zero => rfl
  | succ n ih =>
    have hwidth : Text.Utf8.width ' ' = 1 := by decide
    simp [List.replicate_succ, ih, hwidth, Nat.add_comm 1 n]

namespace Row

variable {offset : Nat} {cs : List Char} {ws : List (Nat × List Char)}

theorem exists_head (h : Row offset cs ws) : ∃ word rest, ws = (offset, word) :: rest := by
  cases h with
  | last _ _ => exact ⟨_, [], rfl⟩
  | next n _ _ _ => exact ⟨_, _, rfl⟩

/-- The last word of a row ends where the row ends. -/
theorem stop_eq (h : Row offset cs ws) :
    ∀ w ∈ ws.getLast?, w.1 + Text.Utf8.size w.2 = offset + Text.Utf8.size cs := by
  induction h with
  | last _ _ =>
    intro w hw
    cases hw
    rfl
  | @next offset word rest ws n _ _ hrow ih =>
    intro w hw
    obtain ⟨second, more, rfl⟩ := hrow.exists_head
    rw [List.getLast?_cons_cons] at hw
    rw [ih w hw]
    simp only [Text.Utf8.size_append, size_spaces]
    omega

/-- Every word of a row lies inside it. -/
theorem stop_le (h : Row offset cs ws) :
    ∀ w ∈ ws, w.1 + Text.Utf8.size w.2 ≤ offset + Text.Utf8.size cs := by
  induction h with
  | last _ _ =>
    intro w hw
    rw [List.mem_singleton.mp hw]
  | next n _ _ _ ih =>
    intro w hw
    simp only [Text.Utf8.size_append, size_spaces]
    rcases List.mem_cons.mp hw with rfl | hw
    · dsimp only
      omega
    · have := ih w hw
      omega

/-- Wherever a row stands in a line, its spans cover its words. -/
theorem covered (h : Row offset cs ws) (before after : List Char)
    (hbefore : Text.Utf8.size before = offset) :
    ∀ w ∈ ws, covered? (before ++ (cs ++ after)) (spanOf w) = some w.2 ∧ w.2 ≠ [] ∧ ' ' ∉ w.2 := by
  induction h generalizing before with
  | last hne hfree =>
    intro w hw
    rw [List.mem_singleton.mp hw]
    subst hbefore
    exact ⟨Text.Utf8.slice?_append .., hne, hfree⟩
  | @next offset word rest ws n hne hfree _ ih =>
    intro w hw
    subst hbefore
    rcases List.mem_cons.mp hw with rfl | hw
    · rw [List.append_assoc]
      exact ⟨Text.Utf8.slice?_append .., hne, hfree⟩
    · have := ih (before ++ (word ++ List.replicate (n + 1) ' '))
        (by simp only [Text.Utf8.size_append, size_spaces]; omega) w hw
      simpa only [List.append_assoc] using this

/-- Wherever a row stands in a line, nothing but spaces lies between its spans. -/
theorem gaps (h : Row offset cs ws) (before after : List Char)
    (hbefore : Text.Utf8.size before = offset) :
    ws.IsChain fun a b => (spanOf a).1 + (spanOf a).2 < (spanOf b).1 ∧
      ∃ n, gap? (before ++ (cs ++ after)) (spanOf a) (spanOf b) =
        some (List.replicate (n + 1) ' ') := by
  induction h generalizing before with
  | last _ _ => exact List.isChain_singleton _
  | @next offset word rest ws n _ _ hrow ih =>
    subst hbefore
    have hrest := ih (before ++ (word ++ List.replicate (n + 1) ' '))
      (by simp only [Text.Utf8.size_append, size_spaces]; omega)
    simp only [List.append_assoc] at hrest ⊢
    obtain ⟨second, more, rfl⟩ := hrow.exists_head
    refine List.isChain_cons_cons.mpr ⟨⟨?_, n, ?_⟩, hrest⟩
    · simp only [spanOf]
      omega
    · have := Text.Utf8.slice?_append (before ++ word) (List.replicate (n + 1) ' ') (rest ++ after)
      simpa [gap?, spanOf, size_spaces, Nat.add_sub_cancel_left] using this

end Row

/-! ## §4 The marks of one line -/

/-- The words of a line are a row between its outer white space. -/
theorem row_words {line : List Char} (hne : Text.trim line ≠ []) :
    ∃ lead trail, line = lead ++ (Text.trim line ++ trail) ∧
      (∀ c ∈ lead, Text.isBlank c = true) ∧ (∀ c ∈ trail, Text.isBlank c = true) ∧
      words line = placeWords (Text.Utf8.size lead) (Text.pieces ' ' (Text.trim line)) ∧
      Row (Text.Utf8.size lead) (Text.trim line) (words line) := by
  obtain ⟨lead, hlead, hblank⟩ := Text.exists_leading line
  obtain ⟨trail, htrail, hblank'⟩ := Text.exists_trailing (Text.trimStart line)
  have hoffset : Text.Utf8.size line - Text.Utf8.size (Text.trimStart line) =
      Text.Utf8.size lead := by
    conv => lhs; arg 1; rw [hlead, Text.Utf8.size_append]
    omega
  have hwords : words line =
      placeWords (Text.Utf8.size lead) (Text.pieces ' ' (Text.trim line)) := by
    rw [words, hoffset]
  refine ⟨lead, trail, ?_, hblank, hblank', hwords, ?_⟩
  · rw [Text.trim, ← htrail]
    exact hlead
  · rw [hwords]
    exact row_placeWords _ _ hne (Text.head?_trim line) (Text.getLast?_trim line)

/-- The span of a word of a line covers that word. -/
theorem covered_words {line : List Char} (hne : Text.trim line ≠ []) :
    ∀ w ∈ words line, covered? line (spanOf w) = some w.2 ∧ w.2 ≠ [] ∧ ' ' ∉ w.2 := by
  obtain ⟨lead, trail, hline, _, _, _, hrow⟩ := row_words hne
  intro w hw
  rw [hline]
  exact hrow.covered lead trail rfl w hw

/-- The words of a line end inside it. -/
theorem stop_le_size {line : List Char} (hne : Text.trim line ≠ []) :
    ∀ w ∈ words line, w.1 + Text.Utf8.size w.2 ≤ Text.Utf8.size line := by
  obtain ⟨lead, trail, hline, _, _, _, hrow⟩ := row_words hne
  intro w hw
  have := hrow.stop_le w hw
  rw [hline]
  simp only [Text.Utf8.size_append]
  omega

/-- The words of a line cover it, up to blanks. -/
theorem coversWords_words {line : List Char} (hne : Text.trim line ≠ []) :
    CoversWords line ((words line).map spanOf) := by
  have hcovered := covered_words hne
  obtain ⟨lead, trail, hline, hlead, htrail, _, hrow⟩ := row_words hne
  generalize words line = ws at hcovered hrow
  generalize Text.trim line = text at hline hrow
  subst hline
  constructor
  · intro s hs
    obtain ⟨w, hw, rfl⟩ := List.mem_map.mp hs
    exact ⟨w.2, hcovered w hw⟩
  · rw [List.isChain_map]
    exact hrow.gaps lead trail rfl
  · intro s hs
    obtain ⟨word, rest, rfl⟩ := hrow.exists_head
    cases hs
    refine ⟨lead, ?_, hlead⟩
    simpa [gap?, spanOf] using Text.Utf8.slice?_append [] lead (text ++ trail)
  · intro s hs
    rw [List.getLast?_map] at hs
    obtain ⟨w, hw, rfl⟩ := Option.map_eq_some_iff.mp hs
    refine ⟨trail, ?_, htrail⟩
    have hslice := Text.Utf8.slice?_append (lead ++ text) trail []
    have hlength : Text.Utf8.size (lead ++ (text ++ trail)) -
        Text.Utf8.size (lead ++ text) = Text.Utf8.size trail := by
      simp only [Text.Utf8.size_append]
      omega
    rw [gap?, spanOf, hrow.stop_eq w hw, ← Text.Utf8.size_append, hlength]
    simpa using hslice

/-- The spans of the marks are those of the words, as long as a count can hold them. -/
theorem map_span_markLine {line : String} (hne : Text.trim line.toList ≠ [])
    (hshort : Text.Utf8.size line.toList ≤ Counter.largest) (number : Nat) :
    (markLine number line).map Mark.span = (words line.toList).map spanOf := by
  have hwords : words line.toList = (words line.toList).zipIdx.map Prod.fst := by
    rw [List.zipIdx_map_fst]
  conv => rhs; rw [hwords]
  rw [markLine, List.map_map, List.map_map]
  refine List.map_congr_left fun ⟨w, place⟩ hw => ?_
  have hstop := stop_le_size hne w (List.fst_mem_of_mem_zipIdx hw)
  simp only [Function.comp, Mark.span, spanOf]
  rw [Counter.cap_of_le (by omega), Counter.cap_of_le (by omega)]

/-- The first mark is a category, the second a duration, all others are words. -/
theorem map_kind_markLine {line : String} {n : Nat} (h : (words line.toList).length = n + 2)
    (number : Nat) :
    (markLine number line).map Mark.kind = .category :: .duration :: List.replicate n .word := by
  have hplaces : (markLine number line).map Mark.kind =
      ((words line.toList).zipIdx.map Prod.snd).map Kind.ofPlace := by
    rw [markLine, List.map_map, List.map_map]
    rfl
  rw [hplaces, List.zipIdx_map_snd, h, List.range'_succ, List.range'_succ]
  have hrest : (List.range' (0 + 1 + 1) n).map Kind.ofPlace = List.replicate n .word := by
    refine List.eq_replicate_iff.mpr ⟨by simp, fun k hk => ?_⟩
    obtain ⟨place, hplace, rfl⟩ := List.mem_map.mp hk
    obtain ⟨j, _, rfl⟩ := List.mem_range'.mp hplace
    rw [show 0 + 1 + 1 + 1 * j = j + 2 from by omega]
    rfl
  rw [List.map_cons, List.map_cons, hrest]
  rfl

/-- A line with a space inside begins with two words: its first column, and the first column
of what stands behind that. -/
theorem words_eq_columns {line : List Char} (hspace : ' ' ∈ Text.trim line) :
    ∃ a b rest, words line = (a, column (Text.trim line)) ::
      (b, column (behind (Text.trim line))) :: rest := by
  have hne : Text.trim line ≠ [] := List.ne_nil_of_mem hspace
  obtain ⟨lead, _, _, _, _, hwords, _⟩ := row_words hne
  have hlast := Text.getLast?_trim line
  have hfirst := Text.head?_trim line
  generalize Text.trim line = text at *
  have hbehind : behind text ≠ [] := by
    intro hnil
    obtain ⟨n, hn⟩ := Line.Grammar.exists_columns hspace
    rw [hn, hnil, List.append_nil, ← List.replicate_succ] at hlast
    simp [List.getLast?_append, List.getLast?_replicate] at hlast
  obtain ⟨n, _, _, hone⟩ := placeWords_column hne hfirst (Text.Utf8.size lead)
  obtain ⟨m, _, _, htwo⟩ := placeWords_column hbehind (Line.Grammar.head?_behind text)
    (Text.Utf8.size lead + Text.Utf8.size (column text) + n)
  exact ⟨_, _, _, hwords.trans (hone.trans (congrArg _ htwo))⟩

/-- The marks of a line that is read as an entry show that entry. -/
theorem shows_markLine {r : Line.Reader} {line : String} {e : Entry}
    (hread : r.read line = .ok (.entry e))
    (hshort : Text.Utf8.size line.toList ≤ Counter.largest) (number : Nat) :
    Shows line.toList e (markLine number line) := by
  obtain ⟨hspace, _, time, htime, rfl⟩ :=
    Line.Grammar.entry_eq_ok (Line.grammar_entry_of_read hread)
  have hne : Text.trim line.toList ≠ [] := List.ne_nil_of_mem hspace
  have hspans := map_span_markLine hne hshort number
  have hcovered := covered_words hne
  obtain ⟨a, b, rest, hwords⟩ := words_eq_columns hspace
  rw [hwords] at hspans hcovered
  -- the mark at a place of the line has the span of the word there
  have hspan : ∀ (i : Nat) (m : Mark), (markLine number line)[i]? = some m →
      ((markLine number line).map Mark.span)[i]? = some m.span := by
    intro i m hm
    rw [List.getElem?_map, hm, Option.map_some]
  constructor
  · exact ⟨rest.length, map_kind_markLine (by simp [hwords]) number⟩
  · intro m hm
    have hm := hspan 0 m hm
    rw [hspans, List.map_cons, List.getElem?_cons_zero, Option.some.injEq] at hm
    rw [← hm, (hcovered _ (by simp)).1]
    simp
  · intro m hm
    have hm := hspan 1 m hm
    rw [hspans, List.map_cons, List.map_cons, List.getElem?_cons_succ, List.getElem?_cons_zero,
      Option.some.injEq] at hm
    refine ⟨_, hm ▸ (hcovered (b, _) (by simp)).1, ?_⟩
    rw [Line.Grammar.entryOf_hours, Line.Grammar.entryOf_minutes]
    simpa [Token.tokenize] using htime
  · rw [hspans, ← hwords]
    exact coversWords_words hne

/-! ## §5 The marks of one line among those of the text -/

/-- The marks on one line. -/
def onLine (i : Nat) (ms : List Mark) : List Mark := ms.filter fun m => m.line = i

theorem onLine_eq_self {i : Nat} {ms : List Mark} (h : ∀ m ∈ ms, m.line = i) :
    onLine i ms = ms := by
  rw [onLine, List.filter_eq_self]
  intro m hm
  simpa using h m hm

theorem onLine_eq_nil {i : Nat} {ms : List Mark} (h : ∀ m ∈ ms, m.line ≠ i) :
    onLine i ms = [] := by
  rw [onLine, List.filter_eq_nil_iff]
  intro m hm
  simpa using h m hm

section

variable {f : String × Nat → List Mark}

/-- Marks that are made line by line, and carry the number of their line, stay apart by lines. -/
theorem onLine_flatMap (hf : ∀ p, p.2 ≤ Counter.largest → ∀ m ∈ f p, m.line = p.2)
    (lines : List String) (start i : Nat) (hfew : start + lines.length ≤ Counter.largest + 1) :
    onLine (start + i) ((lines.zipIdx start).flatMap f) =
      ((lines[i]?).map fun line => f (line, start + i)).getD [] := by
  induction lines generalizing start i with
  | nil => rfl
  | cons line lines ih =>
    rw [List.length_cons] at hfew
    have hfirst : ∀ m ∈ f (line, start), m.line = start :=
      hf (line, start) (by dsimp only; omega)
    have hrest : ∀ m ∈ (lines.zipIdx (start + 1)).flatMap f, start < m.line := by
      intro m hm
      obtain ⟨⟨l, n⟩, hmem, hm⟩ := List.mem_flatMap.mp hm
      obtain ⟨hlow, hhigh, _⟩ := List.mem_zipIdx hmem
      rw [hf (l, n) (by dsimp only; omega) m hm]
      dsimp only
      omega
    rw [List.zipIdx_cons, List.flatMap_cons, onLine, List.filter_append]
    cases i with
    | zero =>
      have hone := onLine_eq_self hfirst
      have hnone := onLine_eq_nil fun m hm => (Nat.ne_of_lt (hrest m hm)).symm
      rw [onLine] at hone hnone
      rw [Nat.add_zero, hone, hnone, List.append_nil]
      rfl
    | succ i =>
      have hnone : onLine (start + (i + 1)) (f (line, start)) = [] :=
        onLine_eq_nil fun m hm => by
          rw [hfirst m hm]
          omega
      have hrec := ih (start + 1) i (by omega)
      rw [onLine] at hnone hrec
      rw [hnone, List.nil_append, List.getElem?_cons_succ]
      rw [show start + (i + 1) = start + 1 + i from by omega]
      exact hrec

end

/-- The marks on a line of the text are those of that line alone. -/
theorem onLine_mark (r : Line.Reader) {lines : List String}
    (hfew : lines.length ≤ Counter.largest + 1) (i : Nat) :
    onLine i (mark r lines) =
      ((lines[i]?).map fun line => if recordsEntry r line then markLine i line else []).getD [] := by
  have hline : ∀ p : String × Nat, p.2 ≤ Counter.largest →
      ∀ m ∈ (if recordsEntry r p.1 then markLine (Counter.cap p.2) p.1 else []), m.line = p.2 := by
    rintro ⟨line, number⟩ hnumber m hm
    dsimp only at hnumber hm ⊢
    rw [Counter.cap_of_le hnumber] at hm
    split at hm
    · obtain ⟨_, _, rfl⟩ := List.mem_map.mp hm
      rfl
    · cases hm
  have := onLine_flatMap hline lines 0 i (by omega)
  rw [Nat.zero_add] at this
  rw [mark, this]
  cases hi : lines[i]? with
  | none => simp only [Option.map_none, Option.getD_none]
  | some line =>
    have hbound : i ≤ Counter.largest := by
      have := (List.getElem?_eq_some_iff.mp hi).1
      omega
    simp only [Option.map_some, Counter.cap_of_le hbound]

/-! ## §6 Marking agrees with reading -/

/-- **Marking agrees with reading.** A line of the text has marks exactly when it is read as a
valid entry, which is when its analysis yields that entry; and then its marks show the entry: its
category, its duration and every word behind them, with nothing left out but white space. -/
theorem marks_agree (r : Line.Reader) (lines : List String) (hfew : lines.length < 2 ^ 32)
    (hshort : ∀ line ∈ lines, Text.Utf8.size line.toList < 2 ^ 32) (i : Nat) :
    (onLine i (mark r lines) ≠ [] ↔ ∃ line e, lines[i]? = some line ∧ Records r line e) ∧
    ∀ line e, lines[i]? = some line →
      (lineOutcome r line i = .ok (.entry e) ↔ Records r line e) ∧
      (Records r line e → Shows line.toList e (onLine i (mark r lines))) := by
  have hmarks := onLine_mark r (i := i) (show lines.length ≤ Counter.largest + 1 from
    Nat.le_of_lt hfew)
  have hshows : ∀ line e, lines[i]? = some line → Records r line e →
      Shows line.toList e (onLine i (mark r lines)) := by
    intro line e hline hrecords
    have hsize := hshort line (List.mem_of_getElem? hline)
    rw [hmarks, hline, Option.map_some, Option.getD_some,
      if_pos (recordsEntry_iff.mpr ⟨e, hrecords⟩)]
    exact shows_markLine hrecords.1 (Nat.le_of_lt_succ hsize) i
  refine ⟨⟨fun hne => ?_, ?_⟩, fun line e hline =>
    ⟨lineOutcome_eq_ok_entry, hshows line e hline⟩⟩
  · cases hline : lines[i]? with
    | none =>
      rw [hmarks, hline] at hne
      exact absurd rfl hne
    | some line =>
      by_cases hrecords : recordsEntry r line = true
      · obtain ⟨e, he⟩ := recordsEntry_iff.mp hrecords
        exact ⟨line, e, rfl, he⟩
      · rw [hmarks, hline, Option.map_some, Option.getD_some, if_neg hrecords] at hne
        exact absurd rfl hne
  · rintro ⟨line, e, hline, hrecords⟩ hnil
    obtain ⟨n, hkinds⟩ := (hshows line e hline hrecords).kinds
    rw [hnil] at hkinds
    cases hkinds

def sampleReader : Line.Reader :=
  ⟨{ regular := ["größe"] : Rules }.classifier, ⟨2022, 2, 2, by decide⟩⟩

/-- White space of several kinds around words, repeated spaces, characters of several bytes. -/
def sampleLine : String := "\u00a0größe  1h30m   Task-7. Maß\tvoll \u2003"

/-- The entry of `sampleLine`. -/
def sampleEntry : Entry where
  category := "größe"
  hours := 1
  minutes := 30
  task := some "Task-7"
  comment := ". Maß\tvoll"

theorem records_sampleLine : Records sampleReader sampleLine sampleEntry := ⟨rfl, rfl⟩

/-- The line among two without marks: one in no category, one of no time at all. -/
theorem marks_agree_of_sampleLine :
    let lines := ["other 1.0", sampleLine, "größe 0.0 x"]
    lines.length < 2 ^ 32 ∧ (∀ line ∈ lines, Text.Utf8.size line.toList < 2 ^ 32) ∧
    onLine 0 (mark sampleReader lines) = [] ∧ onLine 2 (mark sampleReader lines) = [] ∧
    Shows sampleLine.toList sampleEntry (onLine 1 (mark sampleReader lines)) := by
  intro lines
  have hfew : lines.length < 2 ^ 32 := by decide
  have hshort : ∀ line ∈ lines, Text.Utf8.size line.toList < 2 ^ 32 := by decide
  have hline : lines[1]? = some sampleLine := rfl
  refine ⟨hfew, hshort, by decide +kernel, by decide +kernel, ?_⟩
  exact ((marks_agree sampleReader lines hfew hshort 1).2 sampleLine sampleEntry hline).2
    records_sampleLine

end Daybook.Highlight
