/-
Daybook.Proofs.Tidying — what the tidying edits make of a text.

An edit of one line moves nothing in front of it and nothing behind it, so the
edits of a text, made from the last to the first, tidy its lines one by one
(§2, §3). Hence the text they leave is the one that `IsTidied` describes
without edits, and there is nothing left to do about it (§4). Main statement:
`tidy_settles`.

§1 says what tidying is meant to do.
-/
import Daybook.Edit
import Daybook.Proofs.Trimming
import Mathlib.Data.List.Forall2

namespace Daybook.Edit

/-! ## §1 Tidied texts -/

/-- What is left of a line without the spaces at its end. -/
structure Strips (line stripped : List Char) : Prop where
  spaces : ∃ n, line = stripped ++ List.replicate n ' '
  settled : stripped.getLast? ≠ some ' '

/-- What tidying makes of a text: all lines stripped, and a newline behind the last one if none is
there. An empty text stays as it is. -/
structure IsTidied (text tidied : String) : Prop where
  empty : text = "" → tidied = ""
  lines : text ≠ "" → ∃ stripped, List.Forall₂ Strips (Text.pieces '\n' text.toList) stripped ∧
    tidied.toList = Text.glue '\n' stripped ++
      if text.toList.getLast? = some '\n' then [] else ['\n']

/-- Nothing to tidy: the text is empty, or its last line is finished and none ends in a space. -/
def IsTidy (text : String) : Prop :=
  text = "" ∨ text.toList.getLast? = some '\n' ∧
    ∀ line ∈ Text.pieces '\n' text.toList, line.getLast? ≠ some ' '

/-- A text whose lines and columns are counted without a cap. -/
structure FitsCounts (text : String) : Prop where
  lines : (Text.pieces '\n' text.toList).length ≤ Counter.largest
  columns : ∀ line ∈ Text.pieces '\n' text.toList, Text.Utf16.size line ≤ Counter.largest

/-- An edit of columns of one of the lines. -/
structure Inside (e : Edit) (lines : List (List Char)) : Prop where
  oneLine : e.range.stop.line = e.range.start.line
  columns : ∃ line, lines[e.range.start.line]? = some line ∧
    e.range.start.character ≤ e.range.stop.character ∧
    e.range.stop.character ≤ Text.Utf16.size line

theorem strips_stripSpaces (line : List Char) : Strips line (stripSpaces line) := by
  obtain ⟨tail, hline, htail⟩ := Text.exists_dropped (· = ' ') line
  have hspaces : tail = List.replicate tail.length ' ' :=
    List.eq_replicate_of_mem fun c hc => by simpa using htail c hc
  refine ⟨⟨tail.length, ?_⟩, Text.getLast?_dropEndWhile (by simp)⟩
  rwa [← hspaces]

theorem measure_stripSpaces_le (width : Char → Nat) (line : List Char) :
    Text.measure width (stripSpaces line) ≤ Text.measure width line := by
  obtain ⟨⟨n, hspaces⟩, _⟩ := strips_stripSpaces line
  have hadd := Text.measure_append width (stripSpaces line) (List.replicate n ' ')
  rw [← hspaces] at hadd
  omega

theorem not_mem_stripSpaces {line : List Char} (h : '\n' ∉ line) : '\n' ∉ stripSpaces line :=
  fun hmem => h ((Text.dropEndWhile_prefix _ line).subset hmem)

/-- A line without spaces at its end is left alone. -/
theorem stripSpaces_eq_self_iff {line : List Char} :
    stripSpaces line = line ↔ line.getLast? ≠ some ' ' := by
  obtain ⟨⟨n, hline⟩, hlast⟩ := strips_stripSpaces line
  constructor
  · intro h
    rwa [h] at hlast
  · intro h
    cases n with
    | zero => simpa using hline.symm
    | succ n =>
      rw [hline] at h
      simp [List.replicate_succ'] at h

theorem length_stripSpaces_lt_iff {line : List Char} :
    (stripSpaces line).length < line.length ↔ stripSpaces line ≠ line := by
  have hkept : stripSpaces line <+: line := Text.dropEndWhile_prefix _ line
  constructor
  · intro hlt heq
    rw [heq] at hlt
    exact Nat.lt_irrefl _ hlt
  · intro hne
    exact Nat.lt_of_le_of_ne hkept.length_le fun h => hne (hkept.eq_of_length h)

/-! ## §2 One edit -/

/-- Lines, each ended by a newline. -/
def ended (lines : List (List Char)) : List Char := lines.flatMap (· ++ ['\n'])

theorem ended_concat (lines : List (List Char)) (line rest : List Char) :
    ended (lines ++ [line]) ++ rest = ended lines ++ (line ++ '\n' :: rest) := by
  simp [ended]

/-- What may follow a line: nothing, or a newline. -/
def EndsLine (rest : List Char) : Prop := ∀ c ∈ rest.head?, c = '\n'

theorem takeWhile_line {line rest : List Char} (hline : '\n' ∉ line) (hrest : EndsLine rest) :
    (line ++ rest).takeWhile (· ≠ '\n') = line :=
  Text.takeWhile_exact (fun _ hc => by simpa using ne_of_mem_of_not_mem hc hline)
    fun c hc => by simpa using hrest c hc

theorem dropWhile_line {line rest : List Char} (hline : '\n' ∉ line) (hrest : EndsLine rest) :
    (line ++ rest).dropWhile (· ≠ '\n') = rest :=
  Text.dropWhile_exact (fun _ hc => by simpa using ne_of_mem_of_not_mem hc hline)
    fun c hc => by simpa using hrest c hc

/-- A place further down is a place of what stands behind the first line. -/
theorem cutText?_succ {line : List Char} (hline : '\n' ∉ line) (n column : Nat)
    (rest : List Char) :
    cutText? (n + 1) column (line ++ '\n' :: rest) =
      (cutText? n column rest).map fun (before, after) => (line ++ '\n' :: before, after) := by
  have hrest : EndsLine ('\n' :: rest) := by simp [EndsLine]
  rw [cutText?, dropWhile_line hline hrest, takeWhile_line hline hrest]

/-- A place behind some lines is a place of what follows them. -/
theorem cutText?_ended {lines : List (List Char)} (hlines : ∀ line ∈ lines, '\n' ∉ line)
    (column : Nat) (rest : List Char) :
    cutText? lines.length column (ended lines ++ rest) =
      (cutText? 0 column rest).map fun (before, after) => (ended lines ++ before, after) := by
  induction lines with
  | nil => simp [ended]
  | cons line lines ih =>
    have hline : '\n' ∉ line := hlines line (by simp)
    have hcut : ended (line :: lines) ++ rest = line ++ '\n' :: (ended lines ++ rest) := by
      simp [ended]
    rw [List.length_cons, hcut, cutText?_succ hline, ih fun l hl => hlines l (by simp [hl]),
      Option.map_map]
    simp [Function.comp_def, ended]

theorem cutText?_line {before after rest : List Char} (hline : '\n' ∉ before ++ after)
    (hrest : EndsLine rest) :
    cutText? 0 (Text.Utf16.size before) (before ++ after ++ rest) =
      some (before, after ++ rest) := by
  rw [cutText?, takeWhile_line hline hrest, dropWhile_line hline hrest, Text.Utf16.size,
    Text.cutAt?_append _ Text.Utf16.width_pos]
  rfl

/-- **An edit of the end of a line** leaves alone what stands before the line and behind it. -/
theorem apply_endOfLine {lines : List (List Char)} (hlines : ∀ line ∈ lines, '\n' ∉ line)
    {kept dropped rest : List Char} (hline : '\n' ∉ kept ++ dropped) (hrest : EndsLine rest)
    (newText : String) :
    apply { range := .onLine lines.length (Text.Utf16.size kept) (Text.Utf16.size (kept ++ dropped))
            newText := newText }
        (ended lines ++ (kept ++ dropped ++ rest)) =
      ended lines ++ (kept ++ newText.toList ++ rest) := by
  have hstop := @cutText?_line (kept ++ dropped) [] rest (by simpa using hline) hrest
  rw [List.append_nil] at hstop
  simp only [apply, Range.onLine, cutText?_ended hlines, cutText?_line hline hrest, hstop]
  simp

/-! ## §3 The edits of lines -/

theorem ofLine?_eq_none_iff {number : Nat} {unfinished : Bool} {line : List Char} :
    ofLine? number unfinished line = none ↔ unfinished = false ∧ line.getLast? ≠ some ' ' := by
  simp only [ofLine?, length_stripSpaces_lt_iff, ite_eq_right_iff, reduceCtorEq, imp_false, not_or,
    ne_eq, not_not, stripSpaces_eq_self_iff, Bool.not_eq_true]
  exact And.comm

/-- The edit of a line strips it, and finishes it if need be. -/
theorem foldr_ofLine? {lines : List (List Char)} (hlines : ∀ line ∈ lines, '\n' ∉ line)
    {line : List Char} (hline : '\n' ∉ line) (rest : List Char) (hrest : EndsLine rest)
    (hcount : lines.length ≤ Counter.largest) (hsize : Text.Utf16.size line ≤ Counter.largest)
    (unfinished : Bool) :
    (ofLine? lines.length unfinished line).toList.foldr apply (ended lines ++ (line ++ rest)) =
      ended lines ++ (stripSpaces line ++ (if unfinished then ['\n'] else []) ++ rest) := by
  cases he : ofLine? lines.length unfinished line with
  | none =>
    obtain ⟨hfinished, hlast⟩ := ofLine?_eq_none_iff.mp he
    simp [stripSpaces_eq_self_iff.mpr hlast, hfinished]
  | some e =>
    obtain ⟨⟨n, hspaces⟩, _⟩ := strips_stripSpaces line
    have hstripped : Text.Utf16.size (stripSpaces line) ≤ Counter.largest :=
      (measure_stripSpaces_le _ line).trans hsize
    have happly := apply_endOfLine hlines (hspaces ▸ hline) hrest (if unfinished then "\n" else "")
    rw [← hspaces] at happly
    simp only [ofLine?, Option.ite_none_right_eq_some, Option.some.injEq] at he
    obtain ⟨_, rfl⟩ := he
    simp only [Highlight.utf16Length, Counter.cap_of_le hstripped, Counter.cap_of_le hsize,
      Counter.cap_of_le hcount, Option.toList_some, List.foldr_cons, List.foldr_nil, happly]
    cases unfinished <;> rfl

/-- The lines of a tidied text: an empty one stands behind a last line that was not empty. -/
def tidiedLines (lines : List (List Char)) : List (List Char) :=
  lines.map stripSpaces ++ if lines.getLast? = some [] then [] else [[]]

theorem tidiedLines_cons_cons (line next : List Char) (lines : List (List Char)) :
    tidiedLines (line :: next :: lines) = stripSpaces line :: tidiedLines (next :: lines) := by
  simp [tidiedLines, List.getLast?_cons_cons]

theorem tidiedLines_ne_nil {lines : List (List Char)} (hne : lines ≠ []) :
    tidiedLines lines ≠ [] := by
  simp [tidiedLines, hne]

/-- The edits of the lines behind `before`, made from the last to the first. -/
theorem foldr_ofLines {before lines : List (List Char)} (hbefore : ∀ line ∈ before, '\n' ∉ line)
    (hlines : ∀ line ∈ lines, '\n' ∉ line) (hne : lines ≠ [])
    (hcount : before.length + lines.length ≤ Counter.largest)
    (hsize : ∀ line ∈ lines, Text.Utf16.size line ≤ Counter.largest) :
    (ofLines before.length lines).foldr apply (ended before ++ Text.glue '\n' lines) =
      ended before ++ Text.glue '\n' (tidiedLines lines) := by
  induction lines generalizing before with
  | nil => exact absurd rfl hne
  | cons line lines ih =>
    have hline : '\n' ∉ line := hlines line (by simp)
    have hlength : before.length ≤ Counter.largest := Nat.le_trans (Nat.le_add_right ..) hcount
    cases lines with
    | nil =>
      have hedit := foldr_ofLine? hbefore hline [] (by simp [EndsLine]) hlength
        (hsize line (by simp)) (!line.isEmpty)
      rw [List.append_nil] at hedit
      rw [ofLines, Text.glue, hedit]
      cases line <;> simp [tidiedLines, Text.glue]
    | cons next lines =>
      -- the lines further down are done first, and this one is then in front of them
      have hdone : ∀ l ∈ before ++ [line], '\n' ∉ l := by
        intro l hl
        rcases List.mem_append.mp hl with hl | hl
        · exact hbefore l hl
        · rwa [List.mem_singleton.mp hl]
      have hrest := ih hdone (fun l hl => hlines l (by simp [hl])) (by simp)
        (by simp only [List.length_append, List.length_cons, List.length_nil] at hcount ⊢; omega)
        fun l hl => hsize l (by simp [hl])
      rw [List.length_append, ended_concat, ended_concat] at hrest
      have hedit := foldr_ofLine? hbefore hline
        ('\n' :: Text.glue '\n' (tidiedLines (next :: lines))) (by simp [EndsLine]) hlength
        (hsize line (by simp)) false
      rw [ofLines, List.foldr_append, Text.glue_cons _ _ (by simp), tidiedLines_cons_cons,
        Text.glue_cons _ _ (tidiedLines_ne_nil (by simp))]
      · simp only [List.length_cons, List.length_nil] at hrest
        rw [hrest, hedit]
        simp
      · simp

theorem range_of_mem_ofLine? {number : Nat} {unfinished : Bool} {line : List Char} {e : Edit}
    (h : e ∈ (ofLine? number unfinished line).toList) :
    e.range = .onLine (Counter.cap number) (Highlight.utf16Length (stripSpaces line))
      (Highlight.utf16Length line) := by
  simp only [ofLine?, Option.mem_toList, Option.ite_none_right_eq_some, Option.some.injEq] at h
  obtain ⟨_, rfl⟩ := h
  rfl

/-- Every edit is made of columns of its line, the lines counted from `number`. -/
theorem range_of_mem_ofLines {number : Nat} {lines : List (List Char)} {e : Edit}
    (h : e ∈ ofLines number lines) :
    ∃ i line, lines[i]? = some line ∧ e.range = .onLine (Counter.cap (number + i))
      (Highlight.utf16Length (stripSpaces line)) (Highlight.utf16Length line) := by
  induction lines generalizing number with
  | nil => simp [ofLines] at h
  | cons line lines ih =>
    cases lines with
    | nil => exact ⟨0, line, rfl, range_of_mem_ofLine? h⟩
    | cons next lines =>
      rw [ofLines, List.mem_append] at h
      · rcases h with h | h
        · exact ⟨0, line, rfl, range_of_mem_ofLine? h⟩
        · obtain ⟨i, l, hl, hrange⟩ := ih h
          exact ⟨i + 1, l, hl, by rw [hrange, Nat.add_right_comm, Nat.add_assoc]⟩
      · simp

/-- Edits stand in the order of their lines, at most one a line. -/
theorem pairwise_ofLines {number : Nat} {lines : List (List Char)}
    (hcount : number + lines.length ≤ Counter.largest) :
    (ofLines number lines).Pairwise (·.range.start.line < ·.range.start.line) := by
  have hone : ∀ {n : Nat} {unfinished : Bool} {line : List Char},
      (ofLine? n unfinished line).toList.Pairwise (·.range.start.line < ·.range.start.line) := by
    intro n unfinished line
    cases ofLine? n unfinished line <;> simp
  induction lines generalizing number with
  | nil => simp [ofLines]
  | cons line lines ih =>
    cases lines with
    | nil => exact hone
    | cons next lines =>
      rw [ofLines]
      · simp only [List.length_cons] at hcount
        refine List.pairwise_append.mpr ⟨hone, ih (by simp only [List.length_cons]; omega), ?_⟩
        intro a ha b hb
        obtain ⟨i, l, hl, hb⟩ := range_of_mem_ofLines hb
        have hi := (List.getElem?_eq_some_iff.mp hl).1
        simp only [List.length_cons] at hi
        rw [range_of_mem_ofLine? ha, hb]
        show Counter.cap number < Counter.cap (number + 1 + i)
        rw [Counter.cap_of_le (by omega), Counter.cap_of_le (by omega)]
        omega
      · simp

/-- There is nothing to edit just if no line ends in a space and the last one is
empty. -/
theorem ofLines_eq_nil_iff {number : Nat} {lines : List (List Char)} (hne : lines ≠ []) :
    ofLines number lines = [] ↔
      lines.getLast? = some [] ∧ ∀ line ∈ lines, line.getLast? ≠ some ' ' := by
  induction lines generalizing number with
  | nil => exact absurd rfl hne
  | cons line lines ih =>
    cases lines with
    | nil => simp [ofLines, ofLine?_eq_none_iff]
    | cons next lines =>
      rw [ofLines, List.append_eq_nil_iff, Option.toList_eq_nil_iff, ofLine?_eq_none_iff,
        ih (by simp), List.getLast?_cons_cons, List.forall_mem_cons (a := line)]
      · tauto
      · simp

/-! ## §4 The tidied text -/

/-- The edits make the tidied lines of the text. -/
theorem toList_applyAll_tidy {text : String} (h : FitsCounts text) :
    (applyAll (tidy text) text).toList =
      Text.glue '\n' (tidiedLines (Text.pieces '\n' text.toList)) := by
  have hedits := @foldr_ofLines [] (Text.pieces '\n' text.toList) (by simp)
    (fun line hline => Text.not_mem_of_mem_pieces hline) (Text.pieces_ne_nil _ _)
    (by simpa using h.lines) h.columns
  rw [Text.glue_pieces] at hedits
  rw [applyAll, String.toList_ofList, tidy]
  split
  · next hempty =>
    rw [String.isEmpty_iff.mp hempty]
    rfl
  · exact hedits

theorem not_mem_of_mem_tidiedLines {lines : List (List Char)} (hlines : ∀ l ∈ lines, '\n' ∉ l)
    {line : List Char} (h : line ∈ tidiedLines lines) : '\n' ∉ line := by
  rcases List.mem_append.mp h with h | h
  · obtain ⟨l, hl, rfl⟩ := List.mem_map.mp h
    exact not_mem_stripSpaces (hlines l hl)
  · split at h
    · simp at h
    · simp [List.mem_singleton.mp h]

/-- The lines of the text that the edits leave. -/
theorem pieces_applyAll_tidy {text : String} (h : FitsCounts text) :
    Text.pieces '\n' (applyAll (tidy text) text).toList =
      tidiedLines (Text.pieces '\n' text.toList) := by
  rw [toList_applyAll_tidy h]
  exact Text.pieces_glue (tidiedLines_ne_nil (Text.pieces_ne_nil _ _)) fun line hline =>
    not_mem_of_mem_tidiedLines (fun l hl => Text.not_mem_of_mem_pieces hl) hline

/-- There is nothing to edit just in a tidy text. -/
theorem tidy_eq_nil_iff (text : String) : tidy text = [] ↔ IsTidy text := by
  rw [tidy, IsTidy, ← String.isEmpty_iff]
  by_cases hempty : text.isEmpty = true
  · simp [hempty]
  · have hne : text.toList ≠ [] := by simpa using hempty
    rw [if_neg hempty, ofLines_eq_nil_iff (Text.pieces_ne_nil _ _), Text.getLast?_pieces,
      or_iff_right hempty, or_iff_right hne]

theorem getLast?_tidiedLines (lines : List (List Char)) :
    (tidiedLines lines).getLast? = some [] := by
  unfold tidiedLines
  split
  · next h => simp [List.getLast?_map, h, stripSpaces]
  · simp

/-- Tidying makes a text tidy. -/
theorem isTidy_applyAll_tidy {text : String} (h : FitsCounts text) :
    IsTidy (applyAll (tidy text) text) := by
  have hlast := getLast?_tidiedLines (Text.pieces '\n' text.toList)
  rw [← pieces_applyAll_tidy h, Text.getLast?_pieces] at hlast
  refine hlast.imp (fun hempty => by simpa using hempty) fun hfinished => ⟨hfinished, ?_⟩
  intro line hline
  rw [pieces_applyAll_tidy h, tidiedLines, List.mem_append, List.mem_map] at hline
  rcases hline with ⟨l, _, rfl⟩ | hline
  · exact (strips_stripSpaces l).settled
  · split at hline
    · simp at hline
    · simp [List.mem_singleton.mp hline]

/-- Tidying takes spaces at the ends of lines away, ends the last line, and does
nothing else. -/
theorem isTidied_applyAll_tidy {text : String} (h : FitsCounts text) :
    IsTidied text (applyAll (tidy text) text) where
  empty := by
    rintro rfl
    rfl
  lines := by
    intro htext
    have hne : text.toList ≠ [] := by simpa using htext
    refine ⟨(Text.pieces '\n' text.toList).map stripSpaces, ?_, ?_⟩
    · exact List.forall₂_map_right_iff.mpr (List.forall₂_same.mpr fun l _ => strips_stripSpaces l)
    · have hmap : (Text.pieces '\n' text.toList).map stripSpaces ≠ [] := by
        simp [Text.pieces_ne_nil]
      have hlast : (Text.pieces '\n' text.toList).getLast? = some [] ↔
          text.toList.getLast? = some '\n' := Text.getLast?_pieces.trans (or_iff_right hne)
      rw [toList_applyAll_tidy h, tidiedLines]
      by_cases hend : text.toList.getLast? = some '\n'
      · rw [if_pos (hlast.mpr hend), if_pos hend, List.append_nil, List.append_nil]
      · rw [if_neg (mt hlast.mp hend), if_neg hend, Text.glue_concat_nil '\n' hmap]

/-! ## §5 Tidying settles -/

/-- Every edit lies inside the text. -/
theorem inside_of_mem_tidy {text : String} (h : FitsCounts text) {e : Edit} (he : e ∈ tidy text) :
    e.Inside (Text.pieces '\n' text.toList) := by
  have he : e ∈ ofLines 0 (Text.pieces '\n' text.toList) := by
    rw [tidy] at he
    split at he
    · simp at he
    · exact he
  obtain ⟨i, line, hline, hrange⟩ := range_of_mem_ofLines he
  have hi := (List.getElem?_eq_some_iff.mp hline).1
  have hcount := h.lines
  have hcap : Counter.cap (0 + i) = i := by rw [Nat.zero_add, Counter.cap_of_le (by omega)]
  rw [hcap] at hrange
  refine ⟨by rw [hrange]; rfl, line, by rw [hrange]; exact hline, ?_, ?_⟩
  · rw [hrange]
    exact Counter.cap_le_cap (measure_stripSpaces_le _ line)
  · rw [hrange]
    exact Nat.min_le_left ..

/-- **Tidying does what it says, and settles.** The edits stand in the order of their lines, at
most one for each, and inside their lines; made from the last to the first they leave the text
stripped and finished, and there is nothing left to tidy about it. A text has no edits exactly when
it is tidy. -/
theorem tidy_settles (text : String) (h : FitsCounts text) :
    (tidy text).Pairwise (·.range.start.line < ·.range.start.line) ∧
    (∀ e ∈ tidy text, e.Inside (Text.pieces '\n' text.toList)) ∧
    IsTidied text (applyAll (tidy text) text) ∧
    tidy (applyAll (tidy text) text) = [] ∧
    (tidy text = [] ↔ IsTidy text) := by
  refine ⟨?_, fun e he => inside_of_mem_tidy h he, isTidied_applyAll_tidy h,
    (tidy_eq_nil_iff _).mpr (isTidy_applyAll_tidy h), tidy_eq_nil_iff text⟩
  rw [tidy]
  split
  · exact List.Pairwise.nil
  · exact pairwise_ofLines (by simpa using h.lines)

/-- A column behind a character of two units, a line of spaces only, and a last line that is one. -/
theorem tidy_settles_of_lastSpaces :
    let text := "dev 1 😀  \n   \n  "
    FitsCounts text ∧
    tidy text =
      [⟨.onLine 0 8 10, ""⟩, ⟨.onLine 1 0 3, ""⟩, ⟨.onLine 2 0 2, "\n"⟩] ∧
    IsTidied text "dev 1 😀\n\n\n" ∧ tidy "dev 1 😀\n\n\n" = [] := by
  intro text
  have h : FitsCounts text := ⟨by decide, by decide⟩
  have htidied : applyAll (tidy text) text = "dev 1 😀\n\n\n" := by decide
  obtain ⟨_, _, hleft, hsettled, _⟩ := tidy_settles text h
  rw [htidied] at hleft hsettled
  exact ⟨h, by decide, hleft, hsettled⟩

end Daybook.Edit
