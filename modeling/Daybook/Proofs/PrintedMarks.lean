/-
Daybook.Proofs.PrintedMarks — the marks that are printed, and those that an editor receives.

Both come from one scan, which counts bytes. What is printed is the scan as it
is, while the columns of an editor are counted anew in UTF-16 units. A stretch
of text has as many units as bytes just when all its characters are ASCII (§1),
and the last mark of a line ends where the line does, but for white space, so
the two lists of marks are the same just when nothing else stands in the lines
that have marks (§2). As streams give back their marks, this is also when the
two streams are the same. Main statement (§3): `printed_eq_answered_iff`.
-/
import Daybook.Commands
import Daybook.Editor.Session
import Daybook.Proofs.MarkStream
import Daybook.Proofs.SaveLaws

namespace Daybook

open Text

/-! ## §1 Bytes and units -/

namespace Text

/-- Nothing but ASCII characters. -/
def IsAscii (cs : List Char) : Prop := ∀ c ∈ cs, c.toNat < 0x80

instance (cs : List Char) : Decidable (IsAscii cs) := List.decidableBAll _ cs

theorem IsAscii.mono {as bs : List Char} (h : as <+: bs) (hascii : IsAscii bs) : IsAscii as :=
  fun c hc => hascii c (h.subset hc)

/-- Just the ASCII characters take as many UTF-16 units as bytes. -/
theorem utf16Width_eq_width_iff {c : Char} : Utf16.width c = Utf8.width c ↔ c.toNat < 0x80 := by
  unfold Utf16.width Utf8.width
  constructor
  · intro h
    by_contra hlarge
    rw [if_neg hlarge] at h
    split at h
    · split at h
      · cases h
      · cases h
    · rw [if_neg (by omega)] at h
      cases h
  · intro hascii
    rw [if_pos (by omega), if_pos hascii]

/-- A text has as many units as bytes when all its characters are ASCII, and fewer otherwise. -/
theorem utf16Size_eq_size_iff {cs : List Char} : Utf16.size cs = Utf8.size cs ↔ IsAscii cs := by
  induction cs with
  | nil => simp [IsAscii]
  | cons c cs ih =>
    have hwidth := Highlight.utf16Width_le_width c
    have hsize := Highlight.utf16Size_le_size cs
    rw [IsAscii, List.forall_mem_cons, ← IsAscii, ← ih, ← utf16Width_eq_width_iff, Utf16.size_cons,
      Utf8.size_cons]
    omega

/-- Of two beginnings of a text the one with fewer bytes is the shorter one. -/
theorem prefix_of_size_le {as bs cs : List Char} (ha : as <+: cs) (hb : bs <+: cs)
    (h : Utf8.size as ≤ Utf8.size bs) : as <+: bs := by
  rcases List.prefix_or_prefix_of_prefix ha hb with hprefix | ⟨between, rfl⟩
  · exact hprefix
  · cases between with
    | nil => simp
    | cons c between =>
      have := Utf8.width_pos c
      simp only [Utf8.size_append, Utf8.size_cons] at h
      omega

end Text

/-! ## §2 Marks that stay as they are -/

namespace Highlight

/-- A mark stays as it is when all characters up to the end of its word are ASCII. -/
theorem Mark.StandsOn.toUtf16_eq_self_iff {m : Mark} {lines : List String} {line : String}
    {before word after : List Char} (h : m.StandsOn line.toList before word after)
    (hline : lines[m.line]? = some line) (hshort : Utf8.size line.toList < 2 ^ 32) :
    toUtf16 lines m = m ↔ IsAscii (before ++ word) := by
  have hsame : toUtf16 lines m = m ↔
      Utf16.size before = Utf8.size before ∧ Utf16.size word = Utf8.size word := by
    rw [h.toUtf16_eq hline hshort, ← h.column, ← h.length]
    obtain ⟨number, column, length, kind⟩ := m
    simp only [Mark.mk.injEq, true_and, and_true]
  rw [hsame, utf16Size_eq_size_iff, utf16Size_eq_size_iff]
  simp only [IsAscii, List.forall_mem_append]

/-- The words of a line stand in a row that ends where the white space at its end begins. -/
theorem row_words_trimEnd {line : List Char} (hne : trim line ≠ []) :
    ∃ lead, trimEnd line = lead ++ trim line ∧ Row (Utf8.size lead) (trim line) (words line) := by
  obtain ⟨lead, trail, hline, -, htrail, -, hrow⟩ := row_words hne
  refine ⟨lead, ?_, hrow⟩
  have hlast : ∀ c ∈ (lead ++ trim line).getLast?, isBlank c = false := by
    intro c hc
    rw [List.getLast?_append_of_ne_nil _ hne] at hc
    by_contra hblank
    exact getLast?_dropEndWhile (Bool.not_eq_false _ ▸ hblank) hc
  have hsplit : line = (lead ++ trim line) ++ trail := by rwa [List.append_assoc]
  conv => lhs; rw [hsplit]
  exact dropEndWhile_exact hlast htrail

/-- All the marks of a line stay as they are when it is ASCII up to the white space at its end. -/
theorem forall_toUtf16_markLine_iff {lines : List String} {line : String} {number : Nat}
    (hline : lines[number]? = some line) (hne : trim line.toList ≠ [])
    (hshort : Utf8.size line.toList < 2 ^ 32) :
    (∀ m ∈ markLine number line, toUtf16 lines m = m) ↔ IsAscii (trimEnd line.toList) := by
  have hsize := Nat.le_of_lt_succ hshort
  obtain ⟨lead, hend, hrow⟩ := row_words_trimEnd hne
  have htrimmed : trimEnd line.toList <+: line.toList := dropEndWhile_prefix isBlank line.toList
  have hspans := map_span_markLine hne hsize number
  -- the stretch up to the end of a mark, and the number of its bytes
  have hstretch : ∀ m ∈ markLine number line, ∃ before word after,
      m.StandsOn line.toList before word after ∧ before ++ word <+: line.toList ∧
      Utf8.size (before ++ word) = m.column + m.length ∧ lines[m.line]? = some line := by
    intro m hm
    obtain ⟨before, word, after, hstands⟩ := exists_standsOn_of_mem_markLine hne hsize hm
    refine ⟨before, word, after, hstands, ⟨after, ?_⟩, ?_, ?_⟩
    · rw [hstands.parts, List.append_assoc]
    · rw [hstands.column, hstands.length, Utf8.size_append]
    · obtain ⟨_, _, rfl⟩ := List.mem_map.mp hm
      exact hline
  constructor
  · intro hsame
    obtain ⟨word, rest, hwords⟩ := hrow.exists_head
    -- the last word ends where the line does
    obtain ⟨w, hw⟩ : ∃ w, (words line.toList).getLast? = some w :=
      ⟨_, List.getLast?_eq_some_getLast (hwords ▸ List.cons_ne_nil _ _)⟩
    have hstop := hrow.stop_eq w hw
    have hspan : spanOf w ∈ (markLine number line).map Mark.span :=
      hspans ▸ List.mem_map_of_mem (List.mem_of_getLast? hw)
    obtain ⟨m, hm, hmw⟩ := List.mem_map.mp hspan
    obtain ⟨before, word, after, hstands, hprefix, hbytes, hnumber⟩ := hstretch m hm
    have hascii := (hstands.toUtf16_eq_self_iff hnumber hshort).mp (hsame m hm)
    obtain ⟨hcolumn, hlength⟩ := Prod.mk.inj hmw
    refine IsAscii.mono (prefix_of_size_le htrimmed hprefix ?_) hascii
    rw [hbytes, hcolumn, hlength, hend, Utf8.size_append]
    omega
  · intro hascii m hm
    obtain ⟨before, word, after, hstands, hprefix, hbytes, hnumber⟩ := hstretch m hm
    have hspan : m.span ∈ (words line.toList).map spanOf := hspans ▸ List.mem_map_of_mem hm
    obtain ⟨w, hw, hmw⟩ := List.mem_map.mp hspan
    obtain ⟨hcolumn, hlength⟩ := Prod.mk.inj hmw
    have hstop := hrow.stop_le w hw
    refine (hstands.toUtf16_eq_self_iff hnumber hshort).mpr
      (IsAscii.mono (prefix_of_size_le hprefix htrimmed ?_) hascii)
    rw [hbytes, ← hcolumn, ← hlength, hend, Utf8.size_append]
    omega

/-- The lines that record entries are ASCII, up to the white space at their ends. -/
def PlainEntries (r : Line.Reader) (lines : List String) : Prop :=
  ∀ line ∈ lines, recordsEntry r line = true → IsAscii (trimEnd line.toList)

instance (r : Line.Reader) (lines : List String) : Decidable (PlainEntries r lines) :=
  List.decidableBAll _ lines

/-- Columns in bytes and in UTF-16 units agree just where the lines that record
entries are plain. -/
theorem map_toUtf16_eq_self_iff {r : Line.Reader} {lines : List String}
    (hfew : lines.length < 2 ^ 32) (hshort : ∀ line ∈ lines, Utf8.size line.toList < 2 ^ 32) :
    (mark r lines).map (toUtf16 lines) = mark r lines ↔ PlainEntries r lines := by
  have hsame : (mark r lines).map (toUtf16 lines) = mark r lines ↔
      ∀ m ∈ mark r lines, toUtf16 lines m = m := by
    conv => lhs; rhs; rw [← List.map_id (mark r lines)]
    exact List.map_inj_left
  rw [hsame]
  constructor
  · intro h line hmem hrecords
    obtain ⟨number, hline⟩ := List.mem_iff_getElem?.mp hmem
    have hnumber : number < lines.length := (List.getElem?_eq_some_iff.mp hline).1
    refine (forall_toUtf16_markLine_iff hline (trim_ne_nil_of_recordsEntry hrecords)
      (hshort line hmem)).mp fun m hm => h m ?_
    refine List.mem_flatMap.mpr ⟨(line, number), List.mk_mem_zipIdx_iff_getElem?.mpr hline, ?_⟩
    dsimp only
    rwa [if_pos hrecords, Counter.cap_of_le (Nat.le_of_lt_succ (Nat.lt_trans hnumber hfew))]
  · intro h m hm
    obtain ⟨⟨line, number⟩, hmem, hm⟩ := List.mem_flatMap.mp hm
    have hline : lines[number]? = some line := List.mk_mem_zipIdx_iff_getElem?.mp hmem
    obtain ⟨-, hrecords, hm⟩ := of_mem_marks_of_line hfew hline hm
    have hmem := List.mem_of_getElem? hline
    exact (forall_toUtf16_markLine_iff hline (trim_ne_nil_of_recordsEntry hrecords)
      (hshort line hmem)).mpr (h line hmem hrecords) m hm

/-- Among ASCII lines every mark stays as it is, however long they are. -/
theorem toUtf16_eq_self_of_ascii {lines : List String} (h : ∀ line ∈ lines, IsAscii line.toList)
    {m : Mark} (hcolumn : m.column ≤ Counter.largest) (hlength : m.length ≤ Counter.largest) :
    toUtf16 lines m = m := by
  have hline : IsAscii ((lines[m.line]?).getD "").toList := by
    cases hget : lines[m.line]? with
    | none => simp [IsAscii]
    | some line => exact h line (List.mem_of_getElem? hget)
  have hkept : ∀ {start length part}, length ≤ Counter.largest →
      Utf8.slice? ((lines[m.line]?).getD "").toList start length = some part →
      utf16Length part = length := by
    intro start length part hle hslice
    obtain ⟨before, after, hparts, -, hsize⟩ := Utf8.eq_append_of_slice? hslice
    have hpart : IsAscii part := fun c hc => hline c (by simp [hparts, hc])
    rw [utf16Length, utf16Size_eq_size_iff.mpr hpart, hsize, Counter.cap_of_le hle]
  simp only [toUtf16]
  split
  · next before word hbefore hword => rw [hkept hcolumn hbefore, hkept hlength hword]
  · rfl

theorem map_toUtf16_eq_self_of_ascii (r : Line.Reader) {lines : List String}
    (h : ∀ line ∈ lines, IsAscii line.toList) : (mark r lines).map (toUtf16 lines) = mark r lines := by
  refine (List.map_congr_left fun m hm => ?_).trans (List.map_id _)
  obtain ⟨⟨line, number⟩, -, hm⟩ := List.mem_flatMap.mp hm
  dsimp only at hm
  split at hm
  · obtain ⟨_, _, rfl⟩ := List.mem_map.mp hm
    exact toUtf16_eq_self_of_ascii h (Counter.cap_le _) (Counter.cap_le _)
  · cases hm

/-- Marks in order are told apart by their streams. -/
theorem encode_inj {as bs : List Mark} (ha : Ordered as) (hb : Ordered bs) :
    encode as = encode bs ↔ as = bs := by
  refine ⟨fun h => ?_, congrArg encode⟩
  have hread := decode_encode ha
  rw [h, decode_encode hb] at hread
  exact (Option.some.inj hread).symm

end Highlight

/-! ## §3 The two streams -/

def Commands.printed (c : Classifier) (text : String) (d : Day) : List Nat :=
  Highlight.encode (Highlight.mark { classifier := c, day := d } (linesOf text))

theorem Commands.tokens_encoded (c : Classifier) (text : String) (d : Day) :
    tokens c text d true = (Json.ofNats (printed c text d)).render ++ "\n" := by
  simp [tokens, Report.unlines, String.join, printed]

namespace Editor.Session

/-- The stream that is answered for an open document. -/
theorem markStream_eq {s : Session} {uri text : String} {d : Day} (hday : s.dayOf? uri = some d)
    (htext : s.documents.get? uri = some text) :
    s.markStream uri = Highlight.encode ((Highlight.mark (s.journal.reader d) (linesOf text)).map
      (Highlight.toUtf16 (linesOf text))) := by
  simp only [markStream, hday, Documents.lines, htext]

/-- What the server replies to a request for the marks of a document. -/
theorem handle_semanticTokens {s : Session} (hopen : s.closing = false) {id params : Json}
    {uri : String} (hparams : Params.document? params = some uri) :
    s.handle { id := some id, method := "textDocument/semanticTokens/full", params } =
      (s, [.reply id (.result (.object [("data", .ofNats (s.markStream uri))]))], .goOn) := by
  simp [handle, request, hopen, answer, hparams, withParams]

/-- **What is printed is what an editor receives exactly for ASCII entries.** The command prints the
stream of the marks in bytes, while a session that has the same text open as a document of the same
day answers the stream in UTF-16 units. For a text that is all ASCII the two are the same. For any
text of less than 2³² lines of less than 2³² bytes each, they are the same exactly when the lines
that record entries are ASCII, up to the white space at their ends. -/
theorem printed_eq_answered_iff {c : Classifier} {text : String} {d : Day} {s : Session}
    {uri : String} (id : Json) {params : Json} (hopen : s.closing = false)
    (hparams : Params.document? params = some uri) (hday : s.dayOf? uri = some d)
    (htext : s.documents.get? uri = some text) (hrules : s.journal.classifier = c) :
    let printed := Commands.printed c text d
    let answered := s.markStream uri
    Commands.tokens c text d true = (Json.ofNats printed).render ++ "\n" ∧
    s.handle { id := some id, method := "textDocument/semanticTokens/full", params } =
      (s, [.reply id (.result (.object [("data", .ofNats answered)]))], .goOn) ∧
    (IsAscii text.toList → printed = answered) ∧
    ((linesOf text).length < 2 ^ 32 → (∀ line ∈ linesOf text, Utf8.size line.toList < 2 ^ 32) →
      (printed = answered ↔
        Highlight.PlainEntries { classifier := c, day := d } (linesOf text))) := by
  subst hrules
  refine ⟨Commands.tokens_encoded _ text d, handle_semanticTokens hopen hparams, ?ascii, ?exact⟩
  case ascii =>
    intro hascii
    have hlines : ∀ line ∈ linesOf text, IsAscii line.toList := by
      intro line hline c hc
      obtain ⟨piece, hpiece, rfl⟩ := List.mem_map.mp hline
      rw [String.toList_ofList] at hc
      exact hascii c (subset_of_mem_pieces hpiece hc)
    rw [markStream_eq hday htext, Highlight.map_toUtf16_eq_self_of_ascii _ hlines]
    rfl
  case exact =>
    intro hfew hshort
    rw [markStream_eq hday htext, Commands.printed, ← Highlight.map_toUtf16_eq_self_iff hfew hshort,
      Highlight.encode_inj (Highlight.ordered_mark _ hfew hshort)
        (Highlight.ordered_map_toUtf16 _ hfew hshort), eq_comm]
    rfl

def withOpen (text : String) : Session := sample.setText sampleUri text

theorem dayOf?_withOpen (text : String) : (withOpen text).dayOf? sampleUri = some sampleDay := by
  rfl

theorem get?_documents_withOpen (text : String) :
    (withOpen text).documents.get? sampleUri = some text := by rfl

/-- Characters beyond ASCII behind an entry and on a line that records none. -/
theorem printed_eq_answered_apartFromEntries :
    let text := "dev 1 x\u00a0\nnie ść"
    let s := withOpen text
    let c := s.journal.classifier
    let params := Json.object [("textDocument", .object [("uri", .str sampleUri)])]
    s.closing = false ∧ Params.document? params = some sampleUri ∧
    s.dayOf? sampleUri = some sampleDay ∧ s.documents.get? sampleUri = some text ∧
    ¬ IsAscii text.toList ∧
    Commands.printed c text sampleDay = s.markStream sampleUri := by
  intro text s c params
  have hday := dayOf?_withOpen text
  have htext := get?_documents_withOpen text
  have hparams : Params.document? params = some sampleUri := by rfl
  have hplain : Highlight.PlainEntries ⟨c, sampleDay⟩ (linesOf text) := by decide +kernel
  obtain ⟨-, -, -, hsame⟩ := printed_eq_answered_iff (.int 1) rfl hparams hday htext rfl
  exact ⟨rfl, hparams, hday, htext, by decide, (hsame (by decide) (by decide)).mpr hplain⟩

/-- A word of three bytes and two units: the columns from there on are not those of the editor. -/
theorem printed_ne_answered_beyondAscii :
    let text := "dev 1 ąb x"
    let s := withOpen text
    let c := s.journal.classifier
    s.closing = false ∧ s.dayOf? sampleUri = some sampleDay ∧
    s.documents.get? sampleUri = some text ∧
    Commands.printed c text sampleDay =
      [0, 0, 3, 0, 0, 0, 4, 1, 1, 0, 0, 2, 3, 2, 0, 0, 4, 1, 2, 0] ∧
    s.markStream sampleUri = [0, 0, 3, 0, 0, 0, 4, 1, 1, 0, 0, 2, 2, 2, 0, 0, 3, 1, 2, 0] ∧
    Commands.printed c text sampleDay ≠ s.markStream sampleUri := by
  intro text s c
  have hprinted : Commands.printed c text sampleDay =
      [0, 0, 3, 0, 0, 0, 4, 1, 1, 0, 0, 2, 3, 2, 0, 0, 4, 1, 2, 0] := by decide +kernel
  have hanswered : s.markStream sampleUri =
      [0, 0, 3, 0, 0, 0, 4, 1, 1, 0, 0, 2, 2, 2, 0, 0, 3, 1, 2, 0] := by
    rw [markStream_eq (dayOf?_withOpen text) (get?_documents_withOpen text)]
    decide +kernel
  refine ⟨rfl, dayOf?_withOpen text, get?_documents_withOpen text, hprinted, hanswered, ?_⟩
  rw [hprinted, hanswered]
  decide

end Editor.Session

end Daybook
