/-
Daybook.Proofs.LineAccounts — every line of a text is accounted for once.

A line that counts yields an item or a problem, never both and never neither,
and what it yields depends on that line alone (§2). Items and problems stand
in the order of their lines. All items of a text are of one kind, which the
day decides (§3), and each has been checked against the bounds that the sheet
of the day asks about; so recording a text reports what analysing it reports,
and no item is dropped on the way to the store (§4). Main statement:
`record_accountsFor`.

§1 says which lines count and what an account of them is.
-/
import Daybook.Proofs.JournalRuns
import Daybook.Proofs.TidiedMeaning

namespace Daybook

/-! ## §1 Accounts -/

/-- Whether a line with this number counts: an empty last one does not. -/
def Counts (lines : List String) (n : Nat) : Prop :=
  ∃ line, lines[n]? = some line ∧ ¬ (n + 1 = lines.length ∧ line = "")

/-- An analysis accounts for lines; `origins` are the numbers of those that its items come from. -/
structure AccountsFor (r : Line.Reader) (lines : List String) (origins : List Nat)
    (a : Analysis) : Prop where
  /-- The items stand in the order of their lines, and no line has two of them. -/
  ascending : origins.Pairwise (· < ·)
  /-- Each item is what its line is read as, the line alone. -/
  items : List.Forall₂ (fun n item => ∃ line, lines[n]? = some line ∧ r.readValid line = .ok item)
    origins a.items
  problemsAscending : a.problems.Pairwise (·.line < ·.line)
  /-- Each problem is what its line is read as, the line alone, and has its length in bytes. -/
  problems : ∀ p ∈ a.problems, ∃ line, lines[p.line]? = some line ∧
    r.readValid line = .error p.problem ∧ p.length = (Text.Utf8.encode line.toList).length
  /-- The lines with an item or a problem are those that count. -/
  counted : ∀ n, Counts lines n ↔ n ∈ origins ∨ ∃ p ∈ a.problems, p.line = n
  /-- No line has both. -/
  apart : ∀ n ∈ origins, ∀ p ∈ a.problems, p.line ≠ n

/-! ## §2 What the lines yield -/

/-- The lines that an analysis reads are those that count, under their own numbers. -/
theorem getElem?_countedLines {text : String} {n : Nat} {line : String} :
    (countedLines text)[n]? = some line ↔
      (Text.linesOf text)[n]? = some line ∧ ¬ (n + 1 = (Text.linesOf text).length ∧ line = "") := by
  unfold countedLines
  generalize Text.linesOf text = lines
  dsimp only
  rw [List.getLast?_eq_getElem?]
  split
  · next hempty =>
    rw [List.getElem?_dropLast]
    constructor
    · intro h
      split at h
      · exact ⟨h, fun hend => by omega⟩
      · cases h
    · rintro ⟨hline, hcounts⟩
      have hlt : n < lines.length := (List.getElem?_eq_some_iff.mp hline).1
      have hne : n + 1 ≠ lines.length := by
        intro hend
        rw [← hend, Nat.add_sub_cancel, hline] at hempty
        exact hcounts ⟨hend, Option.some.inj hempty⟩
      rw [if_pos (by omega), hline]
  · next hfull =>
    refine ⟨fun hline => ⟨hline, ?_⟩, And.left⟩
    rintro ⟨hend, rfl⟩
    rw [← hend, Nat.add_sub_cancel] at hfull
    exact hfull hline

theorem counts_iff {text : String} {n : Nat} :
    Counts (Text.linesOf text) n ↔ ∃ line, (countedLines text)[n]? = some line :=
  exists_congr fun _ => getElem?_countedLines.symm

/-- The lines that count, each with its number. -/
def numberedLines (text : String) : List (String × Nat) := (countedLines text).zipIdx

theorem mem_numberedLines {text : String} {line : String} {n : Nat} :
    (line, n) ∈ numberedLines text ↔ (countedLines text)[n]? = some line :=
  List.mem_zipIdx_iff_getElem?

/-- What is taken from the elements of a list with their numbers keeps the order of the numbers. -/
theorem pairwise_filterMap_zipIdx {α β : Type} (xs : List α) {f : α × Nat → Option β}
    {number : β → Nat} (h : ∀ l b, f l = some b → number b = l.2) :
    (xs.zipIdx.filterMap f).Pairwise (number · < number ·) := by
  have hnumbers : (xs.zipIdx.map Prod.snd).Pairwise (· < ·) := by
    rw [List.zipIdx_map_snd]
    exact List.pairwise_lt_range' 1
  rw [List.pairwise_filterMap]
  refine (List.pairwise_map.mp hnumbers).imp fun {l m} hlm a ha b hb => ?_
  rwa [h l a ha, h m b hb]

/-- The item of a numbered line, if it has one. -/
def itemOf? (r : Line.Reader) (l : String × Nat) : Option Item := (r.readValid l.1).toOption

/-- The problem of a numbered line, if it has one. -/
def problemOf? (r : Line.Reader) (l : String × Nat) : Option LineProblem :=
  problem? (lineOutcome r l.1 l.2)

theorem itemOf?_eq_some_iff {r : Line.Reader} {l : String × Nat} {item : Item} :
    itemOf? r l = some item ↔ r.readValid l.1 = .ok item := by
  unfold itemOf?
  cases r.readValid l.1 <;> simp [Except.toOption]

theorem problemOf?_eq_some_iff {r : Line.Reader} {l : String × Nat} {p : LineProblem} :
    problemOf? r l = some p ↔
      l.2 = p.line ∧ Text.Utf8.size l.1.toList = p.length ∧ r.readValid l.1 = .error p.problem := by
  obtain ⟨number, length, problem⟩ := p
  unfold problemOf? lineOutcome
  cases r.readValid l.1 <;> simp [Except.mapError, problem?]

/-- The items of a text are those of its lines. -/
theorem items_eq_filterMap (r : Line.Reader) (text : String) :
    (analyze r text).items = (numberedLines text).filterMap (itemOf? r) := by
  rw [items_analyze, lineOutcomes, List.filterMap_map, numberedLines]
  refine List.filterMap_congr fun l _ => ?_
  obtain ⟨line, n⟩ := l
  simp only [Function.comp_apply, lineOutcome, itemOf?]
  cases r.readValid line <;> rfl

/-- The problems of a text are those of its lines. -/
theorem problems_eq_filterMap (r : Line.Reader) (text : String) :
    (analyze r text).problems = (numberedLines text).filterMap (problemOf? r) := by
  rw [problems_analyze, lineOutcomes, List.filterMap_map]
  rfl

/-- A text has exactly the problems of its lines that count. -/
theorem mem_problems_analyze {r : Line.Reader} {text : String} {p : LineProblem} :
    p ∈ (analyze r text).problems ↔ ∃ line, (countedLines text)[p.line]? = some line ∧
      r.readValid line = .error p.problem ∧ p.length = Text.Utf8.size line.toList := by
  simp only [problems_eq_filterMap, List.mem_filterMap, problemOf?_eq_some_iff, Prod.exists]
  constructor
  · rintro ⟨line, n, hmem, rfl, hlength, hread⟩
    exact ⟨line, mem_numberedLines.mp hmem, hread, hlength.symm⟩
  · rintro ⟨line, hline, hread, hlength⟩
    exact ⟨line, p.line, mem_numberedLines.mpr hline, rfl, hlength.symm, hread⟩

/-- Problems stand in the order of their lines, one a line. -/
theorem pairwise_problems_analyze (r : Line.Reader) (text : String) :
    (analyze r text).problems.Pairwise (·.line < ·.line) := by
  rw [problems_eq_filterMap]
  exact pairwise_filterMap_zipIdx _ fun l p hp => (problemOf?_eq_some_iff.mp hp).1.symm

def origins (r : Line.Reader) (text : String) : List Nat :=
  (numberedLines text).filterMap fun l => (itemOf? r l).map fun _ => l.2

theorem mem_origins {r : Line.Reader} {text : String} {n : Nat} :
    n ∈ origins r text ↔
      ∃ line item, (countedLines text)[n]? = some line ∧ r.readValid line = .ok item := by
  simp only [origins, List.mem_filterMap, Option.map_eq_some_iff, itemOf?_eq_some_iff, Prod.exists]
  constructor
  · rintro ⟨line, m, hmem, item, hread, rfl⟩
    exact ⟨line, item, mem_numberedLines.mp hmem, hread⟩
  · rintro ⟨line, item, hline, hread⟩
    exact ⟨line, n, mem_numberedLines.mpr hline, item, hread, rfl⟩

/-- Items come from different lines, in their order. -/
theorem pairwise_origins (r : Line.Reader) (text : String) :
    (origins r text).Pairwise (· < ·) := by
  refine @pairwise_filterMap_zipIdx _ _ (countedLines text) _ id fun l n hn => ?_
  obtain ⟨_, _, rfl⟩ := Option.map_eq_some_iff.mp hn
  rfl

/-- Items and origins are taken from the same lines, in step. -/
theorem forall₂_origins_items (r : Line.Reader) (text : String) :
    List.Forall₂ (fun n item => ∃ line, (Text.linesOf text)[n]? = some line ∧
      r.readValid line = .ok item) (origins r text) (analyze r text).items := by
  have hsame : List.Forall₂ (fun l m => l = m ∧ m ∈ numberedLines text)
      (numberedLines text) (numberedLines text) :=
    List.forall₂_same.mpr fun l hl => ⟨rfl, hl⟩
  rw [origins, items_eq_filterMap]
  refine List.rel_filterMap ?_ hsame
  rintro l _ ⟨rfl, hl⟩
  have hline := (getElem?_countedLines.mp (mem_numberedLines.mp hl)).1
  cases hitem : itemOf? r l with
  | none =>
    simp only [hitem, Option.map_none]
    exact .none
  | some item =>
    simp only [hitem, Option.map_some]
    exact .some ⟨l.1, hline, itemOf?_eq_some_iff.mp hitem⟩

/-- **An analysis accounts for the lines of its text.** -/
theorem accountsFor_analyze (r : Line.Reader) (text : String) :
    AccountsFor r (Text.linesOf text) (origins r text) (analyze r text) where
  ascending := pairwise_origins r text
  items := forall₂_origins_items r text
  problemsAscending := pairwise_problems_analyze r text
  problems p hp := by
    obtain ⟨line, hline, hread, hlength⟩ := mem_problems_analyze.mp hp
    exact ⟨line, (getElem?_countedLines.mp hline).1, hread,
      hlength.trans (Text.Utf8.length_encode _).symm⟩
  counted n := by
    rw [counts_iff, mem_origins]
    constructor
    · rintro ⟨line, hline⟩
      cases hread : r.readValid line with
      | ok item => exact .inl ⟨line, item, hline, hread⟩
      | error problem =>
        exact .inr ⟨⟨n, Text.Utf8.size line.toList, problem⟩,
          mem_problems_analyze.mpr ⟨line, hline, hread, rfl⟩, rfl⟩
    · rintro (⟨line, _, hline, _⟩ | ⟨p, hp, rfl⟩)
      · exact ⟨line, hline⟩
      · obtain ⟨line, hline, _⟩ := mem_problems_analyze.mp hp
        exact ⟨line, hline⟩
  apart n hn p hp := by
    rintro rfl
    obtain ⟨line, item, hline, hok⟩ := mem_origins.mp hn
    obtain ⟨line', hline', herror, _⟩ := mem_problems_analyze.mp hp
    obtain rfl : line = line' := Option.some.inj (hline.symm.trans hline')
    rw [hok] at herror
    cases herror

/-! ## §3 One kind of items -/

/-- An item of the kind that a day asks for: a holiday of that very day, or an entry of some time
below a whole day. -/
def Item.OfKind (d : Day) (isHoliday : Bool) (item : Item) : Prop :=
  if isHoliday then ∃ description, item = .holiday ⟨d, description⟩
  else ∃ e, item = .entry e ∧ e.hours < 24 ∧ e.minutes < 60 ∧ ¬ (e.hours = 0 ∧ e.minutes = 0)

theorem Line.Reader.ofKind_of_readValid {r : Line.Reader} {line : String} {item : Item}
    (h : r.readValid line = .ok item) : item.OfKind r.day r.isHoliday := by
  cases hday : r.isHoliday with
  | true =>
    rw [Edit.readValid_of_holiday hday] at h
    split at h
    · cases h
    · cases h
      exact ⟨line, rfl⟩
  | false =>
    obtain ⟨hread, hvalid⟩ := readValid_eq_ok.mp h
    simp only [read, hday, Bool.false_eq_true, if_false] at hread
    split at hread
    · cases hread
    · cases hentry : readEntry r.classifier (Text.trimmed line) with
      | error p =>
        rw [hentry] at hread
        cases hread
      | ok e =>
        rw [hentry] at hread
        cases hread
        exact ⟨e, rfl, Entry.violation?_eq_none_iff.mp hvalid⟩

/-- The items of a text are all of the kind that its day asks for. -/
theorem ofKind_of_mem_items {r : Line.Reader} {text : String} {item : Item}
    (h : item ∈ (analyze r text).items) : item.OfKind r.day r.isHoliday := by
  rw [items_eq_filterMap] at h
  obtain ⟨l, _, hitem⟩ := List.mem_filterMap.mp h
  exact Line.Reader.ofKind_of_readValid (itemOf?_eq_some_iff.mp hitem)

/-! ## §4 Recording -/

namespace Journal

theorem readLine?_eq_some_iff {j : Journal} {line : String} {d : Day} {item : Item} :
    j.readLine? line d = some item ↔ (j.reader d).readValid line = .ok item :=
  @itemOf?_eq_some_iff (j.reader d) (line, 0) item

/-- **Every line is accounted for once, and nothing accepted is refused later.** Of the lines of a
text, an empty last one left out, each yields either an item or a problem, in the order of the
lines; the item is the one that the line has by itself. All items are holidays of the day, or all
are entries within bounds, as the rules say of the day. Recording the text, in either mode, reports
these items and problems and no others. A text that has items is stored with all of them on the
sheet of its day: as a draft, which replaces the pending rows of the day, or by a save, which
replaces the committed ones as well. -/
theorem record_accountsFor (rules : Rules) (store : Store) (text : String) (d : Day)
    (mode : WriteMode) :
    let j : Journal := ⟨rules.classifier, store⟩
    let a := analyze ⟨rules.classifier, d⟩ text
    (∃ origins, AccountsFor (j.reader d) (Text.linesOf text) origins a) ∧
    (∀ line item, j.readLine? line d = some item ↔ (j.reader d).readValid line = .ok item) ∧
    (∀ item ∈ a.items, item.OfKind d (rules.isHoliday d)) ∧
    (∀ item ∈ a.items, ∀ sheet : Sheet, sheet.date = d →
      sheet.add item = .ok { sheet with items := sheet.items ++ [item] }) ∧
    j.record text d mode =
      (if a.items = [] then j else
        match mode with
        | .draft => { j with store := store.saveDraft ⟨d, a.items⟩ }
        | .save => { j with store := store.save ⟨d, a.items⟩ }, a) := by
  intro j a
  refine ⟨⟨_, accountsFor_analyze (j.reader d) text⟩, fun _ _ => readLine?_eq_some_iff,
    fun item hitem => ofKind_of_mem_items hitem, ?_, ?_⟩
  · rintro item hitem sheet rfl
    exact Sheet.add_of_fits (fits_of_mem_items hitem)
  · rw [record_eq]
    cases mode <;> rfl

end Journal

end Daybook
