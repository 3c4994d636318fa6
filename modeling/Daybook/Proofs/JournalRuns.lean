/-
Daybook.Proofs.JournalRuns — what a journal holds after any number of recordings.

A recording replaces what its day holds, in full or only the pending part, and
one that yields no item changes nothing. So the pending entries of a day are
those of its latest recording with an item, the committed ones those of its
latest save with an item, and every statistic is a sum over them. Main
statement: `recordAll_meaning`.

§1 the items of a text fit the sheet of their day, §2 one recording, §3 runs
of recordings, §4 the statistics.
-/
import Daybook.Journal
import Daybook.Proofs.StoreView
import Daybook.Proofs.Tally
import Mathlib.Data.List.Induction

namespace Daybook

/-! ## §1 Items that fit their sheet -/

/-- Whether the sheet of a day takes an item: it breaks no bound, and a holiday is that day. -/
def Item.Fits (d : Day) (item : Item) : Prop :=
  item.violation? = none ∧ ∀ h, item = .holiday h → h.date = d

theorem Sheet.add_of_fits {s : Sheet} {item : Item} (h : item.Fits s.date) :
    s.add item = .ok { s with items := s.items ++ [item] } := by
  cases item with
  | entry e =>
    have hv : e.violation? = none := h.1
    simp only [add, addEntry, hv]
    rfl
  | holiday hol =>
    have hd : hol.date = s.date := h.2 hol rfl
    simp only [add, addHoliday, hd, if_true]
    rfl

theorem Line.Reader.fits_of_read {r : Line.Reader} {line : String} {item : Item}
    (h : r.read line = .ok item) : ∀ hol, item = .holiday hol → hol.date = r.day := by
  rintro hol rfl
  simp only [Line.Reader.read] at h
  split at h
  · cases h
  · split at h
    · cases h
      rfl
    · cases hentry : Line.readEntry r.classifier (Text.trimmed line) with
      | error p => rw [hentry] at h; cases h
      | ok e => rw [hentry] at h; cases h

/-- The sheet of a day takes every item that is read for it. -/
theorem Line.Reader.fits_of_readValid {r : Line.Reader} {line : String} {item : Item}
    (h : r.readValid line = .ok item) : item.Fits r.day := by
  obtain ⟨hread, hv⟩ := readValid_eq_ok.mp h
  exact ⟨hv, fits_of_read hread⟩

/-- Whatever a text yields on a day, the sheet of the day takes it. -/
theorem fits_of_mem_items {r : Line.Reader} {text : String} {item : Item}
    (h : item ∈ (analyze r text).items) : item.Fits r.day := by
  simp only [analyze, lineOutcomes, List.mem_filterMap, List.mem_map] at h
  obtain ⟨outcome, ⟨⟨line, number⟩, _, rfl⟩, hok⟩ := h
  cases hline : r.readValid line with
  | error p => simp [lineOutcome, hline, Except.mapError, Except.toOption] at hok
  | ok i =>
    simp only [lineOutcome, hline, Except.mapError, Except.toOption, Option.some.injEq] at hok
    exact hok ▸ Line.Reader.fits_of_readValid hline

namespace Journal

/-- A sheet that takes all items refuses none of them. -/
theorem fillSheet_of_fits {sheet : Sheet} {items : List Item}
    (h : ∀ item ∈ items, item.Fits sheet.date) :
    fillSheet sheet items = ({ sheet with items := sheet.items ++ items }, []) := by
  induction items generalizing sheet with
  | nil => simp [fillSheet]
  | cons item items ih =>
    have hadd := Sheet.add_of_fits (h item (by simp))
    have hrest := @ih { sheet with items := sheet.items ++ [item] } fun i hi => h i (by simp [hi])
    simp only [fillSheet, hadd, hrest]
    simp

/-! ## §2 One recording -/

/-- A recording reports what the analysis of its text reports, and hands all items to the store. -/
theorem record_eq (j : Journal) (text : String) (d : Day) (mode : WriteMode) :
    j.record text d mode =
      (if (analyze (j.reader d) text).items = [] then j
        else { j with store := write j.store ⟨d, (analyze (j.reader d) text).items⟩ mode },
      analyze (j.reader d) text) := by
  have hfill : fillSheet { date := d } (analyze (j.reader d) text).items = _ :=
    fillSheet_of_fits fun item hitem => fits_of_mem_items hitem
  by_cases hitems : (analyze (j.reader d) text).items = []
  · simp [record, hitems]
  · simp only [record, List.isEmpty_eq_false_iff.mpr hitems, Bool.false_eq_true, if_false, hfill,
      List.nil_append, List.append_nil, if_neg hitems]

/-- A recording reports how its text is read. -/
theorem snd_record (j : Journal) (text : String) (d : Day) (mode : WriteMode) :
    (j.record text d mode).2 = analyze (j.reader d) text := by
  rw [record_eq]

@[simp] theorem classifier_record (j : Journal) (text : String) (d : Day) (mode : WriteMode) :
    (j.record text d mode).1.classifier = j.classifier := by
  rw [record_eq]
  exact (apply_ite Journal.classifier ..).trans (ite_self _)

def itemsOf (c : Classifier) (d : Day) (text : String) : List Item :=
  (analyze { classifier := c, day := d } text).items

def entriesOf (c : Classifier) (d : Day) (text : String) : List Entry :=
  (itemsOf c d text).filterMap Item.entry?

/-- A text that is recorded for a day. -/
structure Recording where
  text : String
  day : Day
  mode : WriteMode
deriving DecidableEq, Repr

def Recording.items (c : Classifier) (k : Recording) : List Item := itemsOf c k.day k.text

def Recording.entries (c : Classifier) (k : Recording) : List Entry := entriesOf c k.day k.text

theorem Recording.entries_eq (c : Classifier) (k : Recording) :
    k.entries c = (k.items c).filterMap Item.entry? := rfl

def follow (j : Journal) (k : Recording) : Journal := (j.record k.text k.day k.mode).1

/-- A recording without an item changes nothing. -/
theorem follow_of_items_nil {j : Journal} {k : Recording} (h : k.items j.classifier = []) :
    j.follow k = j := by
  rw [follow, record_eq]
  exact if_pos h

/-- A recording with items writes them, all of them, in its mode. -/
theorem follow_of_items {j : Journal} {k : Recording} (h : k.items j.classifier ≠ []) :
    j.follow k =
      { j with
        store := write j.store { date := k.day, items := k.items j.classifier } k.mode } := by
  rw [follow, record_eq]
  exact if_neg h

@[simp] theorem classifier_follow (j : Journal) (k : Recording) :
    (j.follow k).classifier = j.classifier :=
  j.classifier_record k.text k.day k.mode

theorem wellFormed_follow {j : Journal} (h : j.store.WellFormed) (k : Recording) :
    (j.follow k).store.WellFormed := by
  by_cases hk : k.items j.classifier = []
  · rwa [follow_of_items_nil hk]
  · rw [follow_of_items hk]
    cases k.mode with
    | draft => exact h.saveDraft _
    | save => exact h.save _

/-- Whether a recording sets the committed or the pending list of a day. -/
def Recording.Sets (c : Classifier) (k : Recording) (d : Day) (pending : Bool) : Prop :=
  k.day = d ∧ (pending = true ∨ k.mode = .save) ∧ k.items c ≠ []

instance (c : Classifier) (k : Recording) (d : Day) (pending : Bool) :
    Decidable (k.Sets c d pending) :=
  inferInstanceAs (Decidable (_ ∧ _))

/-- **One recording** sets the lists it is about and leaves all others alone. -/
theorem held_follow (j : Journal) (k : Recording) (d : Day) (pending : Bool) :
    (j.follow k).store.held d.key pending =
      if k.Sets j.classifier d pending then k.entries j.classifier
      else j.store.held d.key pending := by
  by_cases hk : k.items j.classifier = []
  · rw [follow_of_items_nil hk, if_neg fun h => h.2.2 hk]
  · rw [follow_of_items hk]
    cases hmode : k.mode with
    | draft =>
      simp [write, Store.held_saveDraft, Recording.Sets, hk, hmode, Day.key_inj, Sheet.entries,
        Recording.entries_eq]
    | save =>
      simp [write, Store.held_save, Recording.Sets, hk, hmode, Day.key_inj, Sheet.entries,
        Recording.entries_eq]

/-! ## §3 Runs -/

/-- The journal after recordings, one after the other. -/
def recordAll (j : Journal) (ks : List Recording) : Journal := ks.foldl follow j

/-- The latest of the recordings that sets a list of a day. -/
def latest? (c : Classifier) (ks : List Recording) (d : Day) (pending : Bool) : Option Recording :=
  (ks.filter fun k => k.Sets c d pending).getLast?

def latest (c : Classifier) (ks : List Recording) (d : Day) (pending : Bool) : List Entry :=
  (latest? c ks d pending).elim [] (Recording.entries c)

@[simp] theorem recordAll_append (j : Journal) (ks ls : List Recording) :
    j.recordAll (ks ++ ls) = (j.recordAll ks).recordAll ls := by
  simp [recordAll]

theorem recordAll_concat (j : Journal) (ks : List Recording) (k : Recording) :
    j.recordAll (ks ++ [k]) = (j.recordAll ks).follow k := by
  simp [recordAll]

theorem latest?_concat (c : Classifier) (ks : List Recording) (k : Recording) (d : Day)
    (pending : Bool) :
    latest? c (ks ++ [k]) d pending =
      if k.Sets c d pending then some k else latest? c ks d pending := by
  by_cases h : k.Sets c d pending <;> simp [latest?, List.filter_append, h]

theorem latest?_eq_some {c : Classifier} {ks : List Recording} {d : Day} {pending : Bool}
    {k : Recording} (h : latest? c ks d pending = some k) : k ∈ ks ∧ k.Sets c d pending := by
  simpa using List.mem_filter.mp (List.mem_of_getLast? h)

theorem latest?_eq_none_iff {c : Classifier} {ks : List Recording} {d : Day} {pending : Bool} :
    latest? c ks d pending = none ↔ ∀ k ∈ ks, ¬ k.Sets c d pending := by
  simp [latest?]

@[simp] theorem classifier_recordAll (j : Journal) (ks : List Recording) :
    (j.recordAll ks).classifier = j.classifier := by
  induction ks using List.reverseRecOn with
  | nil => rfl
  | append_singleton ks k ih => rw [recordAll_concat, classifier_follow, ih]

theorem reader_recordAll (j : Journal) (ks : List Recording) (d : Day) :
    (j.recordAll ks).reader d = j.reader d := by
  rw [reader, reader, classifier_recordAll]

/-- Recordings keep the rows in the order of their numbers. -/
theorem wellFormed_recordAll {j : Journal} (h : j.store.WellFormed) (ks : List Recording) :
    (j.recordAll ks).store.WellFormed := by
  induction ks using List.reverseRecOn with
  | nil => exact h
  | append_singleton ks k ih => exact recordAll_concat j ks k ▸ wellFormed_follow ih k

/-- **A run of recordings** leaves in a list of a day what the latest recording of it put there. -/
theorem held_recordAll (j : Journal) (ks : List Recording) (d : Day) (pending : Bool) :
    (j.recordAll ks).store.held d.key pending =
      (latest? j.classifier ks d pending).elim (j.store.held d.key pending)
        (Recording.entries j.classifier) := by
  induction ks using List.reverseRecOn with
  | nil => rfl
  | append_singleton ks k ih =>
    rw [recordAll_concat, held_follow, classifier_recordAll, ih, latest?_concat]
    by_cases h : k.Sets j.classifier d pending <;> simp [h]

/-! ## §4 Statistics -/

/-- What a day shows after recordings: the entries of the latest save with an item, then those of
the latest recording with an item. -/
def shown (c : Classifier) (ks : List Recording) (d : Day) : List DayEntry :=
  (latest c ks d false).map (⟨·, false⟩) ++ (latest c ks d true).map (⟨·, true⟩)

/-- **What a journal holds after any run of recordings**, and the statistics that follow from it:
a line for every category that is shown, with capped sums over the entries of the day, of the days
of its week within the month, and of the days of its month. A recording that yields no item
changes nothing. -/
theorem recordAll_meaning (rules : Rules) (ks : List Recording) (d : Day) :
    let c := rules.classifier
    let j := recordAll { classifier := c } ks
    let Tallies (entries : List DayEntry) :=
      IsTally rules.overtime.contains (entries.map DayEntry.record)
    j.dayEntries d = shown c ks d ∧
    Tallies (shown c ks d) (j.daily d) ∧
    Tallies (d.weekSpan.days.flatMap (shown c ks)) (j.weekly d) ∧
    Tallies (d.monthSpan.days.flatMap (shown c ks)) (j.monthly d) ∧
    ∀ k : Recording, k.items c = [] → j.follow k = j := by
  intro c j Tallies
  have hc : j.classifier = c := classifier_recordAll { classifier := c } ks
  have hwf : j.store.WellFormed := wellFormed_recordAll Store.wellFormed_empty ks
  have hheld : ∀ x pending, j.store.held x.key pending = latest c ks x pending :=
    held_recordAll { classifier := c } ks
  have hday : ∀ x, j.store.dayEntries x = shown c ks x := fun x => by
    rw [hwf.dayEntries_eq, hheld, hheld, shown]
  have htally : ∀ records, IsTally rules.overtime.contains records (j.totals records) := by
    intro records
    rw [totals, hc]
    exact isTally_tally _ records
  have hspan : ∀ span : Day.Span, span.WithinMonth →
      Tallies (span.days.flatMap (shown c ks)) (j.totals (j.store.inSpan span)) := by
    intro span hmonth
    have hrecords := hwf.inSpan_eq hmonth
    rw [funext hday] at hrecords
    exact hrecords ▸ htally _
  have hdaily : Tallies (shown c ks d) (j.totals (j.store.daily d)) := by
    have hrecords := hwf.daily_eq d
    rw [hday d] at hrecords
    exact hrecords ▸ htally _
  exact ⟨hday d, hdaily, hspan _ (Day.weekSpan_withinMonth d),
    hspan _ (Day.monthSpan_withinMonth d), fun k hk => follow_of_items_nil (hc.symm ▸ hk)⟩

end Journal

end Daybook
