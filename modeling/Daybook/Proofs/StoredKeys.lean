/-
Daybook.Proofs.StoredKeys — filing rows under keys is as good as dating them.

The store knows the day of a row by its key alone. A key mixes a year that may
be negative with a month and a day that never are; yet months and days together
stay below the step of a year, so of two days the one that the calendar reaches
first has the smaller key (§1). A table in which every row carries its day
(§2) therefore goes through any run as the stored one does (§3), and a span of
keys holds the rows of the days between, in their order (§4). Main statement:
`keys_stand_for_days`.
-/
import Daybook.Proofs.CalendarWindows
import Daybook.Proofs.StoreRuns
import Mathlib.Logic.Relation

namespace Daybook

/-! ## §1 From day to day -/

namespace Day

/-- Going on from day to day, the calendar comes from `a` to `b`. -/
def Precedes : Day → Day → Prop := Relation.TransGen fun d e => d.next? = some e

theorem lt_next? {d e : Day} (h : d.next? = some e) : d < e := by
  rw [next?] at h
  rw [lt_iff]
  split at h
  · obtain ⟨hyear, hmonth, hday⟩ := ofDate?_eq_some_iff.mp h
    omega
  · split at h
    · obtain ⟨hyear, hmonth, _⟩ := ofDate?_eq_some_iff.mp h
      omega
    · obtain ⟨hyear, _, _⟩ := ofDate?_eq_some_iff.mp h
      omega

/-- Before a later day the calendar does not end, and it does not leap over that day. -/
theorem exists_next?_le {a b : Day} (h : a < b) : ∃ e, a.next? = some e ∧ e ≤ b := by
  obtain ⟨hfirst, hlast, hmonth, hmonth', _, _⟩ := a.isDate
  obtain ⟨_, hblast, hbmonth, _, hbday, hblength⟩ := b.isDate
  rw [lt_iff] at h
  simp only [next?, le_iff_not_lt, lt_iff]
  split
  · next hday =>
    refine ⟨a.withDayOfMonth (a.dayOfMonth + 1) (by omega) hday,
      ofDate?_eq_some_iff.mpr ⟨rfl, rfl, rfl⟩, ?_⟩
    dsimp only [withDayOfMonth]
    omega
  · next hday =>
    -- no day of the month is left for `b`
    have hlater : a.year < b.year ∨ a.year = b.year ∧ a.month < b.month := by
      rcases h with hyear | ⟨hyear, hlt | ⟨hsame, hlt⟩⟩
      · exact .inl hyear
      · exact .inr ⟨hyear, hlt⟩
      · rw [← hyear, ← hsame] at hblength
        omega
    split
    · next hbefore =>
      refine ⟨⟨_, _, _, isDate_first ⟨hfirst, hlast⟩ ⟨by omega, hbefore⟩⟩,
        ofDate?_eq_some_iff.mpr ⟨rfl, rfl, rfl⟩, ?_⟩
      dsimp only
      omega
    · next hdecember =>
      refine ⟨⟨_, _, _, isDate_first ⟨by omega, by omega⟩ ⟨Nat.le_refl 1, by decide⟩⟩,
        ofDate?_eq_some_iff.mpr ⟨rfl, rfl, rfl⟩, ?_⟩
      dsimp only
      omega

/-- Going on from day to day leads to later days. -/
theorem lt_of_precedes {a b : Day} (h : a.Precedes b) : a < b := by
  induction h with
  | single hnext => exact lt_next? hnext
  | tail _ hnext ih =>
    have hstep := key_lt_key.mpr (lt_next? hnext)
    exact key_lt_key.mp (Int.lt_trans (key_lt_key.mpr ih) hstep)

/-- Every later day is reached: with each step fewer keys lie between. -/
theorem precedes_of_lt {a b : Day} (h : a < b) : a.Precedes b := by
  induction hn : (b.key - a.key).toNat using Nat.strongRecOn generalizing a with
  | ind n ih =>
    obtain ⟨e, hnext, hle⟩ := exists_next?_le h
    have hstep : a.key < e.key := key_lt_key.mpr (lt_next? hnext)
    rcases Int.lt_or_eq_of_le (key_le_key.mpr hle) with hlt | heq
    · exact .head hnext (ih _ (by omega) (key_lt_key.mp hlt) rfl)
    · exact .single (key_inj.mp heq ▸ hnext)

/-- The order of the calendar is the order in which its days follow each other. -/
theorem lt_iff_precedes {a b : Day} : a < b ↔ a.Precedes b := ⟨precedes_of_lt, lt_of_precedes⟩

/-- No key lies outside those of the first and the last day of the calendar. -/
theorem key_bounds (d : Day) : -2621429899 ≤ d.key ∧ d.key ≤ 2621421231 := by
  obtain ⟨hfirst, hlast, _⟩ := d.isDate
  have := d.monthDay_bounds
  rw [firstYear] at hfirst
  rw [lastYear] at hlast
  rw [key]
  omega

end Day

/-! ## §2 Rows that carry their days -/

/-- A row with its day in the place of the key. -/
structure DatedRow where
  id : Nat
  day : Day
  item : Item
  pending : Bool
deriving DecidableEq, Repr

namespace DatedRow

/-- The row as the store has it. -/
def filed (r : DatedRow) : Row := .ofItem r.id r.day.key r.pending r.item

/-- By day, then by number. -/
def dayOrder (a b : DatedRow) : Bool := a.day < b.day || (a.day == b.day && a.id ≤ b.id)

/-- What a statistic sees of a row; of a holiday, nothing. -/
def record? (r : DatedRow) : Option Record :=
  r.item.entry?.map fun e =>
    { category := e.category, hours := e.hours, minutes := e.minutes, pending := r.pending }

@[simp] theorem key_filed (r : DatedRow) : r.filed.key = r.day.key := Row.key_ofItem ..

@[simp] theorem pending_filed (r : DatedRow) : r.filed.pending = r.pending := Row.pending_ofItem ..

theorem dayOrder_iff {a b : DatedRow} :
    dayOrder a b = true ↔ a.day < b.day ∨ (a.day = b.day ∧ a.id ≤ b.id) := by
  simp [dayOrder]

theorem keyOrder_filed (a b : DatedRow) : Row.keyOrder a.filed b.filed = dayOrder a b := by
  rw [Bool.eq_iff_iff, Store.keyOrder_iff, dayOrder_iff, key_filed, key_filed, filed, filed,
    Row.id_ofItem, Row.id_ofItem]
  exact or_congr Day.key_lt_key (and_congr_left fun _ => Day.key_inj)

/-- What a statistic takes from the columns is what it takes from the item. -/
theorem record?_filed (r : DatedRow) : r.filed.record? = r.record? := by
  rw [filed, record?]
  cases r.item <;> rfl

end DatedRow

/-- A table of rows that carry their days, and the next number to give. -/
structure DatedStore where
  rows : List DatedRow := []
  nextId : Nat := 1
deriving DecidableEq, Repr

namespace DatedStore

def empty : DatedStore := {}

/-- The table as the store has it. -/
def filed (t : DatedStore) : Store := { rows := t.rows.map DatedRow.filed, nextId := t.nextId }

/-- Adds a row for each of the items. -/
def insert (t : DatedStore) (day : Day) (pending : Bool) (items : List Item) : DatedStore where
  rows := t.rows ++ items.mapIdx fun i item => { id := t.nextId + i, day, item, pending }
  nextId := t.nextId + items.length

/-- Keeps the rows that satisfy `p`. -/
def keep (t : DatedStore) (p : DatedRow → Bool) : DatedStore := { t with rows := t.rows.filter p }

/-- A save replaces the rows of its day, a draft the pending ones among them, and the way through
the file changes nothing. -/
def perform (t : DatedStore) : Store.Action → DatedStore
  | .save sheet =>
    ((t.keep fun r => r.day ≠ sheet.date).insert sheet.date false sheet.items).insert
      sheet.date true sheet.items
  | .saveDraft sheet =>
    (t.keep fun r => !(r.day = sheet.date ∧ r.pending)).insert sheet.date true sheet.items
  | .reopen => t

def performAll (t : DatedStore) (actions : List Store.Action) : DatedStore :=
  actions.foldl perform t

/-- The rows of the days from `first` to `last`, day by day. -/
def spanRows (t : DatedStore) (first last : Day) : List DatedRow :=
  Order.sortBy DatedRow.dayOrder (t.rows.filter fun r => first ≤ r.day ∧ r.day ≤ last)

/-! ## §3 Writing -/

theorem insert_cons (t : DatedStore) (day : Day) (pending : Bool) (item : Item)
    (items : List Item) :
    t.insert day pending (item :: items) =
      (t.insert day pending [item]).insert day pending items := by
  simp [insert, List.mapIdx_cons, Nat.add_assoc, Nat.add_comm 1]

theorem filed_insert (t : DatedStore) (day : Day) (pending : Bool) (items : List Item) :
    (t.insert day pending items).filed = t.filed.insert day.key pending items := by
  induction items generalizing t with
  | nil => simp [insert, filed, Store.insert]
  | cons item items ih =>
    rw [insert_cons, ih, Store.insert]
    simp [insert, filed, DatedRow.filed]

/-- Rows are dropped by key as they are dropped by day. -/
theorem filed_keep {t : DatedStore} {p : DatedRow → Bool} {q : Row → Bool}
    (h : ∀ r, q r.filed = p r) : (t.keep p).filed = t.filed.keep q := by
  have hrows : t.rows.filter (q ∘ DatedRow.filed) = t.rows.filter p :=
    List.filter_congr fun r _ => h r
  rw [Store.keep, filed, filed, keep, List.filter_map, hrows]

/-- Every action on the stored table succeeds, and is the action on the dated one. -/
theorem filed_perform (t : DatedStore) (action : Store.Action) :
    t.filed.perform action = some (t.perform action).filed := by
  cases action with
  | save sheet =>
    have hkeep : (t.keep fun r => r.day ≠ sheet.date).filed =
        t.filed.keep fun r => r.key ≠ sheet.date.key :=
      filed_keep fun r => by simp [Day.key_inj]
    rw [perform, filed_insert, filed_insert, hkeep]
    rfl
  | saveDraft sheet =>
    have hkeep : (t.keep fun r => !(r.day = sheet.date ∧ r.pending)).filed =
        t.filed.keep fun r => !(r.key = sheet.date.key ∧ r.pending) :=
      filed_keep fun r => by
        rw [Bool.not_inj_iff, decide_eq_decide, r.key_filed, Day.key_inj, r.pending_filed]
    rw [perform, filed_insert, hkeep]
    rfl
  | reopen => exact Store.perform_reopen t.filed

/-- The store does with keys what the table does with days, run by run. -/
theorem filed_performAll (t : DatedStore) (actions : List Store.Action) :
    t.filed.performAll actions = some (t.performAll actions).filed := by
  induction actions generalizing t with
  | nil => rfl
  | cons action actions ih =>
    rw [Store.performAll, List.foldlM_cons, filed_perform]
    exact ih (t.perform action)

end DatedStore

/-! ## §4 Spans -/

namespace DatedStore

/-- The rows of a span are those of its days. -/
theorem mem_spanRows {t : DatedStore} {first last : Day} {r : DatedRow} :
    r ∈ t.spanRows first last ↔ r ∈ t.rows ∧ first ≤ r.day ∧ r.day ≤ last := by
  simp [spanRows]

/-- A span of keys selects the rows of the days between, in the order of the calendar. -/
theorem spanRows_filed (t : DatedStore) (first last : Day) :
    t.filed.spanRows first last = (t.spanRows first last).map DatedRow.filed := by
  have hselect : (t.rows.map DatedRow.filed).filter
      (fun r => first.key ≤ r.key ∧ r.key ≤ last.key) =
        (t.rows.filter fun r => first ≤ r.day ∧ r.day ≤ last).map DatedRow.filed := by
    rw [List.filter_map]
    refine congrArg (List.map DatedRow.filed) (List.filter_congr fun r _ => ?_)
    simp [Day.key_le_key]
  rw [Store.spanRows, filed, hselect, Order.sortBy_map, spanRows]
  simp only [DatedRow.keyOrder_filed]

/-- The records of a span are those of the rows of its days. -/
theorem recordsBetween_filed (t : DatedStore) (first last : Day) :
    t.filed.recordsBetween first last = (t.spanRows first last).filterMap DatedRow.record? := by
  rw [Store.recordsBetween, spanRows_filed, List.filterMap_map]
  exact List.filterMap_congr fun r _ => r.record?_filed

/-- No day lies in a span that ends before it begins. -/
theorem spanRows_eq_nil {t : DatedStore} {first last : Day} (h : last < first) :
    t.spanRows first last = [] := by
  refine List.eq_nil_iff_forall_not_mem.mpr fun r hr => ?_
  obtain ⟨_, hfirst, hlast⟩ := mem_spanRows.mp hr
  rw [← Day.key_le_key] at hfirst hlast
  rw [← Day.key_lt_key] at h
  omega

end DatedStore

/-- **Keys stand for days.** Of two days, in the years before year 0 as in those after it, the one
with the smaller key is the one from which the calendar comes to the other; two days never share a
key, and all keys are integers of 64 bits. So a run of saves, drafts and ways through the file
leaves the table that it would leave if rows carried their days, and of any such table a span of
keys selects the rows of the days between its ends, in the order of the calendar, and none if it
ends before it begins. -/
theorem keys_stand_for_days :
    (∀ a b : Day,
      (a < b ↔ a.key < b.key) ∧ (a < b ↔ a.Precedes b) ∧ (a = b ↔ a.key = b.key)) ∧
    (∀ d : Day, Int64.minValue.toInt ≤ d.key ∧ d.key ≤ Int64.maxValue.toInt) ∧
    (∀ actions : List Store.Action,
      Store.empty.performAll actions = some (DatedStore.empty.performAll actions).filed) ∧
    ∀ (t : DatedStore) (first last : Day),
      t.filed.spanRows first last = (t.spanRows first last).map DatedRow.filed ∧
      t.filed.recordsBetween first last = (t.spanRows first last).filterMap DatedRow.record? ∧
      (last < first → t.filed.spanRows first last = []) := by
  refine ⟨fun a b => ⟨Day.key_lt_key.symm, Day.lt_iff_precedes, Day.key_inj.symm⟩, fun d => ?_,
    DatedStore.filed_performAll DatedStore.empty, fun t first last =>
      ⟨t.spanRows_filed first last, t.recordsBetween_filed first last, fun h => ?_⟩⟩
  · obtain ⟨hleast, hgreatest⟩ := d.key_bounds
    exact ⟨Int.le_trans (by decide) hleast, Int.le_trans hgreatest (by decide)⟩
  · rw [DatedStore.spanRows_filed, DatedStore.spanRows_eq_nil h, List.map_nil]

/-- The last day of the year -1 has a negative key, the day after it a positive one. -/
theorem keys_stand_for_days_beforeYearZero :
    let eve : Day := ⟨-1, 12, 31, by decide⟩
    let morning : Day := ⟨0, 1, 1, by decide⟩
    let work : Item :=
      .entry { category := "dev", hours := 1, minutes := 30, task := none, comment := "" }
    let actions : List Store.Action :=
      [.save ⟨morning, [work]⟩, .saveDraft ⟨eve, [work]⟩, .reopen]
    (eve.key, morning.key) = (-8769, 101) ∧ eve.Precedes morning ∧
    ∃ s, Store.empty.performAll actions = some s ∧
      (s.spanRows eve morning).map (fun r => (r.key, r.id)) = [(-8769, 3), (101, 1), (101, 2)] ∧
      eve < morning ∧ s.spanRows morning eve = [] := by
  obtain ⟨horder, _, hruns, hspans⟩ := keys_stand_for_days
  intro eve morning work actions
  refine ⟨by decide, (horder eve morning).2.1.mp (by decide), _, hruns actions, ?_, by decide,
    (hspans _ morning eve).2.2 (by decide)⟩
  rw [(hspans _ eve morning).1]
  decide

end Daybook
