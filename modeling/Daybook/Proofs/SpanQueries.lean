/-
Daybook.Proofs.SpanQueries — the queries of days, weeks and months fit together.

A span within one month is queried as its days are, one after the other, and a
month as its clipped weeks are (§1). So a day counts no more than its week, and
a week no more than its month, in any category (§2). Main statement:
`performAll_tiles`, for whatever a store went through.
-/
import Daybook.Journal
import Daybook.Proofs.StoreRuns
import Daybook.Proofs.Tally
import Daybook.Proofs.Weeks
import Mathlib.Data.List.Flatten

namespace Daybook.Store

/-! ## §1 The parts of a span -/

/-- The rows of a span are the rows of its days, day after day. -/
theorem WellFormed.spanRows_eq {s : Store} (h : s.WellFormed) {span : Day.Span}
    (hspan : span.WithinMonth) :
    s.spanRows span.first span.last = span.days.flatMap fun d => s.spanRows d d := by
  rw [h.spanRows_of_days span.pairwise_days fun _ => Day.Span.mem_days hspan]
  exact congrArg span.days.flatMap (funext fun d => (h.spanRows_single d).symm)

/-- A month has the rows of its weeks, one week after the other. -/
theorem WellFormed.spanRows_monthSpan {s : Store} (h : s.WellFormed) {d : Day}
    (hnext : d.HasNextMonth) :
    s.spanRows d.monthSpan.first d.monthSpan.last =
      d.weeksOfMonth.flatMap fun w => s.spanRows w.first w.last := by
  rw [h.spanRows_eq (Day.monthSpan_withinMonth d), Day.days_monthSpan hnext,
    ← Day.flatMap_days_weeksOfMonth, List.flatMap_assoc]
  refine List.flatMap_congr fun w hw => ?_
  rw [h.spanRows_eq (Day.withinMonth_of_mem_weeksOfMonth hw)]

/-- The records of a span are those of its days, day by day. -/
theorem WellFormed.inSpan_eq_daily {s : Store} (h : s.WellFormed) {span : Day.Span}
    (hspan : span.WithinMonth) : s.inSpan span = span.days.flatMap s.daily := by
  rw [inSpan, recordsBetween, h.spanRows_eq hspan, List.filterMap_flatMap]
  rfl

/-- The records of a month are those of its weeks, week by week. -/
theorem WellFormed.inSpan_monthSpan {s : Store} (h : s.WellFormed) {d : Day}
    (hnext : d.HasNextMonth) : s.inSpan d.monthSpan = d.weeksOfMonth.flatMap s.inSpan := by
  rw [inSpan, recordsBetween, h.spanRows_monthSpan hnext, List.filterMap_flatMap]
  rfl

/-- A row that a month is read from is read for one of its weeks, and for no other. -/
theorem WellFormed.existsUnique_week {s : Store} (h : s.WellFormed) {d : Day}
    (hnext : d.HasNextMonth) {r : Row}
    (hr : r ∈ s.spanRows d.monthSpan.first d.monthSpan.last) :
    ∃! w, w ∈ d.weeksOfMonth ∧ r ∈ s.spanRows w.first w.last := by
  obtain ⟨hrow, hmonth⟩ := mem_spanRows.mp hr
  obtain ⟨x, hx⟩ := h.filed r hrow
  have hread : ∀ w : Day.Span, r ∈ s.spanRows w.first w.last ↔ w.first ≤ x ∧ x ≤ w.last :=
    fun w => by simp only [mem_spanRows, hrow, true_and, hx, Day.key_le_key]
  simp only [hread]
  rw [hx, Day.key_le_key, Day.key_le_key, ← Day.Span.mem_days (Day.monthSpan_withinMonth d),
    Day.days_monthSpan hnext, Day.mem_daysOfMonth] at hmonth
  refine ⟨x.weekSpan, ⟨Day.mem_weeksOfMonth.mpr ⟨x, hmonth, rfl⟩, Day.first_weekSpan_le x,
    Day.le_last_weekSpan x⟩, ?_⟩
  rintro w ⟨hw, hheld⟩
  obtain ⟨y, _, rfl⟩ := Day.mem_weeksOfMonth.mp hw
  obtain ⟨hsame, hweek⟩ := Day.mem_weekSpan_iff.mp hheld
  exact (Day.weekSpan_eq_of_weekNumber_eq hsame hweek).symm

/-! ## §2 Days, weeks and months -/

/-- The days of a span, in the order of the calendar. -/
def IsListedBy (span : Day.Span) (days : List Day) : Prop :=
  days.Pairwise (· < ·) ∧ ∀ d, d ∈ days ↔ span.first ≤ d ∧ d ≤ span.last

/-- How the queries about a day, its week and its month fit together, and the totals that are
counted from them. -/
structure Tiles (s : Store) (c : Classifier) (d : Day) : Prop where
  weekDays : IsListedBy d.weekSpan d.weekSpan.days
  /-- The records of the week are those of its days, one after the other. -/
  week : s.inSpan d.weekSpan = d.weekSpan.days.flatMap s.daily
  disjoint : d.weeksOfMonth.Pairwise fun v w => v.last < w.first
  monthDays : IsListedBy d.monthSpan (d.weeksOfMonth.flatMap Day.Span.days)
  /-- The records of the month are those of its weeks, one after the other. -/
  month : s.inSpan d.monthSpan = d.weeksOfMonth.flatMap s.inSpan
  /-- The rows that the records of the month are taken from are those of its weeks. -/
  monthRows : s.spanRows d.monthSpan.first d.monthSpan.last =
    d.weeksOfMonth.flatMap fun w => s.spanRows w.first w.last
  /-- None of these rows yields a record in two weeks, or in no week. -/
  oneWeek : ∀ r ∈ s.spanRows d.monthSpan.first d.monthSpan.last,
    ∃! w, w ∈ d.weeksOfMonth ∧ r ∈ s.spanRows w.first w.last
  dayInWeek : AtMostByCategory (Journal.daily ⟨c, s⟩ d) (Journal.weekly ⟨c, s⟩ d)
  weekInMonth : AtMostByCategory (Journal.weekly ⟨c, s⟩ d) (Journal.monthly ⟨c, s⟩ d)

theorem isListedBy_days {span : Day.Span} (h : span.WithinMonth) : IsListedBy span span.days :=
  ⟨span.pairwise_days, fun _ => Day.Span.mem_days h⟩

/-- What a list is queried for piece by piece has the answer for each piece in it. -/
theorem sublist_flatMap_of_mem {α β : Type} {as : List α} {a : α} (h : a ∈ as) (f : α → List β) :
    (f a).Sublist (as.flatMap f) := by
  have hsub : ([a].flatMap f).Sublist (as.flatMap f) := (List.singleton_sublist.mpr h).flatMap f
  rwa [List.flatMap_singleton] at hsub

theorem WellFormed.daily_sublist_week {s : Store} (h : s.WellFormed) (d : Day) :
    (s.daily d).Sublist (s.inSpan d.weekSpan) := by
  have hd : d ∈ d.weekSpan.days :=
    (Day.Span.mem_days (Day.weekSpan_withinMonth d)).mpr
      ⟨Day.first_weekSpan_le d, Day.le_last_weekSpan d⟩
  rw [h.inSpan_eq_daily (Day.weekSpan_withinMonth d)]
  exact sublist_flatMap_of_mem hd s.daily

theorem WellFormed.week_sublist_month {s : Store} (h : s.WellFormed) {d : Day}
    (hnext : d.HasNextMonth) : (s.inSpan d.weekSpan).Sublist (s.inSpan d.monthSpan) := by
  have hd : d.weekSpan ∈ d.weeksOfMonth := Day.mem_weeksOfMonth.mpr ⟨d, ⟨rfl, rfl⟩, rfl⟩
  rw [h.inSpan_monthSpan hnext]
  exact sublist_flatMap_of_mem hd s.inSpan

/-- The weeks of a month tile it, in the calendar and in the records. -/
theorem WellFormed.tiles {s : Store} (h : s.WellFormed) (c : Classifier) {d : Day}
    (hnext : d.HasNextMonth) : s.Tiles c d where
  weekDays := isListedBy_days (Day.weekSpan_withinMonth d)
  week := h.inSpan_eq_daily (Day.weekSpan_withinMonth d)
  disjoint := Day.pairwise_weeksOfMonth d
  monthDays := by
    rw [Day.flatMap_days_weeksOfMonth, ← Day.days_monthSpan hnext]
    exact isListedBy_days (Day.monthSpan_withinMonth d)
  month := h.inSpan_monthSpan hnext
  monthRows := h.spanRows_monthSpan hnext
  oneWeek _ hr := h.existsUnique_week hnext hr
  dayInWeek := (isTally_tally _ _).atMostByCategory (isTally_tally _ _) (h.daily_sublist_week d)
  weekInMonth :=
    (isTally_tally _ _).atMostByCategory (isTally_tally _ _) (h.week_sublist_month hnext)

/-- **Days tile weeks, and weeks tile months.** Whatever saves, drafts and ways through the file a
store went through, the records of a week are those of its days and the records of a month those of
its clipped weeks, in the order of the calendar; no row of a month is counted in two weeks or in
none, and no total of a day is beyond that of its week, no total of a week beyond that of its
month. -/
theorem performAll_tiles (actions : List Action) (c : Classifier) (d : Day)
    (hnext : d.HasNextMonth) :
    ∃ s, empty.performAll actions = some s ∧ s.Tiles c d := by
  obtain ⟨s, hs, hrepr⟩ := Represents.empty.performAll actions
  exact ⟨s, hs, hrepr.wellFormed.tiles c hnext⟩

/-- February 2022 ends on a Monday, which is a week of its own; its Sunday before belongs to the
week of the 21st. -/
theorem performAll_tiles_lastMonday :
    let sunday : Day := ⟨2022, 2, 27, by decide⟩
    let monday : Day := ⟨2022, 2, 28, by decide⟩
    let work : Item := .entry { category := "dev", hours := 1, minutes := 30, task := none, comment := "" }
    let actions : List Action := [.save ⟨sunday, [work]⟩, .saveDraft ⟨monday, [work, work]⟩, .reopen]
    let c := ({ regular := ["dev"] } : Rules).classifier
    let worked (pending : Bool) : Record := { category := "dev", hours := 1, minutes := 30, pending }
    monday.HasNextMonth ∧
    (monday.weeksOfMonth.map fun w => (w.first.dayOfMonth, w.last.dayOfMonth)) =
      [(1, 6), (7, 13), (14, 20), (21, 27), (28, 28)] ∧
    ∃ s, empty.performAll actions = some s ∧ s.Tiles c monday ∧
      s.daily sunday = [worked false, worked true] ∧
      s.inSpan sunday.weekSpan = [worked false, worked true] ∧
      s.inSpan monday.weekSpan = [worked true, worked true] ∧
      s.inSpan monday.monthSpan = [worked false, worked true, worked true, worked true] := by
  intro sunday monday work actions c worked
  obtain ⟨s, hs, htiles⟩ := performAll_tiles actions c monday (by decide)
  refine ⟨by decide, by decide, s, hs, htiles, ?_⟩
  -- the way through the file is too long to compute, and changes nothing
  have hwritten : empty.performAll actions =
      some ((empty.save ⟨sunday, [work]⟩).saveDraft ⟨monday, [work, work]⟩) := by
    simp only [actions, performAll, List.foldlM_cons, List.foldlM_nil, perform_reopen]
    rfl
  obtain rfl := Option.some.inj (hwritten.symm.trans hs)
  clear hs htiles hwritten
  decide

end Daybook.Store
