/-
Daybook.Proofs.Weeks — the weeks of a month.

Weekdays follow each other within a month as days of the month do, so the
clipped week of a day is what its month has of the seven days from one Monday
on (§1). Two days of a month have the same clipped week or one week lies before
the other, and every day of the month lies in one of them (§2).
-/
import Daybook.Proofs.Calendar
import Mathlib.Data.List.Dedup

namespace Daybook.Day

/-! ## §1 The week of a day -/

/-- Two days of one month of one year. -/
def SameMonth (a b : Day) : Prop := a.year = b.year ∧ a.month = b.month

/-- The number of the week of a day, counted from the first Monday of year 1. -/
def weekNumber (d : Day) : Int := (d.number - 1) / 7

namespace SameMonth

variable {a b : Day}

theorem symm (h : SameMonth a b) : SameMonth b a := ⟨h.1.symm, h.2.symm⟩

theorem trans {c : Day} (h : SameMonth a b) (h' : SameMonth b c) : SameMonth a c :=
  ⟨h.1.trans h'.1, h.2.trans h'.2⟩

theorem lt_iff (h : SameMonth a b) : a < b ↔ a.dayOfMonth < b.dayOfMonth := by
  obtain ⟨hyear, hmonth⟩ := h
  rw [Day.lt_iff]
  omega

theorem le_iff (h : SameMonth a b) : a ≤ b ↔ a.dayOfMonth ≤ b.dayOfMonth := by
  rw [le_iff_not_lt, h.symm.lt_iff, Nat.not_lt]

theorem monthLength_eq (h : SameMonth a b) :
    monthLength a.year a.month = monthLength b.year b.month := by
  rw [h.1, h.2]

/-- Days of one month are counted on as the month counts them. -/
theorem number_sub (h : SameMonth a b) :
    a.number - a.dayOfMonth = b.number - b.dayOfMonth := by
  rw [number, number, h.1, h.2]
  omega

theorem eq_of_dayOfMonth (h : SameMonth a b) (hday : a.dayOfMonth = b.dayOfMonth) : a = b := by
  obtain ⟨hyear, hmonth⟩ := h
  cases a
  cases b
  simp_all

end SameMonth

/-- A day is so many days behind the Monday of its week. -/
theorem number_eq (d : Day) : d.number = 7 * d.weekNumber + d.daysSinceMonday + 1 := by
  rw [weekNumber, daysSinceMonday]
  omega

/-- Within a month the weekdays are counted on as the days are. -/
theorem SameMonth.weekNumber_sub {a b : Day} (h : SameMonth a b) :
    7 * a.weekNumber + a.daysSinceMonday - a.dayOfMonth =
      7 * b.weekNumber + b.daysSinceMonday - b.dayOfMonth := by
  have hcount := h.number_sub
  rw [number_eq a, number_eq b] at hcount
  omega

theorem daysSinceMonday_le (d : Day) : d.daysSinceMonday ≤ 6 := by
  rw [daysSinceMonday]
  omega

theorem sameMonth_first_weekSpan (d : Day) : SameMonth d.weekSpan.first d := ⟨rfl, rfl⟩

theorem sameMonth_last_weekSpan (d : Day) : SameMonth d.weekSpan.last d := ⟨rfl, rfl⟩

/-- A week begins on its Monday, or with its month. -/
theorem dayOfMonth_first_weekSpan (d : Day) :
    d.weekSpan.first.dayOfMonth = max 1 (d.dayOfMonth - d.daysSinceMonday) := by
  have hday : 1 ≤ d.dayOfMonth := d.isDate.2.2.2.2.1
  show d.dayOfMonth - min d.daysSinceMonday (d.dayOfMonth - 1) = _
  omega

/-- A week ends on its Sunday, or with its month. -/
theorem dayOfMonth_last_weekSpan (d : Day) :
    d.weekSpan.last.dayOfMonth =
      min (monthLength d.year d.month) (d.dayOfMonth + (6 - d.daysSinceMonday)) := by
  have hday : d.dayOfMonth ≤ monthLength d.year d.month := d.isDate.2.2.2.2.2
  show d.dayOfMonth + min (6 - d.daysSinceMonday) (monthLength d.year d.month - d.dayOfMonth) = _
  omega

theorem first_weekSpan_le (d : Day) : d.weekSpan.first ≤ d := by
  have hday : 1 ≤ d.dayOfMonth := d.isDate.2.2.2.2.1
  rw [(sameMonth_first_weekSpan d).le_iff, dayOfMonth_first_weekSpan]
  omega

theorem le_last_weekSpan (d : Day) : d ≤ d.weekSpan.last := by
  have hday : d.dayOfMonth ≤ monthLength d.year d.month := d.isDate.2.2.2.2.2
  rw [(sameMonth_last_weekSpan d).symm.le_iff, dayOfMonth_last_weekSpan]
  omega

/-- What lies in the span of a week lies in the month of the week. -/
theorem sameMonth_of_mem_weekSpan {d x : Day} (hfirst : d.weekSpan.first ≤ x)
    (hlast : x ≤ d.weekSpan.last) : SameMonth x d :=
  mem_daysOfMonth.mp (List.mem_of_mem_filter
    ((Span.mem_days (weekSpan_withinMonth d)).mpr ⟨hfirst, hlast⟩))

/-- **The clipped week of a day** holds the days of its month with the same Monday. -/
theorem mem_weekSpan_iff {d x : Day} :
    d.weekSpan.first ≤ x ∧ x ≤ d.weekSpan.last ↔
      SameMonth x d ∧ x.weekNumber = d.weekNumber := by
  refine (and_iff_right_of_imp fun h => sameMonth_of_mem_weekSpan h.1 h.2).symm.trans
    (and_congr_right fun hmonth => ?_)
  have hcount := hmonth.weekNumber_sub
  have hx := daysSinceMonday_le x
  have hd := daysSinceMonday_le d
  have hfirst : 1 ≤ x.dayOfMonth := x.isDate.2.2.2.2.1
  have hlast : x.dayOfMonth ≤ monthLength d.year d.month :=
    hmonth.monthLength_eq ▸ x.isDate.2.2.2.2.2
  rw [((sameMonth_first_weekSpan d).trans hmonth.symm).le_iff,
    (hmonth.trans (sameMonth_last_weekSpan d).symm).le_iff,
    dayOfMonth_first_weekSpan, dayOfMonth_last_weekSpan]
  omega

/-! ## §2 The weeks of a month -/

/-- Days of one month with the same Monday have the same clipped week. -/
theorem weekSpan_eq_of_weekNumber_eq {a b : Day} (hmonth : SameMonth a b)
    (hweek : a.weekNumber = b.weekNumber) : a.weekSpan = b.weekSpan := by
  have hcount := hmonth.weekNumber_sub
  have ha := daysSinceMonday_le a
  have hb := daysSinceMonday_le b
  have hfirst : a.weekSpan.first = b.weekSpan.first := by
    refine SameMonth.eq_of_dayOfMonth hmonth ?_
    rw [dayOfMonth_first_weekSpan, dayOfMonth_first_weekSpan]
    omega
  have hlast : a.weekSpan.last = b.weekSpan.last := by
    refine SameMonth.eq_of_dayOfMonth hmonth ?_
    rw [dayOfMonth_last_weekSpan, dayOfMonth_last_weekSpan, hmonth.monthLength_eq]
    omega
  cases ha' : a.weekSpan
  cases hb' : b.weekSpan
  simp_all

/-- The week of an earlier Monday ends before the other begins. -/
theorem last_lt_first_of_weekNumber_lt {a b : Day} (hmonth : SameMonth a b)
    (hweek : a.weekNumber < b.weekNumber) : a.weekSpan.last < b.weekSpan.first := by
  have hcount := hmonth.weekNumber_sub
  have ha := daysSinceMonday_le a
  have hday : 1 ≤ a.dayOfMonth := a.isDate.2.2.2.2.1
  have hlast : SameMonth a.weekSpan.last b.weekSpan.first := hmonth
  rw [hlast.lt_iff, dayOfMonth_last_weekSpan, dayOfMonth_first_weekSpan]
  omega

/-- Within a month, later days lie in later weeks or the same. -/
theorem weekNumber_le_of_lt {a b : Day} (hmonth : SameMonth a b) (h : a < b) :
    a.weekNumber ≤ b.weekNumber := by
  have hcount := hmonth.number_sub
  rw [hmonth.lt_iff] at h
  rw [weekNumber, weekNumber]
  omega

/-- The clipped weeks of the days of a month, each once, in the order of the calendar. -/
def weeksOfMonth (d : Day) : List Span := (d.daysOfMonth.map weekSpan).dedup

/-- The weeks of a month are those of its days. -/
theorem mem_weeksOfMonth {d : Day} {w : Span} :
    w ∈ d.weeksOfMonth ↔ ∃ x, SameMonth x d ∧ x.weekSpan = w := by
  rw [weeksOfMonth, List.mem_dedup, List.mem_map]
  exact exists_congr fun x => and_congr_left fun _ => mem_daysOfMonth

/-- The weeks of a month are disjoint, and follow each other in the order of the calendar. -/
theorem pairwise_weeksOfMonth (d : Day) :
    d.weeksOfMonth.Pairwise fun v w => v.last < w.first := by
  have hweeks : (d.daysOfMonth.map weekSpan).Pairwise fun v w => v = w ∨ v.last < w.first := by
    rw [List.pairwise_map]
    refine (pairwise_daysOfMonth d).imp_of_mem fun {a b} ha hb hab => ?_
    have hmonth : SameMonth a b :=
      SameMonth.trans (mem_daysOfMonth.mp ha) (SameMonth.symm (mem_daysOfMonth.mp hb))
    rcases Int.lt_or_eq_of_le (weekNumber_le_of_lt hmonth hab) with hlt | heq
    · exact Or.inr (last_lt_first_of_weekNumber_lt hmonth hlt)
    · exact Or.inl (weekSpan_eq_of_weekNumber_eq hmonth heq)
  have hnodup : (d.daysOfMonth.map weekSpan).dedup.Pairwise (· ≠ ·) := List.nodup_dedup _
  exact ((hweeks.sublist (List.dedup_sublist _)).and hnodup).imp fun h => h.1.resolve_left h.2

/-- The days of a week of the month are days of the month. -/
theorem withinMonth_of_mem_weeksOfMonth {d : Day} {w : Span} (h : w ∈ d.weeksOfMonth) :
    w.WithinMonth := by
  obtain ⟨x, _, rfl⟩ := mem_weeksOfMonth.mp h
  exact weekSpan_withinMonth x

/-- **The weeks of a month cover it**: their days, week after week, are the days of the month. -/
theorem flatMap_days_weeksOfMonth (d : Day) :
    d.weeksOfMonth.flatMap Span.days = d.daysOfMonth := by
  refine eq_of_pairwise_lt ?_ (pairwise_daysOfMonth d) fun x => ?_
  · rw [List.pairwise_flatMap]
    refine ⟨fun w _ => w.pairwise_days, ?_⟩
    refine (pairwise_weeksOfMonth d).imp_of_mem fun {v w} hv hw hvw a ha b hb => ?_
    rw [Span.mem_days (withinMonth_of_mem_weeksOfMonth hv), ← key_le_key, ← key_le_key] at ha
    rw [Span.mem_days (withinMonth_of_mem_weeksOfMonth hw), ← key_le_key, ← key_le_key] at hb
    rw [← key_lt_key] at hvw ⊢
    omega
  · rw [List.mem_flatMap, mem_daysOfMonth]
    constructor
    · rintro ⟨w, hw, hx⟩
      obtain ⟨y, hy, rfl⟩ := mem_weeksOfMonth.mp hw
      rw [Span.mem_days (weekSpan_withinMonth y)] at hx
      exact (sameMonth_of_mem_weekSpan hx.1 hx.2).trans hy
    · intro hx
      refine ⟨x.weekSpan, mem_weeksOfMonth.mpr ⟨x, hx, rfl⟩, ?_⟩
      rw [Span.mem_days (weekSpan_withinMonth x)]
      exact ⟨first_weekSpan_le x, le_last_weekSpan x⟩

/-! ## §3 The span of a month -/

/-- A month that another month follows in the calendar. -/
def HasNextMonth (d : Day) : Prop := ¬ (d.year = lastYear ∧ d.month = 12)

instance (d : Day) : Decidable d.HasNextMonth := inferInstanceAs (Decidable (¬ _))

theorem first_monthSpan (d : Day) :
    SameMonth d.monthSpan.first d ∧ d.monthSpan.first.dayOfMonth = 1 := by
  unfold monthSpan
  dsimp only
  split <;> exact ⟨⟨rfl, rfl⟩, rfl⟩

/-- A month that another one follows ends with its last day. -/
theorem last_monthSpan {d : Day} (h : d.HasNextMonth) :
    SameMonth d.monthSpan.last d ∧ d.monthSpan.last.dayOfMonth = monthLength d.year d.month := by
  unfold monthSpan
  simp only [if_neg h]
  exact ⟨⟨rfl, rfl⟩, rfl⟩

/-- The span of a month holds its days, unless the calendar ends with it. -/
theorem days_monthSpan {d : Day} (h : d.HasNextMonth) : d.monthSpan.days = d.daysOfMonth := by
  refine eq_of_pairwise_lt (Span.pairwise_days _) (pairwise_daysOfMonth d) fun x => ?_
  rw [Span.mem_days (monthSpan_withinMonth d), mem_daysOfMonth]
  obtain ⟨_, _, _, _, hfirst, hlast⟩ := x.isDate
  obtain ⟨hmonth, hday⟩ := first_monthSpan d
  obtain ⟨hmonth', hday'⟩ := last_monthSpan h
  constructor
  · intro hx
    simp only [le_iff_not_lt, lt_iff] at hx
    unfold SameMonth at hmonth hmonth'
    omega
  · intro hx
    have hx : SameMonth x d := hx
    rw [(hmonth.trans hx.symm).le_iff, (hx.trans hmonth'.symm).le_iff, hday, hday',
      ← hx.monthLength_eq]
    exact ⟨hfirst, hlast⟩

end Daybook.Day
