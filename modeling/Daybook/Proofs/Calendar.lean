/-
Daybook.Proofs.Calendar — keys in the order of the calendar, and the days of a span.

The key of a day packs year, month and day of the month into one integer. The
packing leaves room for each of them, also in the years before year 0, so keys
compare as days do (§1). The spans that are asked about, a week within its
month and a month, are short lists of days (§2).
-/
import Daybook.Day

namespace Daybook.Day

/-! ## §1 Keys -/

theorem lt_iff {a b : Day} :
    a < b ↔ a.year < b.year ∨ a.year = b.year ∧
      (a.month < b.month ∨ a.month = b.month ∧ a.dayOfMonth < b.dayOfMonth) := Iff.rfl

theorem le_iff_not_lt {a b : Day} : a ≤ b ↔ ¬ b < a := Iff.rfl

/-- The month and the day of the month together stay below the step of one year. -/
theorem monthDay_bounds (d : Day) :
    1 ≤ d.month ∧ d.month ≤ 12 ∧ 1 ≤ d.dayOfMonth ∧ d.dayOfMonth ≤ 31 := by
  obtain ⟨_, _, hmonth, hmonth', hday, hday'⟩ := d.isDate
  have := (monthLength_bounds d.year d.month).2
  exact ⟨hmonth, hmonth', hday, by omega⟩

/-- Keys compare as days do. -/
theorem key_lt_key {a b : Day} : a.key < b.key ↔ a < b := by
  have ha := a.monthDay_bounds
  have hb := b.monthDay_bounds
  rw [lt_iff, key, key]
  omega

/-- Keys are ordered as days are. -/
theorem key_le_key {a b : Day} : a.key ≤ b.key ↔ a ≤ b := by
  rw [le_iff_not_lt, ← key_lt_key, Int.not_lt]

/-- No two days share a key. -/
theorem key_inj {a b : Day} : a.key = b.key ↔ a = b := by
  refine ⟨fun h => ?_, fun h => h ▸ rfl⟩
  have ha := a.monthDay_bounds
  have hb := b.monthDay_bounds
  rw [key, key] at h
  have hyear : a.year = b.year := by omega
  have hmonth : a.month = b.month := by omega
  have hday : a.dayOfMonth = b.dayOfMonth := by omega
  cases a
  cases b
  simp_all

/-! ## §2 The days of a span -/

/-- Two lists of days in the order of the calendar are equal if they have the same days. -/
theorem eq_of_pairwise_lt {xs ys : List Day} (hxs : xs.Pairwise (· < ·))
    (hys : ys.Pairwise (· < ·)) (hmem : ∀ d, d ∈ xs ↔ d ∈ ys) : xs = ys := by
  have hirrefl : ∀ d : Day, ¬ d < d := fun d h => Int.lt_irrefl _ (key_lt_key.mpr h)
  have hnodup : ∀ {zs : List Day}, zs.Pairwise (· < ·) → zs.Nodup := fun hzs =>
    hzs.imp fun {a b} hab => by
      rintro rfl
      exact hirrefl a hab
  refine List.Perm.eq_of_pairwise (fun a b _ _ hab hba => ?_) hxs hys
    ((List.perm_ext_iff_of_nodup (hnodup hxs) (hnodup hys)).mpr hmem)
  exact absurd (key_lt_key.mpr hba) (Int.not_lt.mpr (Int.le_of_lt (key_lt_key.mpr hab)))

/-- The days of the month of `d`, from its first to its last. -/
def daysOfMonth (d : Day) : List Day :=
  (List.range (monthLength d.year d.month)).filterMap fun k => ofDate? d.year d.month (k + 1)

/-- The days of a month are all those of its year and number. -/
theorem mem_daysOfMonth {d x : Day} :
    x ∈ d.daysOfMonth ↔ x.year = d.year ∧ x.month = d.month := by
  obtain ⟨_, _, _, _, hday, hday'⟩ := x.isDate
  simp only [daysOfMonth, List.mem_filterMap, List.mem_range, ofDate?_eq_some_iff]
  constructor
  · rintro ⟨_, _, hyear, hmonth, _⟩
    exact ⟨hyear, hmonth⟩
  · rintro ⟨hyear, hmonth⟩
    rw [hyear, hmonth] at hday'
    exact ⟨x.dayOfMonth - 1, by omega, hyear, hmonth, by omega⟩

/-- The days of a month follow each other in the order of the calendar. -/
theorem pairwise_daysOfMonth (d : Day) : d.daysOfMonth.Pairwise (· < ·) := by
  rw [daysOfMonth, List.pairwise_filterMap]
  refine (List.pairwise_lt_range).imp ?_
  intro i j hij a ha b hb
  obtain ⟨hyear, hmonth, hday⟩ := ofDate?_eq_some_iff.mp ha
  obtain ⟨hyear', hmonth', hday'⟩ := ofDate?_eq_some_iff.mp hb
  rw [lt_iff]
  omega

/-- The days from the first to the last day of a span that lies within one month. -/
def Span.days (s : Span) : List Day :=
  s.first.daysOfMonth.filter fun x => s.first ≤ x ∧ x ≤ s.last

theorem Span.pairwise_days (s : Span) : s.days.Pairwise (· < ·) :=
  (pairwise_daysOfMonth s.first).filter _

/-- A span that lies within one month. -/
def Span.WithinMonth (s : Span) : Prop :=
  s.first.year = s.last.year ∧ s.first.month = s.last.month

/-- The days of a span are those from its first to its last. -/
theorem Span.mem_days {s : Span} (h : s.WithinMonth) {x : Day} :
    x ∈ s.days ↔ s.first ≤ x ∧ x ≤ s.last := by
  rw [days, List.mem_filter, mem_daysOfMonth, decide_eq_true_iff]
  refine ⟨And.right, fun hx => ⟨?_, hx⟩⟩
  obtain ⟨hyear, hmonth⟩ := h
  simp only [le_iff_not_lt, lt_iff] at hx
  omega

/-- The week of a day lies within its month. -/
theorem weekSpan_withinMonth (d : Day) : d.weekSpan.WithinMonth := ⟨rfl, rfl⟩

/-- The month of a day lies within itself. -/
theorem monthSpan_withinMonth (d : Day) : d.monthSpan.WithinMonth := by
  unfold monthSpan
  dsimp only
  split <;> exact ⟨rfl, rfl⟩

end Daybook.Day
