/-
Daybook.Proofs.CalendarWindows — the windows of a week and of a month.

The week of a day can be found on foot: back from the day until a Monday or the
first of its month, and ahead until a Sunday or the last. Both walks end within
six days (§2), also where the calendar begins and ends, and what lies between
their ends is what the month has of the seven days from a Monday on. The last day
of a month is the day before the next month begins (§3). Main statement:
`calendar_windows` (§4).

Weekdays come from a count of days, which goes on from day to day across the
ends of months and years (§1).
-/
import Daybook.Proofs.Weeks
import Mathlib.Data.List.Perm.Subperm

namespace Daybook.Day

/-! ## §1 The day after and the day before -/

/-- The day after, if the calendar goes on. -/
def next? (d : Day) : Option Day :=
  if d.dayOfMonth < monthLength d.year d.month then ofDate? d.year d.month (d.dayOfMonth + 1)
  else if d.month < 12 then ofDate? d.year (d.month + 1) 1
  else ofDate? (d.year + 1) 1 1

/-- The day before, if the calendar has begun by then. -/
def previous? (d : Day) : Option Day :=
  if 1 < d.dayOfMonth then ofDate? d.year d.month (d.dayOfMonth - 1)
  else if 1 < d.month then ofDate? d.year (d.month - 1) (monthLength d.year (d.month - 1))
  else ofDate? (d.year - 1) 12 31

/-- Every month of the calendar has a first day. -/
theorem isDate_first {year : Int} {month : Nat} (hyear : firstYear ≤ year ∧ year ≤ lastYear)
    (hmonth : 1 ≤ month ∧ month ≤ 12) : IsDate year month 1 :=
  have hlength : 1 ≤ monthLength year month :=
    Nat.le_trans (by decide) (monthLength_bounds year month).1
  ⟨hyear.1, hyear.2, hmonth.1, hmonth.2, Nat.le_refl 1, hlength⟩

theorem daysBeforeMonth_succ (year : Int) {month : Nat} (h : 1 ≤ month) :
    daysBeforeMonth year (month + 1) = daysBeforeMonth year month + monthLength year month := by
  have hsum : ∀ m, daysBeforeMonth year m =
      ((List.range (m - 1)).map fun k => monthLength year (k + 1)).sum := fun m => by
    rw [daysBeforeMonth, List.sum, List.foldr_map]
  obtain ⟨m, rfl⟩ : ∃ m, month = m + 1 := ⟨month - 1, by omega⟩
  rw [hsum, hsum, Nat.add_sub_cancel, Nat.add_sub_cancel, List.range_succ]
  simp

/-- The Gregorian rule. -/
theorem isLeapYear_iff (year : Int) :
    isLeapYear year = true ↔ year % 4 = 0 ∧ (year % 100 ≠ 0 ∨ year % 400 = 0) := by
  simp [isLeapYear]

/-- A year is as long as its months together. -/
theorem daysBeforeYear_succ (year : Int) :
    daysBeforeYear (year + 1) = daysBeforeYear year + daysBeforeMonth year 12 + 31 := by
  have hmonths : daysBeforeMonth year 12 = if isLeapYear year then 335 else 334 := by
    simp only [daysBeforeMonth, List.range, List.range.loop, List.foldr, monthLength]
    cases isLeapYear year <;> rfl
  have hleap := isLeapYear_iff year
  rw [daysBeforeYear, daysBeforeYear, hmonths]
  split
  · next h =>
    have := hleap.mp h
    omega
  · next h =>
    rw [hleap] at h
    omega

/-- Days are counted on from one month to the next, and from one year to the next. -/
theorem number_next? {d e : Day} (h : d.next? = some e) : e.number = d.number + 1 := by
  obtain ⟨_, _, hmonth, hmonth', _, hlast⟩ := d.isDate
  rw [next?] at h
  split at h
  · obtain ⟨hyear, hm, hday⟩ := ofDate?_eq_some_iff.mp h
    rw [number, number, hyear, hm, hday]
    omega
  · next hend =>
    split at h
    · obtain ⟨hyear, hm, hday⟩ := ofDate?_eq_some_iff.mp h
      rw [number, number, hyear, hm, hday, daysBeforeMonth_succ _ hmonth]
      omega
    · obtain ⟨hyear, hm, hday⟩ := ofDate?_eq_some_iff.mp h
      have hdecember : d.month = 12 := by omega
      have hlength : monthLength d.year 12 = 31 := rfl
      have hfirst : daysBeforeMonth (d.year + 1) 1 = 0 := rfl
      rw [hdecember, hlength] at hlast hend
      rw [number, number, hyear, hm, hday, hdecember, hfirst, daysBeforeYear_succ]
      omega

/-- The day after the day before is the day. -/
theorem next?_of_previous? {d e : Day} (h : d.previous? = some e) : e.next? = some d := by
  obtain ⟨_, _, hmonth, hmonth', hfirst, hlast⟩ := d.isDate
  rw [previous?] at h
  rw [next?]
  split at h
  · obtain ⟨hyear, hm, hday⟩ := ofDate?_eq_some_iff.mp h
    rw [hyear, hm, hday, if_pos (by omega)]
    exact ofDate?_eq_some_iff.mpr ⟨rfl, rfl, by omega⟩
  · split at h
    · obtain ⟨hyear, hm, hday⟩ := ofDate?_eq_some_iff.mp h
      rw [hyear, hm, hday, if_neg (Nat.lt_irrefl _), if_pos (by omega)]
      exact ofDate?_eq_some_iff.mpr ⟨rfl, by omega, by omega⟩
    · obtain ⟨hyear, hm, hday⟩ := ofDate?_eq_some_iff.mp h
      have hlength : monthLength (d.year - 1) 12 = 31 := rfl
      rw [hyear, hm, hday, hlength, if_neg (Nat.lt_irrefl _), if_neg (Nat.lt_irrefl _)]
      exact ofDate?_eq_some_iff.mpr ⟨by omega, by omega, by omega⟩

/-- Within a month the day after is the next day of the month. -/
theorem exists_next?_of_lt {d : Day} (h : d.dayOfMonth < monthLength d.year d.month) :
    ∃ e, d.next? = some e ∧ SameMonth e d ∧ e.dayOfMonth = d.dayOfMonth + 1 := by
  refine ⟨d.withDayOfMonth (d.dayOfMonth + 1) (by omega) h, ?_, ⟨rfl, rfl⟩, rfl⟩
  rw [next?, if_pos h]
  exact ofDate?_eq_some_iff.mpr ⟨rfl, rfl, rfl⟩

theorem exists_previous?_of_lt {d : Day} (h : 1 < d.dayOfMonth) :
    ∃ e, d.previous? = some e ∧ SameMonth e d ∧ e.dayOfMonth = d.dayOfMonth - 1 := by
  have hlast := d.isDate.2.2.2.2.2
  refine ⟨d.withDayOfMonth (d.dayOfMonth - 1) (by omega) (by omega), ?_, ⟨rfl, rfl⟩, rfl⟩
  rw [previous?, if_pos h]
  exact ofDate?_eq_some_iff.mpr ⟨rfl, rfl, rfl⟩

/-- Whether the day after, if there is one, begins a month. -/
def endsMonth (d : Day) : Bool := d.next?.all (·.dayOfMonth == 1)

/-- Looking at the day after finds the last day of a month, that of the last
month included. -/
theorem endsMonth_iff (d : Day) :
    d.endsMonth = true ↔ d.dayOfMonth = monthLength d.year d.month := by
  obtain ⟨_, _, _, _, hfirst, hlast⟩ := d.isDate
  constructor
  · intro h
    by_contra hne
    obtain ⟨e, hnext, _, hday⟩ := exists_next?_of_lt (d := d) (by omega)
    simp only [endsMonth, hnext, Option.all_some, beq_iff_eq] at h
    omega
  · intro h
    rw [endsMonth, next?, if_neg (by omega), Option.all_eq_true]
    intro e he
    split at he
    · simp [(ofDate?_eq_some_iff.mp he).2.2]
    · simp [(ofDate?_eq_some_iff.mp he).2.2]

/-! ## §2 Walks -/

/-- A walk from day to day: it goes on as long as the condition holds, for so many steps, and
stops where the condition fails or the calendar ends. -/
inductive Walk (goesOn : Day → Bool) (step? : Day → Option Day) : Day → Nat → Day → Prop
  | stop {d : Day} (h : goesOn d = false) : Walk goesOn step? d 0 d
  | edge {d : Day} (h : goesOn d = true) (hstep : step? d = none) : Walk goesOn step? d 0 d
  | step {d e last : Day} {n : Nat} (h : goesOn d = true) (hstep : step? d = some e)
    (rest : Walk goesOn step? e n last) : Walk goesOn step? d (n + 1) last

/-- A walk ends in one place only. -/
theorem Walk.unique {goesOn : Day → Bool} {step? : Day → Option Day} {d last last' : Day}
    {n n' : Nat} (h : Walk goesOn step? d n last) (h' : Walk goesOn step? d n' last') :
    n = n' ∧ last = last' := by
  induction h generalizing n' with
  | stop hstop =>
    cases h' with
    | stop => exact ⟨rfl, rfl⟩
    | edge h => simp [h] at hstop
    | step h => simp [h] at hstop
  | edge hon hstep =>
    cases h' with
    | stop h => simp [h] at hon
    | edge => exact ⟨rfl, rfl⟩
    | step _ h => simp [h] at hstep
  | step hon hstep _ ih =>
    cases h' with
    | stop h => simp [h] at hon
    | edge _ h => simp [h] at hstep
    | step _ h rest =>
      rw [hstep] at h
      cases h
      obtain ⟨rfl, hlast⟩ := ih rest
      exact ⟨rfl, hlast⟩

/-- Once a walk is known to end, no other end is possible. -/
theorem Walk.iff_eq {goesOn : Day → Bool} {step? : Day → Option Day} {d last : Day} {n : Nat}
    (h : Walk goesOn step? d n last) (m : Nat) (e : Day) :
    Walk goesOn step? d m e ↔ m = n ∧ e = last := by
  refine ⟨fun h' => h'.unique h, ?_⟩
  rintro ⟨rfl, rfl⟩
  exact h

/-- A walk ends where its condition fails or the calendar ends. -/
theorem Walk.stops {goesOn : Day → Bool} {step? : Day → Option Day} {d last : Day} {n : Nat}
    (h : Walk goesOn step? d n last) : goesOn last = false ∨ step? last = none := by
  induction h with
  | stop h => exact .inl h
  | edge _ hstep => exact .inr hstep
  | step _ _ _ ih => exact ih

/-- Back to a Monday, or to the first day of the month. -/
abbrev WalksBack : Day → Nat → Day → Prop :=
  Walk (fun d => d.daysSinceMonday != 0 && d.dayOfMonth != 1) previous?

/-- Ahead to a Sunday, or to the last day of the month. -/
abbrev WalksAhead : Day → Nat → Day → Prop :=
  Walk (fun d => d.daysSinceMonday != 6 && !d.endsMonth) next?

/-- From one day to the next the weekdays go round. -/
theorem weekday_next? {d e : Day} (h : d.next? = some e) :
    (d.daysSinceMonday < 6 ∧ e.daysSinceMonday = d.daysSinceMonday + 1 ∧
        e.weekNumber = d.weekNumber) ∨
      (d.daysSinceMonday = 6 ∧ e.daysSinceMonday = 0 ∧ e.weekNumber = d.weekNumber + 1) := by
  have hnumber := number_next? h
  rw [weekNumber, weekNumber, daysSinceMonday, daysSinceMonday, hnumber]
  omega

/-- The week of a day begins where the walk back from it ends. -/
theorem walksBack_weekSpan (d : Day) : ∃ n ≤ 6, WalksBack d n d.weekSpan.first := by
  suffices h : ∀ (n : Nat) (d : Day), min d.daysSinceMonday (d.dayOfMonth - 1) = n →
      WalksBack d n d.weekSpan.first by
    have := daysSinceMonday_le d
    exact ⟨_, by omega, h _ d rfl⟩
  intro n
  induction n with
  | zero =>
    intro d hn
    have hday : 1 ≤ d.dayOfMonth := d.isDate.2.2.2.2.1
    have hself : d.weekSpan.first = d := (sameMonth_first_weekSpan d).eq_of_dayOfMonth (by
      rw [dayOfMonth_first_weekSpan]
      omega)
    rw [hself]
    refine .stop ?_
    rw [Bool.and_eq_false_iff, bne_eq_false_iff_eq, bne_eq_false_iff_eq]
    omega
  | succ n ih =>
    intro d hn
    obtain ⟨e, hstep, hmonth, hday⟩ := exists_previous?_of_lt (d := d) (by omega)
    obtain ⟨_, hweekday, hweek⟩ | ⟨_, hweekday, _⟩ := weekday_next? (next?_of_previous? hstep)
    · rw [weekSpan_eq_of_weekNumber_eq hmonth.symm hweek]
      refine .step ?_ hstep (ih e (by omega))
      simp only [Bool.and_eq_true, bne_iff_ne]
      omega
    · omega

/-- The week of a day ends where the walk ahead from it ends. -/
theorem walksAhead_weekSpan (d : Day) : ∃ n ≤ 6, WalksAhead d n d.weekSpan.last := by
  suffices h : ∀ (n : Nat) (d : Day),
      min (6 - d.daysSinceMonday) (monthLength d.year d.month - d.dayOfMonth) = n →
      WalksAhead d n d.weekSpan.last from ⟨_, by omega, h _ d rfl⟩
  intro n
  induction n with
  | zero =>
    intro d hn
    have hday : d.dayOfMonth ≤ monthLength d.year d.month := d.isDate.2.2.2.2.2
    have hsunday := daysSinceMonday_le d
    have hself : d.weekSpan.last = d := (sameMonth_last_weekSpan d).eq_of_dayOfMonth (by
      rw [dayOfMonth_last_weekSpan]
      omega)
    rw [hself]
    refine .stop ?_
    rw [Bool.and_eq_false_iff, bne_eq_false_iff_eq, Bool.not_eq_false', endsMonth_iff]
    omega
  | succ n ih =>
    intro d hn
    obtain ⟨e, hstep, hmonth, hday⟩ := exists_next?_of_lt (d := d) (by omega)
    have hlength := hmonth.monthLength_eq
    obtain ⟨_, hweekday, hweek⟩ | ⟨hsunday, _⟩ := weekday_next? hstep
    · rw [← weekSpan_eq_of_weekNumber_eq hmonth hweek]
      refine .step ?_ hstep (ih e (by omega))
      simp only [Bool.and_eq_true, bne_iff_ne, Bool.not_eq_true', ← Bool.not_eq_true,
        endsMonth_iff]
      omega
    · omega

/-! ## §3 The span of a month -/

/-- The day a month later: the same day of the next month, or its last day if it is shorter. -/
def monthLater? (d : Day) : Option Day :=
  let year := if d.month < 12 then d.year else d.year + 1
  let month := if d.month < 12 then d.month + 1 else 1
  ofDate? year month (min d.dayOfMonth (monthLength year month))

/-- No month follows the last one. -/
theorem monthLater?_eq_none {d : Day} (h : ¬ d.HasNextMonth) : d.monthLater? = none := by
  obtain ⟨hyear, hmonth⟩ := not_not.mp h
  rw [monthLater?, ofDate?_eq_none_iff, hyear, hmonth]
  rintro ⟨_, hlast, _⟩
  exact absurd hlast (by decide)

/-- The day before the first of the next month is the last of the month. -/
theorem exists_monthLater? {d : Day} (h : d.HasNextMonth) (hone : d.dayOfMonth = 1) :
    ∃ e, d.monthLater? = some e ∧ ∃ l, e.previous? = some l ∧ SameMonth l d ∧
      l.dayOfMonth = monthLength d.year d.month := by
  obtain ⟨hfirst, hlast, hmonth, hmonth', _, _⟩ := d.isDate
  have hbounds := monthLength_bounds d.year d.month
  have hnext : ∀ year month, min 1 (monthLength year month) = 1 := fun year month => by
    have := (monthLength_bounds year month).1
    omega
  rw [monthLater?, hone, hnext]
  by_cases hdecember : d.month < 12
  · have hdate : IsDate d.year (d.month + 1) 1 :=
      isDate_first ⟨hfirst, hlast⟩ ⟨by omega, hdecember⟩
    rw [if_pos hdecember, if_pos hdecember]
    refine ⟨⟨_, _, _, hdate⟩, ofDate?_eq_some_iff.mpr ⟨rfl, rfl, rfl⟩,
      d.withDayOfMonth _ (by omega) (Nat.le_refl _), ?_, ⟨rfl, rfl⟩, rfl⟩
    rw [previous?, if_neg (Nat.lt_irrefl 1), if_pos (Nat.lt_add_of_pos_left hmonth)]
    exact ofDate?_eq_some_iff.mpr ⟨rfl, rfl, rfl⟩
  · have hyear : d.year ≠ lastYear := fun heq => h ⟨heq, by omega⟩
    have hmonth : d.month = 12 := by omega
    have hdate : IsDate (d.year + 1) 1 1 :=
      isDate_first ⟨by omega, by omega⟩ ⟨Nat.le_refl 1, by decide⟩
    rw [if_neg hdecember, if_neg hdecember]
    refine ⟨⟨_, _, _, hdate⟩, ofDate?_eq_some_iff.mpr ⟨rfl, rfl, rfl⟩,
      d.withDayOfMonth _ (by omega) (Nat.le_refl _), ?_, ⟨rfl, rfl⟩, rfl⟩
    rw [previous?, if_neg (Nat.lt_irrefl 1), if_neg (Nat.lt_irrefl 1)]
    refine ofDate?_eq_some_iff.mpr ⟨?_, hmonth, ?_⟩
    · show d.year = d.year + 1 - 1
      omega
    · show monthLength d.year d.month = 31
      rw [hmonth]
      rfl

/-- The span of a month ends the day before the next month begins, or where it begins if no month
follows. -/
theorem last_monthSpan_eq (d : Day) :
    d.monthSpan.last = (d.monthSpan.first.monthLater?.bind previous?).getD d.monthSpan.first := by
  obtain ⟨hmonth, hone⟩ := first_monthSpan d
  by_cases h : d.HasNextMonth
  · have hfirst : d.monthSpan.first.HasNextMonth := by rwa [HasNextMonth, hmonth.1, hmonth.2]
    obtain ⟨e, hlater, l, hprevious, hsame, hday⟩ := exists_monthLater? hfirst hone
    obtain ⟨hlast, hlastday⟩ := last_monthSpan h
    rw [hlater, Option.bind_some, hprevious, Option.getD_some]
    refine (hlast.trans (hsame.trans hmonth).symm).eq_of_dayOfMonth ?_
    rw [hlastday, hday, hmonth.monthLength_eq]
  · have hfirst : ¬ d.monthSpan.first.HasNextMonth := by rwa [HasNextMonth, hmonth.1, hmonth.2]
    rw [monthLater?_eq_none hfirst, Option.bind_none, Option.getD_none]
    unfold monthSpan
    simp only [if_pos (not_not.mp h)]

/-! ## §4 The windows -/

/-- A clipped week has at most seven days. -/
theorem length_days_weekSpan (d : Day) : d.weekSpan.days.length ≤ 7 := by
  have hmem : ∀ x ∈ d.weekSpan.days, SameMonth x d ∧ x.weekNumber = d.weekNumber := fun x hx =>
    mem_weekSpan_iff.mp ((Span.mem_days (weekSpan_withinMonth d)).mp hx)
  have hnodup : (d.weekSpan.days.map daysSinceMonday).Nodup := by
    rw [List.nodup_iff_pairwise_ne, List.pairwise_map]
    refine (Span.pairwise_days _).imp_of_mem fun {a b} ha hb hab heq => ?_
    obtain ⟨hamonth, haweek⟩ := hmem a ha
    obtain ⟨hbmonth, hbweek⟩ := hmem b hb
    have hmonth := hamonth.trans hbmonth.symm
    have hcount := hmonth.weekNumber_sub
    rw [hmonth.lt_iff] at hab
    omega
  have hweekdays : d.weekSpan.days.map daysSinceMonday ⊆ List.range 7 := by
    intro k hk
    obtain ⟨x, _, rfl⟩ := List.mem_map.mp hk
    exact List.mem_range.mpr (Nat.lt_succ_of_le (daysSinceMonday_le x))
  simpa using (List.subperm_of_subset hnodup hweekdays).length_le

/-- The window of the week of a day. -/
structure Span.IsWeekOf (w : Span) (d : Day) : Prop where
  /-- It holds the days of the month that lie between the same Monday and Sunday. -/
  holds : ∀ x, w.first ≤ x ∧ x ≤ w.last ↔ SameMonth x d ∧ x.weekNumber = d.weekNumber
  self : w.first ≤ d ∧ d ≤ w.last
  begins : w.first.daysSinceMonday = 0 ∨ w.first.dayOfMonth = 1
  ends : w.last.daysSinceMonday = 6 ∨ w.last.dayOfMonth = monthLength d.year d.month
  atMostSeven : w.days.length ≤ 7
  /-- Going back day by day ends, and only where the window begins. -/
  back : ∃ n ≤ 6, ∀ m e, WalksBack d m e ↔ m = n ∧ e = w.first
  /-- Going ahead day by day ends, and only where the window ends. -/
  ahead : ∃ n ≤ 6, ∀ m e, WalksAhead d m e ↔ m = n ∧ e = w.last

/-- The window of the month of a day. -/
structure Span.IsMonthOf (m : Span) (d : Day) : Prop where
  holds : ∀ x, m.first ≤ x ∧ x ≤ m.last ↔ SameMonth x d
  begins : m.first.dayOfMonth = 1
  ends : m.last.dayOfMonth = monthLength d.year d.month
  /-- It holds the window of the week. -/
  week : ∀ x, d.weekSpan.first ≤ x ∧ x ≤ d.weekSpan.last → m.first ≤ x ∧ x ≤ m.last

/-- The closed form is the week. -/
theorem isWeekOf_weekSpan (d : Day) : d.weekSpan.IsWeekOf d where
  holds _ := mem_weekSpan_iff
  self := ⟨first_weekSpan_le d, le_last_weekSpan d⟩
  begins := by
    obtain ⟨_, _, hwalk⟩ := walksBack_weekSpan d
    rcases hwalk.stops with hstop | hedge
    · simpa only [Bool.and_eq_false_iff, bne_eq_false_iff_eq] using hstop
    · -- the calendar begins with the first day of a month
      have hday : 1 ≤ d.weekSpan.first.dayOfMonth := d.weekSpan.first.isDate.2.2.2.2.1
      by_contra hbegins
      obtain ⟨e, hstep, _⟩ := exists_previous?_of_lt (d := d.weekSpan.first) (by omega)
      rw [hedge] at hstep
      cases hstep
  ends := by
    obtain ⟨_, _, hwalk⟩ := walksAhead_weekSpan d
    rw [← (sameMonth_last_weekSpan d).monthLength_eq, ← endsMonth_iff]
    rcases hwalk.stops with hstop | hedge
    · simpa only [Bool.and_eq_false_iff, bne_eq_false_iff_eq, Bool.not_eq_false'] using hstop
    · exact .inr (by rw [endsMonth, hedge, Option.all_none])
  atMostSeven := length_days_weekSpan d
  back := by
    obtain ⟨n, hn, hwalk⟩ := walksBack_weekSpan d
    exact ⟨n, hn, hwalk.iff_eq⟩
  ahead := by
    obtain ⟨n, hn, hwalk⟩ := walksAhead_weekSpan d
    exact ⟨n, hn, hwalk.iff_eq⟩

/-- The window of a month is its month, unless the calendar ends with it. -/
theorem isMonthOf_monthSpan_iff (d : Day) : d.monthSpan.IsMonthOf d ↔ d.HasNextMonth := by
  constructor
  · intro h hend
    have hsame : d.monthSpan.last = d.monthSpan.first := by
      unfold monthSpan
      simp only [if_pos hend]
    have hends := h.ends
    rw [hsame, h.begins] at hends
    have := (monthLength_bounds d.year d.month).1
    omega
  · intro h
    have hholds : ∀ x, d.monthSpan.first ≤ x ∧ x ≤ d.monthSpan.last ↔ SameMonth x d := fun x => by
      rw [← Span.mem_days (monthSpan_withinMonth d), days_monthSpan h, mem_daysOfMonth, SameMonth]
    exact
      { holds := hholds
        begins := (first_monthSpan d).2
        ends := (last_monthSpan h).2
        week := fun x hx => (hholds x).mpr (mem_weekSpan_iff.mp hx).1 }

/-- **The windows of a day.** Its week is what its month has of seven days from a Monday to a
Sunday, and two days have the same week if one lies in the week of the other. Its month is a whole
one that holds the week, found as the days until the next month begins; only the last month of the
calendar is not, as none follows. -/
theorem calendar_windows (d : Day) :
    d.weekSpan.IsWeekOf d ∧
    (∀ e : Day, d.weekSpan.first ≤ e ∧ e ≤ d.weekSpan.last ↔ e.weekSpan = d.weekSpan) ∧
    (d.monthSpan.IsMonthOf d ↔ d.HasNextMonth) ∧
    d.monthSpan.last = (d.monthSpan.first.monthLater?.bind previous?).getD d.monthSpan.first := by
  refine ⟨isWeekOf_weekSpan d, fun e => ⟨fun he => ?_, fun heq => ?_⟩, isMonthOf_monthSpan_iff d,
    last_monthSpan_eq d⟩
  · obtain ⟨hmonth, hweek⟩ := mem_weekSpan_iff.mp he
    exact weekSpan_eq_of_weekNumber_eq hmonth hweek
  · rw [← heq]
    exact ⟨first_weekSpan_le e, le_last_weekSpan e⟩

/-- The last Thursday of February 2025 has a week of five days; the calendar ends with a month that
no other follows. -/
example :
    let thursday : Day := ⟨2025, 2, 27, by decide⟩
    let last : Day := ⟨262142, 12, 31, by decide⟩
    (thursday.weekdayName, thursday.weekSpan.first.dayOfMonth, thursday.weekSpan.last.dayOfMonth) =
      ("Thu", 24, 28) ∧
    last.next? = none ∧ last.monthSpan.last.dayOfMonth = 1 := by decide

end Daybook.Day
