/-
Daybook.Proofs.SheetRuns — a sheet through any run of actions.

A sheet is changed in place, and an action that is refused could leave half a
change behind. It does not: the check comes before the change, so an action
either adds its item or leaves the sheet as it was (§2), and which of the two
depends on the item and the day alone. A sheet that begins empty therefore
holds nothing but what belongs on it, and all that it has accepted since it
was last cleared (§3). Main statement: `holds_afterAll`.

§1 says what belongs on the sheet of a day and which condition an item breaks
first.
-/
import Daybook.Sheet
import Mathlib.Data.List.DropRight

namespace Daybook

/-! ## §1 What belongs on a sheet -/

/-- The item may stand on the sheet of `d`. -/
def Item.Belongs (d : Day) : Item → Prop
  | .entry e => e.hours < 24 ∧ e.minutes < 60 ∧ ¬ (e.hours = 0 ∧ e.minutes = 0)
  | .holiday h => h.date = d

/-- The first condition that an item breaks on the sheet of `d`: for an entry its hours come before
its minutes, and both before the rule that it takes some time. -/
inductive Item.Breaks (d : Day) : Item → Refusal → Prop
  | hours {e : Entry} : 24 ≤ e.hours →
      Breaks d (.entry e) (.invalidEntry (.hoursOutOfRange e.hours))
  | minutes {e : Entry} : e.hours < 24 → 60 ≤ e.minutes →
      Breaks d (.entry e) (.invalidEntry (.minutesOutOfRange e.minutes))
  | time {e : Entry} : e.hours = 0 → e.minutes = 0 →
      Breaks d (.entry e) (.invalidEntry .zeroDuration)
  | day {h : Holiday} : h.date ≠ d → Breaks d (.holiday h) (.otherDay h.date d)

theorem Item.breaks_entry_iff {d : Day} {e : Entry} {r : Refusal} :
    (Item.entry e).Breaks d r ↔ ∃ v, e.violation? = some v ∧ r = .invalidEntry v := by
  unfold Entry.violation?
  constructor
  · rintro (h | ⟨hhours, hminutes⟩ | ⟨hhours, hminutes⟩)
    · exact ⟨_, if_pos h, rfl⟩
    · exact ⟨_, by rw [if_neg (by omega), if_pos hminutes], rfl⟩
    · exact ⟨_, by rw [if_neg (by omega), if_neg (by omega), if_pos ⟨hhours, hminutes⟩], rfl⟩
  · rintro ⟨v, hv, rfl⟩
    split at hv
    · next h =>
      cases hv
      exact .hours h
    · next hhours =>
      split at hv
      · next h =>
        cases hv
        exact .minutes (by omega) h
      · split at hv
        · next h =>
          cases hv
          exact .time h.1 h.2
        · cases hv

theorem Item.breaks_holiday_iff {d : Day} {h : Holiday} {r : Refusal} :
    (Item.holiday h).Breaks d r ↔ h.date ≠ d ∧ r = .otherDay h.date d := by
  constructor
  · intro hbreaks
    cases hbreaks with
    | day hdate => exact ⟨hdate, rfl⟩
  · rintro ⟨hdate, rfl⟩
    exact .day hdate

/-- An item breaks a condition exactly when it does not belong on the sheet. -/
theorem Item.exists_breaks_iff {d : Day} {item : Item} :
    (∃ r, item.Breaks d r) ↔ ¬ item.Belongs d := by
  cases item with
  | entry e =>
    rw [Belongs, ← Entry.violation?_eq_none_iff]
    simp only [breaks_entry_iff]
    cases e.violation? <;> simp
  | holiday h => simp [breaks_holiday_iff, Belongs]

namespace Sheet

/-! ## §2 One action -/

def Action.item? : Action → Option Item
  | add item => some item
  | addEntry e => some (.entry e)
  | addHoliday h => some (.holiday h)
  | clear => none

theorem Action.item?_eq_none_iff {a : Action} : a.item? = none ↔ a = .clear := by
  cases a <;> simp [item?]

/-- What a sheet that is a value yields, as it shows in place. -/
def settle (s : Sheet) : Except Refusal Sheet → Except Refusal Unit × Sheet
  | .ok t => (.ok (), t)
  | .error r => (.error r, s)

/-- Adding an entry in place is adding it to the sheet as a value. -/
theorem run_addEntry (s : Sheet) (e : Entry) :
    ((InPlace.addEntry e).run.run s).run = s.settle (s.addEntry e) := by
  unfold InPlace.addEntry Sheet.addEntry
  cases e.violation? <;> rfl

/-- Adding a holiday in place is adding it to the sheet as a value. -/
theorem run_addHoliday (s : Sheet) (h : Holiday) :
    ((InPlace.addHoliday h).run.run s).run = s.settle (s.addHoliday h) := by
  have hget : ((InPlace.addHoliday h).run.run s).run =
      ((if h.date = s.date then InPlace.push (.holiday h)
        else throw (.otherDay h.date s.date) : InPlace Unit).run.run s).run := rfl
  rw [hget, addHoliday]
  split <;> rfl

/-- In place, an item is added as it is to a sheet that is a value. -/
theorem act_of_item? {s : Sheet} {a : Action} {item : Item} (h : a.item? = some item) :
    s.act a = s.settle (s.add item) := by
  cases a with
  | add _ =>
    cases h
    cases item with
    | entry e => exact run_addEntry s e
    | holiday o => exact run_addHoliday s o
  | addEntry e =>
    cases h
    exact run_addEntry s e
  | addHoliday o =>
    cases h
    exact run_addHoliday s o
  | clear => cases h

theorem act_clear (s : Sheet) : s.act .clear = (.ok (), s.clear) := rfl

/-- A sheet takes just the items that belong on it, and puts them last. -/
theorem add_eq_ok_iff {s t : Sheet} {item : Item} :
    s.add item = .ok t ↔ item.Belongs s.date ∧ t = { s with items := s.items ++ [item] } := by
  cases item with
  | entry e =>
    rw [Item.Belongs, ← Entry.violation?_eq_none_iff, add, addEntry]
    cases e.violation? <;> simp [throw, throwThe, MonadExceptOf.throw, pure, Except.pure, eq_comm]
  | holiday h =>
    rw [Item.Belongs, add, addHoliday]
    by_cases hdate : h.date = s.date <;>
      simp [hdate, throw, throwThe, MonadExceptOf.throw, pure, Except.pure, eq_comm]

/-- A sheet refuses an item for the first thing that it breaks. -/
theorem add_eq_error_iff {s : Sheet} {item : Item} {r : Refusal} :
    s.add item = .error r ↔ item.Breaks s.date r := by
  cases item with
  | entry e =>
    rw [Item.breaks_entry_iff, add, addEntry]
    cases e.violation? <;> simp [throw, throwThe, MonadExceptOf.throw, pure, Except.pure, eq_comm]
  | holiday h =>
    rw [Item.breaks_holiday_iff, add, addHoliday]
    by_cases hdate : h.date = s.date <;>
      simp [hdate, throw, throwThe, MonadExceptOf.throw, pure, Except.pure, eq_comm]

/-- An action succeeds when it clears the sheet, or adds an item that belongs there. -/
theorem act_eq_ok_iff {s t : Sheet} {a : Action} :
    s.act a = (.ok (), t) ↔ (a = .clear ∧ t = s.clear) ∨
      ∃ item, a.item? = some item ∧ item.Belongs s.date ∧
        t = { s with items := s.items ++ [item] } := by
  cases hitem : a.item? with
  | none =>
    rw [Action.item?_eq_none_iff] at hitem
    subst hitem
    simp [act_clear, eq_comm]
  | some item =>
    have hclear : a ≠ .clear := fun h => by simp [h, Action.item?] at hitem
    simp only [act_of_item? hitem, hclear, false_and, false_or, Option.some.injEq,
      exists_eq_left', ← add_eq_ok_iff]
    cases s.add item <;> simp [settle]

/-- An action that is refused leaves the sheet as it was, and says which condition its item
breaks first. -/
theorem act_eq_error_iff {s t : Sheet} {a : Action} {r : Refusal} :
    s.act a = (.error r, t) ↔ t = s ∧ ∃ item, a.item? = some item ∧ item.Breaks s.date r := by
  cases hitem : a.item? with
  | none =>
    rw [Action.item?_eq_none_iff] at hitem
    subst hitem
    simp [act_clear]
  | some item =>
    simp only [act_of_item? hitem, Option.some.injEq, exists_eq_left', ← add_eq_error_iff]
    cases s.add item <;> simp [settle, eq_comm, and_comm]

/-! ## §3 Runs -/

/-- The sheet after actions, each on what the one before has left, refused or not. -/
def afterAll (s : Sheet) (as : List Action) : Sheet := as.foldl (fun s a => (s.act a).2) s

/-- The actions of a run, each with what came of it. -/
def history (s : Sheet) : List Action → List (Action × Except Refusal Unit)
  | [] => []
  | a :: as => (a, (s.act a).1) :: history (s.act a).2 as

def accepted? : Action × Except Refusal Unit → Option Item
  | (a, .ok ()) => a.item?
  | (_, .error _) => none

/-- What was accepted since the sheet was last cleared, in order. -/
def acceptedLast (run : List (Action × Except Refusal Unit)) : List Item :=
  (run.rtakeWhile fun step => step.1 ≠ .clear).filterMap accepted?

theorem afterAll_concat (s : Sheet) (as : List Action) (a : Action) :
    s.afterAll (as ++ [a]) = ((s.afterAll as).act a).2 := by
  simp [afterAll]

theorem history_concat (s : Sheet) (as : List Action) (a : Action) :
    s.history (as ++ [a]) = s.history as ++ [(a, ((s.afterAll as).act a).1)] := by
  induction as generalizing s with
  | nil => rfl
  | cons b as ih =>
    rw [List.cons_append, history, ih, history]
    rfl

/-- Clearing leaves nothing of what was accepted. -/
theorem acceptedLast_clear (run : List (Action × Except Refusal Unit)) (r : Except Refusal Unit) :
    acceptedLast (run ++ [(.clear, r)]) = [] := by
  simp [acceptedLast]

theorem acceptedLast_concat (run : List (Action × Except Refusal Unit)) {a : Action}
    (h : a ≠ .clear) (r : Except Refusal Unit) :
    acceptedLast (run ++ [(a, r)]) = acceptedLast run ++ (accepted? (a, r)).toList := by
  rw [acceptedLast, List.rtakeWhile_concat, if_pos (by simpa using h), List.filterMap_append]
  cases hstep : accepted? (a, r) <;> simp [acceptedLast, hstep]

/-- What a run keeps true of the sheet of `d`. -/
structure Holds (d : Day) (s : Sheet) (run : List (Action × Except Refusal Unit)) : Prop where
  date : s.date = d
  belongs : ∀ item ∈ s.items, item.Belongs d
  items : s.items = acceptedLast run

/-- One action keeps it true, whether it is refused or not. -/
theorem Holds.act {d : Day} {s : Sheet} {run : List (Action × Except Refusal Unit)}
    (h : Holds d s run) (a : Action) : Holds d (s.act a).2 (run ++ [(a, (s.act a).1)]) := by
  obtain ⟨result, t, hact⟩ : ∃ result t, s.act a = (result, t) := ⟨_, _, rfl⟩
  rw [hact]
  cases result with
  | error r =>
    obtain ⟨rfl, item, hitem, _⟩ := act_eq_error_iff.mp hact
    have hclear : a ≠ .clear := fun h => by simp [h, Action.item?] at hitem
    refine ⟨h.date, h.belongs, ?_⟩
    simpa [acceptedLast_concat _ hclear, accepted?] using h.items
  | ok u =>
    rcases act_eq_ok_iff.mp hact with ⟨rfl, rfl⟩ | ⟨item, hitem, hbelongs, rfl⟩
    · exact ⟨h.date, by simp [clear], (acceptedLast_clear run _).symm⟩
    · have hclear : a ≠ .clear := fun h => by simp [h, Action.item?] at hitem
      refine ⟨h.date, fun i hi => ?_, ?_⟩
      · rcases List.mem_append.mp hi with hi | hi
        · exact h.belongs i hi
        · rw [List.mem_singleton.mp hi]
          exact h.date ▸ hbelongs
      · simp [acceptedLast_concat _ hclear, accepted?, hitem, h.items]

/-- A sheet holds, behind any run, what was accepted since it was last cleared.
-/
theorem holds_of_run (d : Day) (as : List Action) :
    Holds d (afterAll { date := d } as) (history { date := d } as) := by
  induction as using List.reverseRecOn with
  | nil => exact ⟨rfl, by simp [afterAll], rfl⟩
  | append_singleton as a ih =>
    rw [afterAll_concat, history_concat]
    exact ih.act a

/-- No hours are expected on a day with a holiday on its sheet, and only on such a day. -/
theorem expectedHours_eq_zero_iff {s : Sheet} :
    s.expectedHours = 0 ↔ ∃ h, Item.holiday h ∈ s.items := by
  have hany : s.items.any Item.isHoliday = true ↔ ∃ h, Item.holiday h ∈ s.items := by
    rw [List.any_eq_true]
    constructor
    · rintro ⟨item, hmem, hholiday⟩
      cases item with
      | entry e => cases hholiday
      | holiday h => exact ⟨h, hmem⟩
    · rintro ⟨h, hmem⟩
      exact ⟨_, hmem, rfl⟩
  rw [← hany, expectedHours]
  split
  · next h => simp [h]
  · next h => simp [h, regularHours]

/-- **A sheet holds what belongs on it, and all that it has accepted.** After any actions on a new
sheet, refused ones among them, every entry on it takes less than a day, in whole hours and
minutes, and some time at all; every holiday is one of that day; and the items are those accepted
since the sheet was last cleared, in order. The next action adds its item, clears the sheet, or
leaves it as it is; it is refused exactly when its item does not belong there, for the condition
that the item breaks first. The hours expected are none exactly when a holiday was accepted. -/
theorem holds_afterAll (d : Day) (as : List Action) :
    let s := afterAll { date := d } as
    s.date = d ∧
    (∀ item ∈ s.items, item.Belongs d) ∧
    s.items = acceptedLast (history { date := d } as) ∧
    (∀ a t, s.act a = (.ok (), t) ↔ (a = .clear ∧ t = s.clear) ∨
      ∃ item, a.item? = some item ∧ item.Belongs d ∧
        t = { s with items := s.items ++ [item] }) ∧
    (∀ a r t, s.act a = (.error r, t) ↔
      t = s ∧ ∃ item, a.item? = some item ∧ item.Breaks d r) ∧
    (∀ item : Item, (∃ r, item.Breaks d r) ↔ ¬ item.Belongs d) ∧
    (s.expectedHours = 0 ↔ ∃ h, Item.holiday h ∈ s.items) := by
  intro s
  obtain ⟨hdate, hbelongs, hitems⟩ := holds_of_run d as
  refine ⟨hdate, hbelongs, hitems, fun a t => ?_, fun a r t => ?_, fun item => ?_, ?_⟩
  · exact hdate ▸ act_eq_ok_iff
  · exact hdate ▸ act_eq_error_iff
  · exact Item.exists_breaks_iff
  · exact expectedHours_eq_zero_iff

end Sheet

end Daybook
