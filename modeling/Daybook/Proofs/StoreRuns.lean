/-
Daybook.Proofs.StoreRuns — a store through any run is a map from days to two lists.

The table of rows is one way to keep, for every day, a committed and a pending
list. `Represents` ties a table to such a map; every action on the table, the
way through its file included, is an action on the map (§2), and so is a whole
run (§3), in which no row gets a number that another one had (§4). Main
statement (§5): `performAll_represents`.
-/
import Daybook.Proofs.StoreFile
import Daybook.Proofs.StoreView

namespace Daybook.Store

/-! ## §1 The map and the rows of a day -/

/-- What is done to a store. -/
inductive Action where
  | save (sheet : Sheet)
  | saveDraft (sheet : Sheet)
  /-- Closing the file and opening it again, which creates no table where there is one. -/
  | reopen

/-- Performs one action; `none` when the file cannot be read. -/
def perform (s : Store) : Action → Option Store
  | .save sheet => some (s.save sheet)
  | .saveDraft sheet => some (s.saveDraft sheet)
  | .reopen => ofBytes? s.toBytes

def performAll (s : Store) (actions : List Action) : Option Store := actions.foldlM perform s

/-- Opening leaves a table that is there as it is, its numbers included. -/
theorem perform_reopen (s : Store) : s.perform .reopen = some s := ofBytes?_toBytes s

/-- The two lists of a day. -/
structure Lists where
  committed : List Entry := []
  pending : List Entry := []

def Lists.ofKind (lists : Lists) (pending : Bool) : List Entry :=
  if pending then lists.pending else lists.committed

def Lists.dayEntries (lists : Lists) : List DayEntry :=
  lists.committed.map (⟨·, false⟩) ++ lists.pending.map (⟨·, true⟩)

/-- A map in which every day has its two lists. -/
abbrev DayMap := Day → Lists

namespace DayMap

def empty : DayMap := fun _ => {}

def set (v : DayMap) (d : Day) (lists : Lists) : DayMap := fun x => if x = d then lists else v x

/-- A save sets both lists of the day, a draft the pending one, and the way through the file
changes nothing. -/
def perform (v : DayMap) : Action → DayMap
  | .save sheet => v.set sheet.date { committed := sheet.entries, pending := sheet.entries }
  | .saveDraft sheet => v.set sheet.date { v sheet.date with pending := sheet.entries }
  | .reopen => v

def performAll (v : DayMap) (actions : List Action) : DayMap := actions.foldl perform v

end DayMap

/-- The rows that the statistics of a day are read from, in their order. -/
def dailyRows (s : Store) (d : Day) : List Row := s.spanRows d d

/-- The store holds the lists of the map, for every day. -/
structure Represents (s : Store) (v : DayMap) : Prop where
  wellFormed : s.WellFormed
  held : ∀ (d : Day) (pending : Bool), s.held d.key pending = (v d).ofKind pending

/-! ## §2 One action -/

namespace Represents

variable {s : Store} {v : DayMap}

theorem empty : Represents Store.empty DayMap.empty where
  wellFormed := wellFormed_empty
  held d pending := by cases pending <;> rfl

/-- A write that sets the lists of its day and touches no other day. -/
theorem set (h : s.Represents v) {s' : Store} (hs' : s'.WellFormed) {day : Day} {lists : Lists}
    (own : ∀ pending, s'.held day.key pending = lists.ofKind pending)
    (others : ∀ d : Day, day.key ≠ d.key → ∀ pending,
      s'.held d.key pending = s.held d.key pending) :
    s'.Represents (v.set day lists) where
  wellFormed := hs'
  held d pending := by
    by_cases hd : d = day
    · rw [hd, own, DayMap.set, if_pos rfl]
    · have hkey : day.key ≠ d.key := fun hk => hd (Day.key_inj.mp hk).symm
      rw [others d hkey, h.held, DayMap.set, if_neg hd]

/-- Saving does to the store what it does to the map. -/
theorem save (h : s.Represents v) (sheet : Sheet) :
    (s.save sheet).Represents (v.perform (.save sheet)) := by
  refine h.set (h.wellFormed.save sheet) (fun pending => ?_) fun d hd pending => ?_
  · rw [held_save, if_pos rfl]
    cases pending <;> rfl
  · rw [held_save, if_neg hd]

/-- Saving a draft does to the store what it does to the map. -/
theorem saveDraft (h : s.Represents v) (sheet : Sheet) :
    (s.saveDraft sheet).Represents (v.perform (.saveDraft sheet)) := by
  refine h.set (h.wellFormed.saveDraft sheet) (fun pending => ?_) fun d hd pending => ?_
  · rw [held_saveDraft, h.held]
    cases pending <;> simp [Lists.ofKind]
  · rw [held_saveDraft, if_neg fun h => hd h.1]

/-- Every action on the table succeeds, and is the action on the map. -/
theorem perform (h : s.Represents v) (action : Action) :
    ∃ s', s.perform action = some s' ∧ s'.Represents (v.perform action) := by
  cases action with
  | save sheet => exact ⟨_, rfl, h.save sheet⟩
  | saveDraft sheet => exact ⟨_, rfl, h.saveDraft sheet⟩
  | reopen => exact ⟨s, perform_reopen s, h⟩

/-! ## §3 Runs -/

/-- A run can be performed, and does to the store what it does to the map. -/
theorem performAll (h : s.Represents v) (actions : List Action) :
    ∃ s', s.performAll actions = some s' ∧ s'.Represents (v.performAll actions) := by
  induction actions generalizing s v with
  | nil => exact ⟨s, rfl, h⟩
  | cons action actions ih =>
    obtain ⟨next, hnext, hrepr⟩ := h.perform action
    obtain ⟨last, hlast, hrest⟩ := ih hrepr
    refine ⟨last, ?_, hrest⟩
    rw [Store.performAll, List.foldlM_cons, hnext]
    exact hlast

/-- The breakdown of a day shows its two lists. -/
theorem dayEntries_eq (h : s.Represents v) (d : Day) : s.dayEntries d = (v d).dayEntries := by
  rw [h.wellFormed.dayEntries_eq, h.held, h.held]
  rfl

end Represents

/-! ## §4 Numbers -/

/-- What a store has become: its rows are rows it had, or have numbers that it had not given. -/
structure Continues (s s' : Store) : Prop where
  nextId_le : s.nextId ≤ s'.nextId
  rows : ∀ r ∈ s'.rows, r ∈ s.rows ∨ s.nextId ≤ r.id

namespace Continues

variable {s s' s'' : Store}

theorem refl (s : Store) : s.Continues s := ⟨Nat.le_refl _, fun _ hr => .inl hr⟩

theorem trans (h : s.Continues s') (h' : s'.Continues s'') : s.Continues s'' where
  nextId_le := Nat.le_trans h.nextId_le h'.nextId_le
  rows r hr := (h'.rows r hr).elim (h.rows r) fun hle => .inr (Nat.le_trans h.nextId_le hle)

theorem keep (s : Store) (p : Row → Bool) : s.Continues (s.keep p) :=
  ⟨Nat.le_refl _, fun _ hr => .inl (List.mem_filter.mp hr).1⟩

theorem insert (s : Store) (key : Int) (pending : Bool) (items : List Item) :
    s.Continues (s.insert key pending items) := by
  induction items generalizing s with
  | nil => exact refl s
  | cons item items ih =>
    refine trans ⟨Nat.le_succ _, fun r hr => ?_⟩ (ih _)
    rcases List.mem_append.mp hr with hr | hr
    · exact .inl hr
    · rw [List.mem_singleton.mp hr, Row.id_ofItem]
      exact .inr (Nat.le_refl _)

/-- No action takes a number back or gives it twice. -/
theorem perform {action : Action} (h : s.perform action = some s') : s.Continues s' := by
  cases action with
  | save sheet =>
    cases h
    exact ((keep s _).trans (insert _ _ _ _)).trans (insert _ _ _ _)
  | saveDraft sheet =>
    cases h
    exact (keep _ _).trans (insert _ _ _ _)
  | reopen =>
    rw [perform_reopen] at h
    cases h
    exact refl _

end Continues

/-- **No number is given twice**, not even after the row that had it is gone and the file has been
opened again. -/
theorem continues_performAll {actions : List Action} {s s' : Store}
    (h : s.performAll actions = some s') : s.Continues s' := by
  induction actions generalizing s with
  | nil =>
    cases h
    exact .refl _
  | cons action actions ih =>
    rw [performAll, List.foldlM_cons] at h
    obtain ⟨next, hnext, hrest⟩ := Option.bind_eq_some_iff.mp h
    exact (Continues.perform hnext).trans (ih hrest)

/-! ## §5 The main statement -/

/-- **The store is a map from days to two lists.** Through any run of saves, drafts and ways
through the file the store can be read, and the breakdown of every day shows the committed list of
the day, then its pending list, as the same run on the map leaves them. The statistics of the day
are read from the same rows in the same order, although sorted by number alone. -/
theorem performAll_represents (actions : List Action) :
    ∃ s, empty.performAll actions = some s ∧ ∀ d : Day,
      s.dayEntries d = (DayMap.empty.performAll actions d).dayEntries ∧
      s.dailyRows d = s.dayRows d ∧
      s.daily d = (s.dayEntries d).map DayEntry.record := by
  obtain ⟨s, hs, hrepr⟩ := Represents.empty.performAll actions
  exact ⟨s, hs, fun d => ⟨hrepr.dayEntries_eq d, hrepr.wellFormed.spanRows_single d,
    hrepr.wellFormed.daily_eq d⟩⟩

end Daybook.Store
