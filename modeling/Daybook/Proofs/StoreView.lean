/-
Daybook.Proofs.StoreView — the store as two lists for every day.

`held` is what the table holds for one key and one of the two kinds of rows,
committed or pending, in the order of the rows. Writing a sheet sets the lists
of its own day and leaves all others alone (§2); the numbers of the rows grow
along the table (§3), and so the queries answer from these lists (§4).
-/
import Daybook.Proofs.Calendar
import Daybook.Store
import Mathlib.Data.List.Basic

namespace Daybook.Store

/-! ## §1 What is held -/

/-- The entries in the committed or the pending rows of a key, in the order of the rows. -/
def held (s : Store) (key : Int) (pending : Bool) : List Entry :=
  (s.rows.filter fun r => r.key = key ∧ r.pending = pending).filterMap Row.entry?

/-! ## §2 Writing -/

/-- Inserting puts entries behind those of one key and kind, and leaves all
others. -/
theorem held_insert (s : Store) (key : Int) (pending : Bool) (items : List Item) (k : Int)
    (p : Bool) :
    (s.insert key pending items).held k p =
      if key = k ∧ pending = p then s.held k p ++ items.filterMap Item.entry? else s.held k p := by
  induction items generalizing s with
  | nil => simp [insert]
  | cons item items ih =>
    rw [insert, ih]
    by_cases h : key = k ∧ pending = p
    · rw [if_pos h, if_pos h]
      cases hi : item.entry? <;> simp [held, h, hi]
    · rw [if_neg h, if_neg h]
      simp [held, h]

/-- A list of rows is kept in full or dropped in full. -/
theorem held_keep_of_true {s : Store} {keep : Row → Bool} {k : Int} {p : Bool}
    (h : ∀ r, r.key = k → r.pending = p → keep r = true) :
    (s.keep keep).held k p = s.held k p := by
  have : (s.rows.filter keep).filter (fun r => r.key = k ∧ r.pending = p) =
      s.rows.filter fun r => r.key = k ∧ r.pending = p := by
    rw [List.filter_filter]
    refine List.filter_congr fun r _ => ?_
    by_cases hr : r.key = k ∧ r.pending = p
    · simp [hr, h r hr.1 hr.2]
    · simp [hr]
  rw [held, Store.keep, this, held]

/-- Nothing is held of rows that are not kept. -/
theorem held_keep_of_false {s : Store} {keep : Row → Bool} {k : Int} {p : Bool}
    (h : ∀ r, r.key = k → r.pending = p → keep r = false) :
    (s.keep keep).held k p = [] := by
  have : (s.rows.filter keep).filter (fun r => r.key = k ∧ r.pending = p) = [] := by
    rw [List.filter_filter, List.filter_eq_nil_iff]
    intro r _ hr
    simp only [Bool.and_eq_true, decide_eq_true_iff] at hr
    exact absurd (h r hr.1.1 hr.1.2) (by simp [hr.2])
  rw [held, Store.keep, this, List.filterMap_nil]

/-- A save sets both lists of its day. -/
theorem held_save (s : Store) (sheet : Sheet) (k : Int) (p : Bool) :
    (s.save sheet).held k p = if sheet.date.key = k then sheet.entries else s.held k p := by
  rw [save, held_insert, held_insert]
  by_cases hk : sheet.date.key = k
  · subst hk
    have hdrop : (s.keep fun r => r.key ≠ sheet.date.key).held sheet.date.key p = [] :=
      held_keep_of_false fun r hr _ => by simp [hr]
    rw [hdrop]
    cases p <;> simp [Sheet.entries]
  · have hkeep : (s.keep fun r => r.key ≠ sheet.date.key).held k p = s.held k p :=
      held_keep_of_true fun r hr _ => by simpa [hr] using Ne.symm hk
    rw [hkeep]
    simp [hk]

/-- A draft sets the pending list of its day. -/
theorem held_saveDraft (s : Store) (sheet : Sheet) (k : Int) (p : Bool) :
    (s.saveDraft sheet).held k p =
      if sheet.date.key = k ∧ p = true then sheet.entries else s.held k p := by
  rw [saveDraft, held_insert]
  by_cases h : sheet.date.key = k ∧ p = true
  · obtain ⟨rfl, rfl⟩ := h
    have hdrop : (s.keep fun r => !(r.key = sheet.date.key ∧ r.pending)).held
        sheet.date.key true = [] :=
      held_keep_of_false fun r hr hp => by simp [hr, hp]
    rw [hdrop]
    simp [Sheet.entries]
  · have hkeep : (s.keep fun r => !(r.key = sheet.date.key ∧ r.pending)).held k p = s.held k p :=
      held_keep_of_true fun r hr hp => by
        subst hr hp
        have hr : ¬ (r.key = sheet.date.key ∧ r.pending = true) := fun e => h ⟨e.1.symm, e.2⟩
        rw [decide_eq_false hr, Bool.not_false]
    rw [hkeep, if_neg h, if_neg fun e => h ⟨e.1, e.2.symm⟩]

/-! ## §3 The shape of the table -/

/-- What writing keeps of the table: the numbers of the rows grow along it and have all been given
out, every row is filed under a day, and no committed row of a day stands behind a pending one. -/
structure WellFormed (s : Store) : Prop where
  ascending : s.rows.Pairwise (·.id < ·.id)
  below : ∀ r ∈ s.rows, r.id < s.nextId
  filed : ∀ r ∈ s.rows, ∃ d : Day, r.key = d.key
  committedFirst : s.rows.Pairwise fun a b => a.key = b.key → a.pending = true → b.pending = true

theorem wellFormed_empty : empty.WellFormed where
  ascending := List.Pairwise.nil
  below := by simp [empty]
  filed := by simp [empty]
  committedFirst := List.Pairwise.nil

/-- Rows may be added to a day if they are pending, or if the day has no pending row yet. -/
theorem WellFormed.insert {s : Store} (h : s.WellFormed) (d : Day) (pending : Bool)
    (items : List Item)
    (allowed : ∀ r ∈ s.rows, r.key = d.key → r.pending = true → pending = true) :
    (s.insert d.key pending items).WellFormed := by
  induction items generalizing s with
  | nil => exact h
  | cons item items ih =>
    refine ih ⟨?_, fun r hr => ?_, fun r hr => ?_, ?_⟩ fun r hr => ?_
    · refine List.pairwise_append.mpr ⟨h.ascending, List.pairwise_singleton .., ?_⟩
      intro a ha b hb
      rw [List.mem_singleton.mp hb, Row.id_ofItem]
      exact h.below a ha
    · rcases List.mem_append.mp hr with hr | hr
      · exact Nat.lt_succ_of_lt (h.below r hr)
      · rw [List.mem_singleton.mp hr, Row.id_ofItem]
        exact Nat.lt_succ_self _
    · rcases List.mem_append.mp hr with hr | hr
      · exact h.filed r hr
      · exact ⟨d, by rw [List.mem_singleton.mp hr, Row.key_ofItem]⟩
    · refine List.pairwise_append.mpr ⟨h.committedFirst, List.pairwise_singleton .., ?_⟩
      intro a ha b hb
      rw [List.mem_singleton.mp hb, Row.key_ofItem, Row.pending_ofItem]
      exact allowed a ha
    · rcases List.mem_append.mp hr with hr | hr
      · exact allowed r hr
      · rw [List.mem_singleton.mp hr, Row.pending_ofItem]
        exact fun _ hp => hp

theorem WellFormed.keep {s : Store} (h : s.WellFormed) (keep : Row → Bool) :
    (s.keep keep).WellFormed where
  ascending := h.ascending.filter _
  below r hr := h.below r (List.mem_filter.mp hr).1
  filed r hr := h.filed r (List.mem_filter.mp hr).1
  committedFirst := h.committedFirst.filter _

theorem WellFormed.save {s : Store} (h : s.WellFormed) (sheet : Sheet) :
    (s.save sheet).WellFormed := by
  refine ((h.keep _).insert sheet.date false sheet.items fun r hr hk => ?_).insert
    sheet.date true sheet.items fun _ _ _ _ => rfl
  have hne : r.key ≠ sheet.date.key := by simpa using (List.mem_filter.mp hr).2
  exact absurd hk hne

theorem WellFormed.saveDraft {s : Store} (h : s.WellFormed) (sheet : Sheet) :
    (s.saveDraft sheet).WellFormed :=
  (h.keep _).insert sheet.date true sheet.items fun _ _ _ _ => rfl

/-- A number belongs to one row. -/
theorem WellFormed.eq_of_id {s : Store} (h : s.WellFormed) {a b : Row} (ha : a ∈ s.rows)
    (hb : b ∈ s.rows) (hid : a.id = b.id) : a = b := by
  obtain ⟨i, hi, rfl⟩ := List.getElem_of_mem ha
  obtain ⟨j, hj, rfl⟩ := List.getElem_of_mem hb
  have lt_of_lt := List.pairwise_iff_getElem.mp h.ascending
  rcases Nat.lt_trichotomy i j with hij | rfl | hji
  · exact absurd hid (Nat.ne_of_lt (lt_of_lt i j hi hj hij))
  · rfl
  · exact absurd hid.symm (Nat.ne_of_lt (lt_of_lt j i hj hi hji))

/-! ## §4 The breakdown of a day -/

/-- A query sorts the rows it selects by number within some coarser order; any sorted arrangement
of them is the one it finds. -/
theorem WellFormed.sortBy_rows {s : Store} (h : s.WellFormed) {le : Row → Row → Bool}
    (total : ∀ a b, le a b = true ∨ le b a = true)
    (trans : ∀ a b c, le a b = true → le b c = true → le a c = true)
    (antisymm : ∀ a b, le a b = true → le b a = true → a.id = b.id)
    {rows sorted : List Row} (hrows : ∀ r ∈ rows, r ∈ s.rows) (hperm : sorted.Perm rows)
    (hsorted : sorted.Pairwise (le · · = true)) : Order.sortBy le rows = sorted :=
  Order.sortBy_eq_of_perm total trans hperm hsorted fun a ha b hb hab hba =>
    h.eq_of_id (hrows a ha) (hrows b hb) (antisymm a b hab hba)

theorem pendingOrder_iff {a b : Row} :
    Row.pendingOrder a b = true ↔
      (a.pending = false ∧ b.pending = true) ∨ (a.pending = b.pending ∧ a.id ≤ b.id) := by
  simp [Row.pendingOrder]

theorem key_of_mem_filter {rows : List Row} {key : Int} {r : Row}
    (hr : r ∈ rows.filter fun r => r.key = key) : r.key = key :=
  decide_eq_true_iff.mp (List.mem_filter.mp hr).2

/-- The query of a day finds its rows in their order: the committed ones stand first already. -/
theorem WellFormed.sortBy_pendingOrder {s : Store} (h : s.WellFormed) (d : Day) :
    Order.sortBy Row.pendingOrder (s.rows.filter fun r => r.key = d.key) =
      s.rows.filter fun r => r.key = d.key := by
  refine h.sortBy_rows (fun a b => ?_) (fun a b c hab hbc => ?_) (fun a b hab hba => ?_)
    (fun r hr => (List.mem_filter.mp hr).1) (List.Perm.refl _) ?_
  · rw [pendingOrder_iff, pendingOrder_iff]
    cases a.pending <;> cases b.pending <;> simp [Nat.le_total]
  · rw [pendingOrder_iff] at *
    cases ha : a.pending <;> cases hb : b.pending <;> cases hc : c.pending <;>
      simp [ha, hb, hc] at hab hbc ⊢
    all_goals omega
  · rw [pendingOrder_iff] at hab hba
    cases ha : a.pending <;> cases hb : b.pending <;> simp [ha, hb] at hab hba
    all_goals omega
  · refine ((h.ascending.and h.committedFirst).filter _).imp_of_mem fun {a b} ha hb hab => ?_
    have hkey : a.key = b.key := by rw [key_of_mem_filter ha, key_of_mem_filter hb]
    rw [pendingOrder_iff]
    cases hap : a.pending with
    | false => cases b.pending <;> simp [Nat.le_of_lt hab.1]
    | true => simp [hab.2 hkey hap, Nat.le_of_lt hab.1]

/-- In a store in order, sorting the rows of a day moves none. -/
theorem WellFormed.dayEntries_eq_filterMap {s : Store} (h : s.WellFormed) (d : Day) :
    s.dayEntries d = (s.rows.filter fun r => r.key = d.key).filterMap Row.dayEntry? := by
  rw [dayEntries, dayRows, h.sortBy_pendingOrder]

theorem pending_of_mem_filter {rows : List Row} {key : Int} {p : Bool} {r : Row}
    (hr : r ∈ rows.filter fun r => r.key = key ∧ r.pending = p) : r.pending = p := by
  have hr := (List.mem_filter.mp hr).2
  exact (decide_eq_true_iff.mp hr).2

/-- The rows of one kind, as the breakdown of a day shows them. -/
theorem filterMap_dayEntry?_filter (rows : List Row) (key : Int) (p : Bool) :
    (rows.filter fun r => r.key = key ∧ r.pending = p).filterMap Row.dayEntry? =
      ((rows.filter fun r => r.key = key ∧ r.pending = p).filterMap Row.entry?).map (⟨·, p⟩) := by
  rw [List.map_filterMap]
  refine List.filterMap_congr fun r hr => ?_
  rw [Row.dayEntry?, pending_of_mem_filter hr]

/-- A list in which no committed row follows a pending one is cut between the two kinds. -/
theorem eq_committed_append_pending {rows : List Row}
    (h : rows.Pairwise fun a b => a.pending = true → b.pending = true) :
    rows = (rows.filter fun r => r.pending = false) ++ rows.filter fun r => r.pending = true := by
  induction rows with
  | nil => rfl
  | cons r rows ih =>
    obtain ⟨hr, hrows⟩ := List.pairwise_cons.mp h
    cases hp : r.pending with
    | false =>
      rw [List.filter_cons_of_pos (by simp [hp]), List.filter_cons_of_neg (by simp [hp]),
        List.cons_append, ← ih hrows]
    | true =>
      have hall : ∀ b ∈ rows, b.pending = true := fun b hb => hr b hb hp
      have hnone : (rows.filter fun r => r.pending = false) = [] := by
        rw [List.filter_eq_nil_iff]
        intro b hb
        simp [hall b hb]
      have hsome : (rows.filter fun r => r.pending = true) = rows := by
        rw [List.filter_eq_self]
        intro b hb
        simp [hall b hb]
      rw [List.filter_cons_of_neg (by simp [hp]), List.filter_cons_of_pos (by simp [hp]), hnone,
        hsome, List.nil_append]

/-- The rows of a day are its committed ones, then its pending ones. -/
theorem WellFormed.filter_key {s : Store} (h : s.WellFormed) (d : Day) :
    (s.rows.filter fun r => r.key = d.key) =
      (s.rows.filter fun r => r.key = d.key ∧ r.pending = false) ++
        s.rows.filter fun r => r.key = d.key ∧ r.pending = true := by
  have hcut : (s.rows.filter fun r => r.key = d.key).Pairwise
      fun a b => a.pending = true → b.pending = true := by
    refine (h.committedFirst.filter _).imp_of_mem fun {a b} ha hb hab => hab ?_
    rw [key_of_mem_filter ha, key_of_mem_filter hb]
  have hsplit := eq_committed_append_pending hcut
  rw [List.filter_filter, List.filter_filter] at hsplit
  simpa [and_comm] using hsplit

/-- **The breakdown of a day** is its committed list, then its pending list. -/
theorem WellFormed.dayEntries_eq {s : Store} (h : s.WellFormed) (d : Day) :
    s.dayEntries d =
      (s.held d.key false).map (⟨·, false⟩) ++ (s.held d.key true).map (⟨·, true⟩) := by
  rw [h.dayEntries_eq_filterMap, h.filter_key, List.filterMap_append, filterMap_dayEntry?_filter,
    filterMap_dayEntry?_filter, held, held]

/-! ## §5 Spans -/

theorem filterMap_record? (rows : List Row) :
    rows.filterMap Row.record? = (rows.filterMap Row.dayEntry?).map DayEntry.record := by
  rw [List.map_filterMap]
  exact List.filterMap_congr fun r _ => r.record?_eq

theorem keyOrder_iff {a b : Row} :
    Row.keyOrder a b = true ↔ a.key < b.key ∨ (a.key = b.key ∧ a.id ≤ b.id) := by
  simp [Row.keyOrder]

/-- Selecting by a list of keys, and selecting key by key. -/
theorem filter_mem_perm_flatMap (rows : List Row) {keys : List Int} (hkeys : keys.Nodup) :
    (keys.flatMap fun k => rows.filter fun r => r.key = k).Perm
      (rows.filter fun r => r.key ∈ keys) := by
  induction keys with
  | nil => simp
  | cons k keys ih =>
    obtain ⟨hk, hkeys⟩ := List.nodup_cons.mp hkeys
    have hsplit := List.filter_append_perm (fun r : Row => decide (r.key = k))
      (rows.filter fun r => r.key ∈ k :: keys)
    have hfirst : (rows.filter fun r => r.key ∈ k :: keys).filter (fun r => decide (r.key = k)) =
        rows.filter fun r => r.key = k := by
      rw [List.filter_filter]
      exact List.filter_congr fun r _ => by by_cases h : r.key = k <;> simp [h]
    have hrest : (rows.filter fun r => r.key ∈ k :: keys).filter (fun r => !decide (r.key = k)) =
        rows.filter fun r => r.key ∈ keys := by
      rw [List.filter_filter]
      refine List.filter_congr fun r _ => ?_
      by_cases h : r.key = k
      · simp [h, hk]
      · simp [h]
    rw [hfirst, hrest] at hsplit
    exact ((ih hkeys).append_left _).trans hsplit

/-- The rows between two days are the rows of the days between them, day after day. -/
theorem WellFormed.spanRows_of_days {s : Store} (h : s.WellFormed) {first last : Day}
    {days : List Day} (hsorted : days.Pairwise (· < ·))
    (hmem : ∀ d, d ∈ days ↔ first ≤ d ∧ d ≤ last) :
    s.spanRows first last = days.flatMap s.dayRows := by
  have hdays : days.flatMap s.dayRows =
      days.flatMap fun d => s.rows.filter fun r => r.key = d.key :=
    congrArg days.flatMap (funext fun d => h.sortBy_pendingOrder d)
  rw [hdays]
  refine h.sortBy_rows (fun a b => ?_) (fun a b c hab hbc => ?_) (fun a b hab hba => ?_)
    (fun r hr => (List.mem_filter.mp hr).1) ?_ ?_
  · rw [keyOrder_iff, keyOrder_iff]
    omega
  · rw [keyOrder_iff] at *
    omega
  · rw [keyOrder_iff] at hab hba
    omega
  · have hnodup : (days.map Day.key).Nodup := by
      rw [List.nodup_iff_pairwise_ne, List.pairwise_map]
      exact hsorted.imp fun hab => Int.ne_of_lt (Day.key_lt_key.mpr hab)
    have hselect : (s.rows.filter fun r => first.key ≤ r.key ∧ r.key ≤ last.key) =
        s.rows.filter fun r => r.key ∈ days.map Day.key := by
      refine List.filter_congr fun r hr => ?_
      obtain ⟨d, hd⟩ := h.filed r hr
      have hmemKey : r.key ∈ days.map Day.key ↔ d ∈ days := by
        rw [hd, List.mem_map]
        exact ⟨fun ⟨x, hx, hxd⟩ => Day.key_inj.mp hxd ▸ hx, fun hx => ⟨d, hx, rfl⟩⟩
      rw [decide_eq_decide, hmemKey, hmem, hd, Day.key_le_key, Day.key_le_key]
    rw [hselect]
    simpa [List.flatMap_map] using filter_mem_perm_flatMap s.rows hnodup
  · rw [List.pairwise_flatMap]
    refine ⟨fun d _ => ?_, ?_⟩
    · refine (h.ascending.filter _).imp_of_mem fun {a b} ha hb hab => keyOrder_iff.mpr (Or.inr ?_)
      exact ⟨by rw [key_of_mem_filter ha, key_of_mem_filter hb], Nat.le_of_lt hab⟩
    · refine hsorted.imp fun {c d} hcd a ha b hb => keyOrder_iff.mpr (Or.inl ?_)
      rw [key_of_mem_filter ha, key_of_mem_filter hb]
      exact Day.key_lt_key.mpr hcd

/-- The rows of a span are those whose keys lie between the keys of its ends. -/
theorem mem_spanRows {s : Store} {first last : Day} {r : Row} :
    r ∈ s.spanRows first last ↔ r ∈ s.rows ∧ first.key ≤ r.key ∧ r.key ≤ last.key := by
  simp [spanRows]

/-- A single day is a span of its own. -/
theorem days_single (d : Day) : Day.Span.days ⟨d, d⟩ = [d] := by
  refine Day.eq_of_pairwise_lt (Day.Span.pairwise_days _) (List.pairwise_singleton _ d) fun x => ?_
  rw [Day.Span.mem_days ⟨rfl, rfl⟩, List.mem_singleton, ← Day.key_le_key, ← Day.key_le_key,
    ← Day.key_inj]
  dsimp only
  omega

/-- The rows of a day, in the order of the table: numbers alone sort them as its breakdown does. -/
theorem WellFormed.spanRows_single {s : Store} (h : s.WellFormed) (d : Day) :
    s.spanRows d d = s.dayRows d := by
  have hmem : ∀ x, x ∈ [d] ↔ d ≤ x ∧ x ≤ d := fun x => by
    rw [← days_single d]
    exact Day.Span.mem_days ⟨rfl, rfl⟩
  rw [h.spanRows_of_days (List.pairwise_singleton _ d) hmem, List.flatMap_singleton]

/-- The records between two days are those of the breakdowns of the days between them, in the order
of the calendar. -/
theorem WellFormed.recordsBetween_eq_of_days {s : Store} (h : s.WellFormed) {first last : Day}
    {days : List Day} (hsorted : days.Pairwise (· < ·))
    (hmem : ∀ d, d ∈ days ↔ first ≤ d ∧ d ≤ last) :
    s.recordsBetween first last = (days.flatMap s.dayEntries).map DayEntry.record := by
  rw [recordsBetween, filterMap_record?, h.spanRows_of_days hsorted hmem,
    List.filterMap_flatMap]
  rfl

/-- **The records of a span** are those of the breakdowns of its days, in the order of the
calendar. -/
theorem WellFormed.inSpan_eq {s : Store} (h : s.WellFormed) {span : Day.Span}
    (hspan : span.WithinMonth) :
    s.inSpan span = (span.days.flatMap s.dayEntries).map DayEntry.record :=
  h.recordsBetween_eq_of_days span.pairwise_days fun _ => Day.Span.mem_days hspan

/-- The records of a day are those of its breakdown, in the same order. -/
theorem WellFormed.daily_eq {s : Store} (h : s.WellFormed) (d : Day) :
    s.daily d = (s.dayEntries d).map DayEntry.record := by
  rw [daily, recordsBetween, h.spanRows_single, filterMap_record?, dayEntries]

end Daybook.Store
