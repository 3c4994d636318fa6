/-
Daybook.Proofs.TimersAsDebouncer — timers do what a debouncer does.

An action waits under a key as long as its task is asleep. Each step is
described by what it does to such an action: time that passes and a flush run
it, a schedule under its key and a cancellation take it, and everything else
leaves it alone. From outside the tasks are not seen: `perform_view`.

§1 what waits, §2 what a step does to what waits, §3 what is run, §4 timers are
a debouncer.
-/
import Daybook.Proofs.SoundTimers

namespace Daybook.Editor

variable {α : Type}

namespace Timers

variable {t : Timers α}

/-! ## §1 What waits -/

/-- The action of a task waits under a key until it is due. -/
structure Waits (t : Timers α) (key : String) (n due : Nat) (action : α) : Prop where
  entry : (key, n) ∈ t.table
  task : t.tasks[n]? = some { due, slot := some action }

theorem Waits.isAsleep {key : String} {n due : Nat} {action : α}
    (h : t.Waits key n due action) : t.isAsleep n = true :=
  isAsleep_iff.mpr ⟨_, h.task, rfl⟩

/-- A task that is asleep keeps an action that waits. -/
theorem Sound.waits (h : t.Sound) {n : Nat} (hn : t.isAsleep n = true) :
    ∃ key due action, t.Waits key n due action := by
  obtain ⟨key, hkey⟩ := mem_listed.mp (h.asleep n hn)
  obtain ⟨⟨due, slot, progress⟩, htask, hasleep⟩ := isAsleep_iff.mp hn
  have hfull := (h.tasks _ (List.mem_of_getElem? htask)).full hasleep
  obtain ⟨action, rfl⟩ := Option.isSome_iff_exists.mp hfull
  cases hasleep
  exact ⟨key, due, action, hkey, htask⟩

/-- A slot in the table that is full belongs to an action that waits. -/
theorem Sound.waits_of_full (h : t.Sound) {key : String} {n : Nat} {task : Task α} {action : α}
    (hkey : (key, n) ∈ t.table) (htask : t.tasks[n]? = some task)
    (hslot : task.slot = some action) : t.Waits key n task.due action := by
  rcases h.listed n (mem_listed.mpr ⟨key, hkey⟩) with hn | hn
  · obtain ⟨task', htask', hasleep⟩ := isAsleep_iff.mp hn
    rw [htask] at htask'
    cases htask'
    obtain ⟨due, slot, progress⟩ := task
    cases hslot
    cases hasleep
    exact ⟨hkey, htask⟩
  · obtain ⟨task', htask', hfinished⟩ := isFinished_iff.mp hn
    rw [htask] at htask'
    cases htask'
    have hempty := (h.tasks task (List.mem_of_getElem? htask)).empty hfinished
    rw [hslot] at hempty
    cases hempty

theorem Waits.waiting? {key : String} {n due : Nat} {action : α}
    (h : t.Waits key n due action) : t.waiting? (key, n) = some { key, due, action } := by
  simp [Timers.waiting?, h.task]

theorem Waits.run? {key : String} {n due : Nat} {action : α} (h : t.Waits key n due action)
    (time : Nat) : t.run? n time = some { number := n, time, action } := by
  simp [Timers.run?, h.task]

theorem Waits.fire? {key : String} {n due : Nat} {action : α} (h : t.Waits key n due action)
    (now : Nat) :
    t.fire? now n = if due ≤ now then some { number := n, time := due, action } else none := by
  simp [Timers.fire?, Timers.run?, Task.isDue, h.task]

/-! ## §2 What a step does to what waits -/

theorem length_remove (t : Timers α) (key : String) :
    (t.remove key).tasks.length = t.tasks.length := by
  rw [remove]
  cases t.table.lookup key with
  | none => rfl
  | some n => exact List.length_modify ..

theorem table_schedule (t : Timers α) (kind uri : String) (action : α) :
    (t.schedule kind uri action).table =
      t.sweep.table.filter (·.1 ≠ t.scope.key kind uri) ++
        [(t.scope.key kind uri, t.tasks.length)] := by
  rw [schedule, start, length_remove]
  rfl

theorem getElem?_schedule (h : t.Sound) (kind uri : String) (action : α) (n : Nat) :
    (t.schedule kind uri action).tasks[n]? =
      if n = t.tasks.length then some { due := t.now + t.window, slot := some action }
      else if (t.scope.key kind uri, n) ∈ t.sweep.table then (t.tasks[n]?).map Task.abort
      else t.tasks[n]? := by
  rw [schedule, getElem?_start, length_remove, getElem?_remove h.sweep]
  rfl

namespace Waits

variable {key : String} {n due : Nat} {action : α}

theorem lt_length (h : t.Waits key n due action) : n < t.tasks.length :=
  (List.getElem?_eq_some_iff.mp h.task).1

theorem mem_sweep (h : t.Waits key n due action) : (key, n) ∈ t.sweep.table :=
  List.mem_filter.mpr ⟨h.entry, by simp [not_isFinished h.isAsleep]⟩

theorem count (h : t.Waits key n due action) : t.sweep.Waits key n due action :=
  ⟨h.mem_sweep, h.task⟩

/-- An action that is not due goes on waiting. -/
theorem advance (h : t.Waits key n due action) {ms : Nat} (hdue : t.now + ms < due) :
    (t.advance ms).1.Waits key n due action where
  entry := h.entry
  task := by
    rw [getElem?_advance, h.task, Option.map_some, Task.wake, if_neg]
    simpa [Task.isDue] using hdue

/-- An action that is due no longer waits. -/
theorem wakes (h : t.Waits key n due action) {ms : Nat} (hdue : due ≤ t.now + ms) :
    (t.advance ms).1.isAsleep n = false := by
  simp [Timers.isAsleep, getElem?_advance, h.task, Task.wake, Task.isDue, hdue]

/-- An action under another key goes on waiting. -/
theorem schedule (h : t.Waits key n due action) (hsound : t.Sound) {kind uri : String}
    (hkey : key ≠ t.scope.key kind uri) (other : α) :
    (t.schedule kind uri other).Waits key n due action where
  entry := by
    rw [table_schedule]
    exact List.mem_append_left _ (List.mem_filter.mpr ⟨h.mem_sweep, by simpa using hkey⟩)
  task := by
    have hfree : (t.scope.key kind uri, n) ∉ t.sweep.table := fun hmem =>
      hkey (hsound.sweep.key_eq h.mem_sweep hmem)
    rw [getElem?_schedule hsound, if_neg (Nat.ne_of_lt h.lt_length), if_neg hfree, h.task]

/-- An action under the same key no longer waits. -/
theorem replaced (h : t.Waits key n due action) (hsound : t.Sound) {kind uri : String}
    (hkey : key = t.scope.key kind uri) (other : α) :
    (t.schedule kind uri other).isAsleep n = false := by
  have hentry : (t.scope.key kind uri, n) ∈ t.sweep.table := hkey ▸ h.mem_sweep
  rw [Timers.isAsleep, getElem?_schedule hsound, if_neg (Nat.ne_of_lt h.lt_length),
    if_pos hentry, h.task]
  rfl

end Waits

/-- An action that is scheduled waits for the window. -/
theorem waits_schedule (t : Timers α) (kind uri : String) (action : α) :
    (t.schedule kind uri action).Waits (t.scope.key kind uri) t.tasks.length (t.now + t.window)
      action where
  entry := by simp [table_schedule]
  task := by
    rw [schedule, getElem?_start, length_remove]
    exact if_pos rfl

/-- A task that is not asleep does not fall asleep again. -/
theorem isAsleep_perform (h : t.Sound) (s : Step α) {n : Nat} (hn : n < t.tasks.length)
    (hawake : t.isAsleep n = false) : (t.perform s).1.isAsleep n = false := by
  cases s with
  | schedule kind uri action =>
    show (t.schedule kind uri action).isAsleep n = false
    rw [isAsleep, getElem?_schedule h, if_neg (Nat.ne_of_lt hn)]
    split
    · cases t.tasks[n]? <;> simp
    · exact hawake
  | advance ms =>
    show (t.advance ms).1.isAsleep n = false
    rw [isAsleep, getElem?_advance]
    cases htask : t.tasks[n]? with
    | none => rfl
    | some task =>
      have hprogress : task.progress ≠ .asleep := by simpa [isAsleep, htask] using hawake
      simp only [Option.map_some, Option.any_some, Task.progress_wake]
      split <;> simp [hprogress]
  | flush => exact isAsleep_flush h n
  | cancel => exact isAsleep_cancel h n
  | count => exact hawake

/-! ## §3 What is run -/

/-- Time that passes runs what falls due, each action when it is due. -/
theorem mem_advance_snd (h : t.Sound) {ms : Nat} {r : Run α} :
    r ∈ (t.advance ms).2 ↔
      (∃ key, t.Waits key r.number r.time r.action) ∧ r.time ≤ t.now + ms := by
  obtain ⟨n, time, action⟩ := r
  simp only [advance, List.mem_filterMap, List.mem_range, fire?, run?, Option.bind_eq_some_iff]
  constructor
  · rintro ⟨m, hm, task, htask, hrun⟩
    split at hrun
    · next hdue =>
      rw [htask] at hrun
      obtain ⟨action', hslot, heq⟩ := Option.map_eq_some_iff.mp hrun
      cases heq
      simp only [Task.isDue, decide_eq_true_eq] at hdue
      have hasleep : t.isAsleep n = true := isAsleep_iff.mpr ⟨task, htask, hdue.1⟩
      obtain ⟨key, hkey⟩ := mem_listed.mp (h.asleep n hasleep)
      exact ⟨⟨key, h.waits_of_full hkey htask hslot⟩, hdue.2⟩
    · cases hrun
  · rintro ⟨⟨key, hwaits⟩, hdue⟩
    have hlt := (List.getElem?_eq_some_iff.mp hwaits.task).1
    refine ⟨n, hlt, _, hwaits.task, ?_⟩
    rw [if_pos (by simpa [Task.isDue] using hdue), hwaits.task]
    rfl

/-- A flush runs what waits. -/
theorem mem_flush_snd (h : t.Sound) {r : Run α} :
    r ∈ t.flush.2 ↔ (∃ key due, t.Waits key r.number due r.action) ∧ r.time = t.now := by
  obtain ⟨n, time, action⟩ := r
  simp only [flush_snd h, List.mem_filterMap, run?, Option.map_eq_some_iff,
    Option.bind_eq_some_iff, Prod.exists]
  constructor
  · rintro ⟨key, m, hkey, action', ⟨task, htask, hslot⟩, heq⟩
    cases heq
    exact ⟨⟨key, task.due, h.waits_of_full hkey htask hslot⟩, rfl⟩
  · rintro ⟨⟨key, due, hwaits⟩, rfl⟩
    exact ⟨key, n, hwaits.entry, action, ⟨_, hwaits.task, rfl⟩, rfl⟩

/-! ## §4 Timers are a debouncer -/

/-- The tasks that are asleep, in the order in which they were started. -/
def sleepers (t : Timers α) : List Nat := (List.range t.tasks.length).filter t.isAsleep

theorem mem_sleepers_iff (h : t.Sound) {n : Nat} : n ∈ t.sleepers ↔ t.isAsleep n = true := by
  rw [sleepers, List.mem_filter, List.mem_range]
  exact and_iff_right_of_imp fun hn => h.lt_length (h.asleep n hn)

/-- The table holds the tasks that are asleep in the order in which they were started. -/
theorem Sound.filter_listed (h : t.Sound) : t.listed.filter t.isAsleep = t.sleepers := by
  refine (h.ordered.filter _).eq_of_mem_iff (List.pairwise_lt_range.filter _) fun n => ?_
  simp only [sleepers, List.mem_filter, List.mem_range]
  exact ⟨fun hn => ⟨h.lt_length hn.1, hn.2⟩, fun hn => ⟨h.asleep n hn.2, hn.2⟩⟩

theorem filterMap_filter_isAsleep {β : Type} {g : Nat → Option β}
    (hg : ∀ n, t.isAsleep n = false → g n = none) (ns : List Nat) :
    (ns.filter t.isAsleep).filterMap g = ns.filterMap g := by
  rw [List.filterMap_filter]
  refine List.filterMap_congr fun n _ => ?_
  cases hn : t.isAsleep n with
  | true => rw [if_pos rfl]
  | false => rw [if_neg Bool.false_ne_true, hg n hn]

/-- What only tasks that are asleep contribute to, the table yields as well as all tasks do. -/
theorem Sound.filterMap_range (h : t.Sound) {β : Type} {g : Nat → Option β}
    (hg : ∀ n, t.isAsleep n = false → g n = none) :
    (List.range t.tasks.length).filterMap g = t.table.filterMap fun e => g e.2 := by
  calc (List.range t.tasks.length).filterMap g
    _ = t.sleepers.filterMap g := (filterMap_filter_isAsleep hg _).symm
    _ = t.listed.filterMap g := by rw [← h.filter_listed, filterMap_filter_isAsleep hg]
    _ = t.table.filterMap fun e => g e.2 := List.filterMap_map

/-- An entry of the table keeps an action that waits, or its task has run. -/
theorem Sound.entry_cases (h : t.Sound) {e : String × Nat} (he : e ∈ t.table) :
    (∃ due action, t.Waits e.1 e.2 due action) ∨
      t.isAsleep e.2 = false ∧ t.isFinished e.2 = true := by
  cases hasleep : t.isAsleep e.2 with
  | true =>
    obtain ⟨key, due, action, hwaits⟩ := h.waits hasleep
    have hkey : e.1 = key := h.key_eq he hwaits.entry
    exact .inl ⟨due, action, hkey ▸ hwaits⟩
  | false =>
    have hlisted := h.listed e.2 (mem_listed.mpr ⟨e.1, he⟩)
    rw [hasleep] at hlisted
    exact .inr ⟨rfl, hlisted.resolve_left Bool.false_ne_true⟩

theorem waiting?_of_not_asleep {e : String × Nat} (h : t.isAsleep e.2 = false) :
    t.waiting? e = none := by
  unfold isAsleep at h
  unfold waiting?
  cases htask : t.tasks[e.2]? with
  | none => rfl
  | some task => simp_all

theorem fire?_of_not_asleep (now : Nat) {n : Nat} (h : t.isAsleep n = false) :
    t.fire? now n = none := by
  unfold isAsleep at h
  unfold fire?
  cases htask : t.tasks[n]? with
  | none => rfl
  | some task => simp_all [Task.isDue]

theorem Sound.run?_of_finished (h : t.Sound) {n : Nat} (hn : t.isFinished n = true) (time : Nat) :
    t.run? n time = none := by
  obtain ⟨task, htask, hfinished⟩ := isFinished_iff.mp hn
  rw [run?, htask, Option.bind_some, (h.tasks task (List.mem_of_getElem? htask)).empty hfinished]
  rfl

/-- A flush runs what is asleep, in the order in which it was scheduled. -/
theorem numbers_flush (h : t.Sound) : t.flush.2.map (·.number) = t.sleepers := by
  have hnumber : ∀ n ∈ t.listed,
      (t.run? n t.now).map (·.number) = if t.isAsleep n then some n else none := by
    intro n hn
    obtain ⟨key, hkey⟩ := mem_listed.mp hn
    rcases h.entry_cases hkey with ⟨due, action, hwaits⟩ | ⟨hawake, hfinished⟩
    · simp [hwaits.run?, hwaits.isAsleep]
    · simp [h.run?_of_finished hfinished, hawake]
  calc t.flush.2.map (·.number)
    _ = t.listed.filterMap fun n => (t.run? n t.now).map (·.number) := by
      rw [flush_snd h, List.map_filterMap, listed, List.filterMap_map]
      rfl
    _ = t.listed.filter t.isAsleep := by
      rw [List.filterMap_congr hnumber, ← List.filterMap_filter, List.filterMap_some]
    _ = t.sleepers := h.filter_listed

/-- What is counted is what is asleep. -/
theorem pending_snd (h : t.Sound) : t.pending.2 = t.sleepers.length := by
  have hlisted : t.sweep.listed = t.listed.filter t.isAsleep := by
    rw [listed, table_sweep, listed, List.filter_map]
    refine congrArg _ (List.filter_congr fun e he => ?_)
    rcases h.entry_cases he with ⟨due, action, hwaits⟩ | ⟨hawake, hfinished⟩
    · simp [not_isFinished hwaits.isAsleep, hwaits.isAsleep]
    · simp [hawake, hfinished]
  rw [← h.filter_listed, ← hlisted, listed, List.length_map]
  rfl

/-- Without its tasks, a schedule is that of the debouncer. -/
theorem view_schedule (h : t.Sound) (kind uri : String) (action : α) :
    (t.schedule kind uri action).view = t.view.schedule kind uri action := by
  have hold : (t.sweep.table.filter (·.1 ≠ t.scope.key kind uri)).filterMap
      (t.schedule kind uri action).waiting? =
        t.view.waiting.filter (·.key ≠ t.scope.key kind uri) := by
    rw [view, table_sweep, List.filter_filterMap, List.filter_filter, List.filterMap_filter]
    refine List.filterMap_congr fun e he => ?_
    rcases h.entry_cases he with ⟨due, other, hwaits⟩ | ⟨hawake, hfinished⟩
    · by_cases hkey : e.1 = t.scope.key kind uri
      · simp [hwaits.waiting?, hkey, Option.filter]
      · have hafter := hwaits.schedule h hkey action
        simp [hwaits.waiting?, hafter.waiting?, hkey, not_isFinished hwaits.isAsleep,
          Option.filter]
    · simp [waiting?_of_not_asleep hawake, hfinished]
  have hnew := (waits_schedule t kind uri action).waiting?
  have hwaiting : (t.schedule kind uri action).view.waiting =
      (t.view.schedule kind uri action).waiting := by
    rw [view, table_schedule, List.filterMap_append, hold, List.filterMap_cons, hnew]
    rfl
  exact congrArg (Debouncer.mk t.window t.scope t.now) hwaiting

/-- Without its tasks, time passes as it does for the debouncer. -/
theorem view_advance (h : t.Sound) (ms : Nat) : (t.advance ms).1.view = (t.view.advance ms).1 := by
  have hwaiting : t.table.filterMap (t.advance ms).1.waiting? =
      t.view.waiting.filter (t.now + ms < ·.due) := by
    rw [view, List.filter_filterMap]
    refine List.filterMap_congr fun e he => ?_
    rcases h.entry_cases he with ⟨due, action, hwaits⟩ | ⟨hawake, _⟩
    · rcases Nat.lt_or_ge (t.now + ms) due with hdue | hdue
      · have hafter := hwaits.advance hdue
        simp [hwaits.waiting?, hafter.waiting?, hdue, Option.filter]
      · have hwoken := hwaits.wakes hdue
        simp [hwaits.waiting?, waiting?_of_not_asleep hwoken, hdue, Option.filter]
    · have hlt := h.lt_length (mem_listed.mpr ⟨e.1, he⟩)
      have hstill : (t.advance ms).1.isAsleep e.2 = false :=
        isAsleep_perform h (.advance ms) hlt hawake
      simp [waiting?_of_not_asleep hawake, waiting?_of_not_asleep hstill]
  exact congrArg (Debouncer.mk t.window t.scope (t.now + ms)) hwaiting

/-- What time runs is what the debouncer hands over, at the same times. -/
theorem timed_advance (h : t.Sound) (ms : Nat) :
    (t.advance ms).2.map (fun r => (r.time, r.action)) =
      (t.view.advance ms).2.map fun w => (w.due, w.action) := by
  have hfire : ∀ n, t.isAsleep n = false → t.fire? (t.now + ms) n = none :=
    fun n hn => fire?_of_not_asleep _ hn
  simp only [advance, Debouncer.advance, view]
  rw [h.filterMap_range hfire, List.filter_filterMap, List.map_filterMap, List.map_filterMap]
  refine List.filterMap_congr fun e he => ?_
  rcases h.entry_cases he with ⟨due, action, hwaits⟩ | ⟨hawake, _⟩
  · rw [hwaits.fire?, hwaits.waiting?]
    by_cases hdue : due ≤ t.now + ms <;> simp [hdue]
  · rw [waiting?_of_not_asleep hawake, fire?_of_not_asleep _ hawake]
    rfl

/-- What a flush runs is what the debouncer hands over. -/
theorem timed_flush (h : t.Sound) :
    t.flush.2.map (fun r => (r.time, r.action)) =
      t.view.flush.2.map fun action => (t.now, action) := by
  rw [flush_snd h, Debouncer.flush, view, List.map_filterMap, List.map_map, List.map_filterMap]
  refine List.filterMap_congr fun e he => ?_
  rcases h.entry_cases he with ⟨due, action, hwaits⟩ | ⟨hawake, hfinished⟩
  · rw [hwaits.run?, hwaits.waiting?]
    rfl
  · rw [waiting?_of_not_asleep hawake, h.run?_of_finished hfinished]
    rfl

theorem view_sweep (h : t.Sound) : t.sweep.view = t.view := by
  have hwaiting : t.sweep.table.filterMap t.waiting? = t.table.filterMap t.waiting? := by
    rw [table_sweep, List.filterMap_filter]
    refine List.filterMap_congr fun e he => ?_
    rcases h.entry_cases he with ⟨due, action, hwaits⟩ | ⟨hawake, _⟩
    · simp [not_isFinished hwaits.isAsleep]
    · simp [waiting?_of_not_asleep hawake]
  exact congrArg (Debouncer.mk t.window t.scope t.now) hwaiting

/-- The timers do to what waits what a debouncer does, and hand over the same actions at the same
times. -/
theorem perform_view (h : t.Sound) (s : Step α) :
    ((t.perform s).1.view, (t.perform s).2.map fun r => (r.time, r.action)) = t.view.perform s := by
  cases s with
  | schedule kind uri action => exact congrArg (·, []) (view_schedule h kind uri action)
  | advance ms => exact Prod.ext (view_advance h ms) (timed_advance h ms)
  | flush =>
    refine Prod.ext ?_ (timed_flush h)
    show t.flush.1.view = t.view.flush.1
    rw [flush_fst]
    rfl
  | cancel => rfl
  | count => exact congrArg (·, []) (view_sweep h)

end Timers

end Daybook.Editor
