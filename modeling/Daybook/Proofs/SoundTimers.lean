/-
Daybook.Proofs.SoundTimers — tasks and slots keep what waits.

A task that is asleep has its action in its slot and stands in the table, so
whoever takes an action, the task or a flush, takes it from a full slot and
leaves an empty one. A task that has run may stand in the table until it is
swept, but its slot is empty. Every step keeps it so: `Sound.perform`.

§1 tasks, §2 what a step does to a task, §3 sound timers, §4 steps keep timers
sound.
-/
import Daybook.Editor.Timers
import Mathlib.Data.List.Sort

namespace Daybook.Editor

variable {α : Type}

/-! ## §1 Tasks -/

namespace Task

variable {task : Task α}

/-- A task that is asleep has something to run, and one that has run has nothing left. -/
structure Sound (task : Task α) : Prop where
  full : task.progress = .asleep → task.slot.isSome
  empty : task.progress = .finished → task.slot = none

@[simp] theorem progress_abort_ne (task : Task α) : task.abort.progress ≠ .asleep := by
  unfold abort
  split
  · simp
  · assumption

@[simp] theorem progress_overtake_ne (task : Task α) : task.overtake.progress ≠ .asleep :=
  progress_abort_ne task

theorem progress_wake (now : Nat) (task : Task α) :
    (task.wake now).progress = if task.isDue now then .finished else task.progress := by
  unfold wake
  split <;> rfl

theorem Sound.abort (h : task.Sound) : task.abort.Sound := by
  unfold Task.abort
  split
  · exact ⟨by simp, by simp⟩
  · exact h

theorem Sound.wake (h : task.Sound) (now : Nat) : (task.wake now).Sound := by
  unfold Task.wake
  split
  · exact ⟨by simp, by simp⟩
  · exact h

theorem sound_overtake (task : Task α) : task.overtake.Sound :=
  ⟨fun hasleep => absurd hasleep (progress_overtake_ne task), fun _ => rfl⟩

theorem abort_abort (task : Task α) : task.abort.abort = task.abort := by
  rw [Task.abort, if_neg (progress_abort_ne task)]

theorem overtake_overtake (task : Task α) : task.overtake.overtake = task.overtake := by
  rw [Task.overtake, Task.abort, if_neg (progress_overtake_ne task)]
  rfl

/-- Tasks of which some are changed stay sound. -/
theorem forall_sound_of_changed {tasks changed : List (Task α)} {f : Task α → Task α}
    {p : Nat → Prop} [DecidablePred p] (hf : ∀ task, task.Sound → (f task).Sound)
    (hchanged : ∀ n, changed[n]? = if p n then (tasks[n]?).map f else tasks[n]?)
    (h : ∀ task ∈ tasks, task.Sound) : ∀ task ∈ changed, task.Sound := by
  intro task htask
  obtain ⟨n, hn⟩ := List.mem_iff_getElem?.mp htask
  rw [hchanged] at hn
  split at hn
  · obtain ⟨old, hold, rfl⟩ := Option.map_eq_some_iff.mp hn
    exact hf old (h old (List.mem_of_getElem? hold))
  · exact h task (List.mem_of_getElem? hn)

end Task

namespace Timers

variable {t : Timers α}

/-! ## §2 What a step does to a task -/

def listed (t : Timers α) : List Nat := t.table.map (·.2)

theorem mem_listed {n : Nat} : n ∈ t.listed ↔ ∃ key, (key, n) ∈ t.table := by
  simp [listed]

theorem isAsleep_iff {n : Nat} :
    t.isAsleep n = true ↔ ∃ task, t.tasks[n]? = some task ∧ task.progress = .asleep := by
  simp [isAsleep, Option.any_eq_true_iff_get, Option.eq_some_iff_get_eq]

theorem isFinished_iff {n : Nat} :
    t.isFinished n = true ↔ ∃ task, t.tasks[n]? = some task ∧ task.progress = .finished := by
  simp [isFinished, Option.any_eq_true_iff_get, Option.eq_some_iff_get_eq]

theorem not_isFinished {n : Nat} (h : t.isAsleep n = true) : t.isFinished n = false := by
  obtain ⟨task, htask, hasleep⟩ := isAsleep_iff.mp h
  simp [isFinished, htask, hasleep]

/-- Changing the tasks of some entries changes each of them once, if twice is no more than once. -/
theorem getElem?_modifyAll {f : Task α → Task α} (hf : ∀ task, f (f task) = f task)
    (tasks : List (Task α)) (entries : List (String × Nat)) (n : Nat) :
    (entries.foldl (fun tasks e => tasks.modify e.2 f) tasks)[n]? =
      if n ∈ entries.map (·.2) then (tasks[n]?).map f else tasks[n]? := by
  induction entries generalizing tasks with
  | nil => simp
  | cons e entries ih =>
    rw [List.foldl_cons, ih, List.getElem?_modify, List.map_cons]
    by_cases he : e.2 = n
    · simp [he, Function.comp_def, hf]
    · simp only [if_neg he, List.mem_cons, Ne.symm he, false_or, id_map']

theorem length_modifyAll (f : Task α → Task α) (tasks : List (Task α))
    (entries : List (String × Nat)) :
    (entries.foldl (fun tasks e => tasks.modify e.2 f) tasks).length = tasks.length := by
  induction entries generalizing tasks with
  | nil => rfl
  | cons e entries ih => rw [List.foldl_cons, ih, List.length_modify]

theorem overtakeAll_fst (t : Timers α) (entries : List (String × Nat)) :
    (t.overtakeAll entries).1 =
      { t with
        tasks := entries.foldl (fun tasks e => tasks.modify e.2 Task.overtake) t.tasks } := by
  induction entries generalizing t with
  | nil => rfl
  | cons e entries ih => exact ih _

/-- Each task of the entries runs what is in its slot, if no task is met twice. -/
theorem overtakeAll_snd (t : Timers α) {entries : List (String × Nat)}
    (h : (entries.map (·.2)).Nodup) :
    (t.overtakeAll entries).2 = entries.filterMap fun e => t.run? e.2 t.now := by
  induction entries generalizing t with
  | nil => rfl
  | cons e entries ih =>
    rw [List.map_cons, List.nodup_cons] at h
    have hrest := ih { t with tasks := t.tasks.modify e.2 Task.overtake } h.2
    have hmore : entries.filterMap
        (fun e' => run? { t with tasks := t.tasks.modify e.2 Task.overtake } e'.2 t.now) =
          entries.filterMap fun e' => t.run? e'.2 t.now := by
      refine List.filterMap_congr fun e' he' => ?_
      have hne : e.2 ≠ e'.2 := fun heq => h.1 (heq ▸ List.mem_map_of_mem he')
      simp [run?, hne]
    rw [List.filterMap_cons, ← hmore, overtakeAll]
    show (t.run? e.2 t.now).toList ++ _ = _
    rw [hrest]
    cases t.run? e.2 t.now <;> rfl

/-! ## §3 Sound timers -/

/-- The table holds every task that is asleep, each under one key, and otherwise only tasks that
have run; the later a task was started, the further back it stands. -/
structure Sound (t : Timers α) : Prop where
  tasks : ∀ task ∈ t.tasks, task.Sound
  ordered : t.listed.Pairwise (· < ·)
  keys : (t.table.map (·.1)).Nodup
  listed : ∀ n ∈ t.listed, t.isAsleep n = true ∨ t.isFinished n = true
  asleep : ∀ n, t.isAsleep n = true → n ∈ t.listed

/-- Timers that nothing was done with yet. -/
def fresh (window : Nat) (scope : Scope) : Timers α := { window, scope }

theorem sound_fresh (window : Nat) (scope : Scope) : (fresh window scope : Timers α).Sound where
  tasks := by simp [fresh]
  ordered := by simp [fresh, Timers.listed]
  keys := by simp [fresh]
  listed := by simp [fresh, Timers.listed]
  asleep := by simp [fresh, isAsleep]

theorem table_sweep (t : Timers α) :
    t.sweep.table = t.table.filter fun e => !t.isFinished e.2 := rfl

namespace Sound

theorem lt_length (h : t.Sound) {n : Nat} (hn : n ∈ t.listed) : n < t.tasks.length := by
  have hsome : ∃ task, t.tasks[n]? = some task := by
    rcases h.listed n hn with hn | hn
    · obtain ⟨task, htask, _⟩ := isAsleep_iff.mp hn
      exact ⟨task, htask⟩
    · obtain ⟨task, htask, _⟩ := isFinished_iff.mp hn
      exact ⟨task, htask⟩
  obtain ⟨task, htask⟩ := hsome
  exact (List.getElem?_eq_some_iff.mp htask).1

theorem nodup (h : t.Sound) : t.listed.Nodup := h.ordered.imp Nat.ne_of_lt

/-- A task stands under one key only. -/
theorem key_eq (h : t.Sound) {key key' : String} {n : Nat} (hk : (key, n) ∈ t.table)
    (hk' : (key', n) ∈ t.table) : key = key' :=
  congrArg Prod.fst (List.inj_on_of_nodup_map h.nodup hk hk' rfl)

/-- A key has one task only. -/
theorem number_eq (h : t.Sound) {key : String} {m n : Nat} (hm : (key, m) ∈ t.table)
    (hn : (key, n) ∈ t.table) : m = n :=
  congrArg Prod.snd (List.inj_on_of_nodup_map h.keys hm hn rfl)

theorem sweep (h : t.Sound) : t.sweep.Sound where
  tasks := h.tasks
  ordered := h.ordered.sublist (List.filter_sublist.map _)
  keys := h.keys.sublist (List.filter_sublist.map _)
  listed n hn := h.listed n ((List.filter_sublist.map _).subset hn)
  asleep n hn := by
    obtain ⟨key, hkey⟩ := mem_listed.mp (h.asleep n hn)
    have hnot : t.isFinished n = false := not_isFinished hn
    exact mem_listed.mpr ⟨key, List.mem_filter.mpr ⟨hkey, by simpa using hnot⟩⟩

end Sound

theorem getElem?_remove (h : t.Sound) (key : String) (n : Nat) :
    (t.remove key).tasks[n]? =
      if (key, n) ∈ t.table then (t.tasks[n]?).map Task.abort else t.tasks[n]? := by
  rw [remove]
  cases hlookup : t.table.lookup key with
  | none =>
    have habsent : (key, n) ∉ t.table := fun hmem => by
      simpa using List.lookup_eq_none_iff.mp hlookup _ hmem
    rw [if_neg habsent, Option.elim_none]
  | some m =>
    obtain ⟨front, back, htable, _⟩ := List.lookup_eq_some_iff.mp hlookup
    have hmem : (key, m) ∈ t.table := by simp [htable]
    have hiff : m = n ↔ (key, n) ∈ t.table :=
      ⟨fun heq => heq ▸ hmem, fun hn => h.number_eq hmem hn⟩
    simp only [Option.elim_some, List.getElem?_modify, hiff]
    split <;> simp

namespace Sound

theorem remove (h : t.Sound) (key : String) : (t.remove key).Sound where
  tasks :=
    Task.forall_sound_of_changed (fun _ => Task.Sound.abort) (getElem?_remove h key) h.tasks
  ordered := h.ordered.sublist (List.filter_sublist.map _)
  keys := h.keys.sublist (List.filter_sublist.map _)
  listed n hn := by
    obtain ⟨key', hkey'⟩ := mem_listed.mp hn
    rw [Timers.remove, List.mem_filter] at hkey'
    have hother : (key, n) ∉ t.table := fun hmem => by
      simpa [h.key_eq hkey'.1 hmem] using hkey'.2
    rw [isAsleep, isFinished, getElem?_remove h, if_neg hother]
    exact h.listed n (mem_listed.mpr ⟨key', hkey'.1⟩)
  asleep n hn := by
    obtain ⟨task, htask, hasleep⟩ := isAsleep_iff.mp hn
    rw [getElem?_remove h] at htask
    split at htask
    · obtain ⟨old, _, rfl⟩ := Option.map_eq_some_iff.mp htask
      exact absurd hasleep old.progress_abort_ne
    · next hother =>
      obtain ⟨key', hkey'⟩ := mem_listed.mp (h.asleep n (isAsleep_iff.mpr ⟨task, htask, hasleep⟩))
      refine mem_listed.mpr ⟨key', ?_⟩
      rw [Timers.remove, List.mem_filter]
      refine ⟨hkey', ?_⟩
      have hne : key' ≠ key := fun heq => hother (heq ▸ hkey')
      simpa using hne

end Sound

theorem getElem?_start (t : Timers α) (key : String) (action : α) (n : Nat) :
    (t.start key action).tasks[n]? =
      if n = t.tasks.length then some { due := t.now + t.window, slot := some action }
      else t.tasks[n]? := by
  rw [start, List.getElem?_append]
  rcases Nat.lt_trichotomy n t.tasks.length with hlt | rfl | hgt
  · rw [if_pos hlt, if_neg (Nat.ne_of_lt hlt)]
  · simp
  · rw [if_neg (Nat.lt_asymm hgt), if_neg (Nat.ne_of_gt hgt),
      List.getElem?_eq_none (Nat.le_of_lt hgt), List.getElem?_eq_none]
    simp
    omega

theorem mem_listed_start (t : Timers α) (key : String) (action : α) (n : Nat) :
    n ∈ (t.start key action).listed ↔ n ∈ t.listed ∨ n = t.tasks.length := by
  simp [listed, start, or_comm, eq_comm]

namespace Sound

theorem start (h : t.Sound) {key : String} (hkey : ∀ n, (key, n) ∉ t.table) (action : α) :
    (t.start key action).Sound where
  tasks task htask := by
    rcases List.mem_append.mp htask with htask | htask
    · exact h.tasks task htask
    · rw [List.mem_singleton.mp htask]
      exact ⟨fun _ => rfl, fun hfinished => by cases hfinished⟩
  ordered := by
    simp only [Timers.listed, Timers.start, List.map_append, List.pairwise_append]
    refine ⟨h.ordered, by simp, ?_⟩
    intro n hn m hm
    rw [List.map_singleton, List.mem_singleton] at hm
    rw [hm]
    exact h.lt_length hn
  keys := by
    simp only [Timers.start, List.map_append, List.nodup_append]
    refine ⟨h.keys, by simp, ?_⟩
    intro k hk k' hk' heq
    rw [List.map_singleton, List.mem_singleton] at hk'
    obtain ⟨e, he, rfl⟩ := List.mem_map.mp hk
    have hsame : e.1 = key := heq.trans hk'
    exact hkey e.2 (hsame ▸ he)
  listed n hn := by
    rcases (mem_listed_start ..).mp hn with hold | rfl
    · have hne := Nat.ne_of_lt (h.lt_length hold)
      rw [isAsleep, isFinished, getElem?_start, if_neg hne]
      exact h.listed n hold
    · simp [isAsleep, getElem?_start]
  asleep n hn := by
    rw [mem_listed_start]
    by_cases hlast : n = t.tasks.length
    · exact .inr hlast
    · rw [isAsleep, getElem?_start, if_neg hlast] at hn
      exact .inl (h.asleep n hn)

end Sound

/-! ## §4 Steps keep timers sound -/

section dismiss

variable {f : Task α → Task α}

theorem getElem?_dismiss (hf : ∀ task, f (f task) = f task) (t : Timers α) (n : Nat) :
    (t.dismiss f).tasks[n]? =
      if n ∈ t.listed then (t.tasks[n]?).map f else t.tasks[n]? :=
  getElem?_modifyAll hf t.tasks t.table n

/-- No task is asleep that was dismissed, if none is changed into one that is. -/
theorem isAsleep_dismiss (hf : ∀ task, f (f task) = f task)
    (hawake : ∀ task, (f task).progress ≠ .asleep) (h : t.Sound) (n : Nat) :
    (t.dismiss f).isAsleep n = false := by
  rw [isAsleep, getElem?_dismiss hf]
  split
  · cases t.tasks[n]? <;> simp [hawake]
  · next hn => exact Bool.eq_false_iff.mpr fun hasleep => hn (h.asleep n hasleep)

theorem Sound.dismiss (hf : ∀ task, f (f task) = f task)
    (hawake : ∀ task, (f task).progress ≠ .asleep)
    (hsound : ∀ task : Task α, task.Sound → (f task).Sound) (h : t.Sound) :
    (t.dismiss f).Sound where
  tasks := Task.forall_sound_of_changed hsound (getElem?_dismiss hf t) h.tasks
  ordered := List.Pairwise.nil
  keys := List.Pairwise.nil
  listed _ hn := absurd hn List.not_mem_nil
  asleep n hn := by simp [isAsleep_dismiss hf hawake h] at hn

end dismiss

theorem getElem?_advance (t : Timers α) (ms n : Nat) :
    (t.advance ms).1.tasks[n]? = (t.tasks[n]?).map (Task.wake (t.now + ms)) :=
  List.getElem?_map

theorem flush_fst (t : Timers α) : t.flush.1 = t.dismiss Task.overtake :=
  overtakeAll_fst { t with table := [] } t.table

/-- A flush runs what still waits under the entries of the table, in their
order. -/
theorem flush_snd (h : t.Sound) : t.flush.2 = t.table.filterMap fun e => t.run? e.2 t.now :=
  overtakeAll_snd { t with table := [] } h.nodup

/-- No task is asleep behind a flush. -/
theorem isAsleep_flush (h : t.Sound) (n : Nat) : t.flush.1.isAsleep n = false := by
  rw [flush_fst]
  exact isAsleep_dismiss Task.overtake_overtake Task.progress_overtake_ne h n

/-- No task is asleep behind a cancellation. -/
theorem isAsleep_cancel (h : t.Sound) (n : Nat) : t.cancel.isAsleep n = false :=
  isAsleep_dismiss Task.abort_abort Task.progress_abort_ne h n

namespace Sound

theorem schedule (h : t.Sound) (kind uri : String) (action : α) :
    (t.schedule kind uri action).Sound := by
  refine (h.sweep.remove _).start ?_ action
  intro n hn
  simp [Timers.remove] at hn

theorem advance (h : t.Sound) (ms : Nat) : (t.advance ms).1.Sound where
  tasks task htask := by
    obtain ⟨old, hold, rfl⟩ := List.mem_map.mp htask
    exact (h.tasks old hold).wake _
  ordered := h.ordered
  keys := h.keys
  listed n hn := by
    have hwoken : ∀ task, t.tasks[n]? = some task →
        (t.advance ms).1.tasks[n]? = some (task.wake (t.now + ms)) := fun task htask => by
      rw [getElem?_advance, htask, Option.map_some]
    rcases h.listed n hn with hbefore | hbefore
    · obtain ⟨task, htask, hasleep⟩ := isAsleep_iff.mp hbefore
      simp only [isAsleep_iff, isFinished_iff, hwoken task htask]
      simp only [Option.some.injEq, exists_eq_left', Task.progress_wake, hasleep]
      split <;> simp
    · obtain ⟨task, htask, hfinished⟩ := isFinished_iff.mp hbefore
      refine .inr (isFinished_iff.mpr ⟨_, hwoken task htask, ?_⟩)
      rw [Task.progress_wake, hfinished, ite_self]
  asleep n hn := by
    obtain ⟨task, htask, hasleep⟩ := isAsleep_iff.mp hn
    obtain ⟨old, hold, rfl⟩ := Option.map_eq_some_iff.mp (getElem?_advance t ms n ▸ htask)
    refine h.asleep n (isAsleep_iff.mpr ⟨old, hold, ?_⟩)
    rw [Task.progress_wake] at hasleep
    split at hasleep
    · cases hasleep
    · exact hasleep

theorem flush (h : t.Sound) : t.flush.1.Sound := by
  rw [flush_fst]
  exact h.dismiss Task.overtake_overtake Task.progress_overtake_ne fun task _ =>
    task.sound_overtake

theorem cancel (h : t.Sound) : t.cancel.Sound :=
  h.dismiss Task.abort_abort Task.progress_abort_ne fun _ => Task.Sound.abort

/-- Every step keeps timers sound. -/
theorem perform (h : t.Sound) (s : Step α) : (t.perform s).1.Sound := by
  cases s with
  | schedule kind uri action => exact h.schedule kind uri action
  | advance ms => exact h.advance ms
  | flush => exact h.flush
  | cancel => exact h.cancel
  | count => exact h.sweep

end Sound

end Timers

end Daybook.Editor
