/-
Daybook.Proofs.Fates — what becomes of an action that waits.

An action waits until a step takes it: time that has passed, a flush, a
cancellation, or another action under its key. Whatever takes it leaves its
task awake, and a task does not fall asleep again. So an action has one fate,
and it can be read off the steps: `Waits.hasFate_iff`.

§1 keys, §2 runs, §3 fates, §4 one step, §5 the fate of an action.
-/
import Daybook.Proofs.TimersAsDebouncer
import Daybook.Proofs.Trimming

namespace Daybook.Editor

variable {α : Type}

/-! ## §1 Keys -/

/-- Whether actions of two kinds and documents replace each other. -/
def Scope.Together (scope : Scope) (kind uri kind' uri' : String) : Prop :=
  kind = kind' ∧ (scope = .document → uri = uri')

instance (scope : Scope) (kind uri kind' uri' : String) :
    Decidable (scope.Together kind uri kind' uri') :=
  inferInstanceAs (Decidable (_ ∧ _))

/-- No kind has a colon, so the colon of a key ends the kind. -/
theorem Scope.key_eq_iff (scope : Scope) {kind kind' : String} (uri uri' : String)
    (h : ':' ∉ kind.toList) (h' : ':' ∉ kind'.toList) :
    scope.key kind uri = scope.key kind' uri' ↔ scope.Together kind uri kind' uri' := by
  cases scope with
  | everything => simp [key, Together]
  | document =>
    have hparts : ∀ (uri : String) {kind : String}, ':' ∉ kind.toList →
        ((Scope.document.key kind uri).toList.takeWhile (· ≠ ':') = kind.toList ∧
          (Scope.document.key kind uri).toList.dropWhile (· ≠ ':') = ':' :: uri.toList) := by
      intro uri kind hcolon
      have hfront : ∀ c ∈ kind.toList, decide (c ≠ ':') = true := by
        intro c hc
        have hne : c ≠ ':' := fun heq => hcolon (heq ▸ hc)
        simpa using hne
      have hback : ∀ c ∈ (':' :: uri.toList).head?, decide (c ≠ ':') = false := by simp
      have hchars : (Scope.document.key kind uri).toList = kind.toList ++ ':' :: uri.toList := by
        simp [key]
      rw [hchars]
      exact ⟨Text.takeWhile_exact hfront hback, Text.dropWhile_exact hfront hback⟩
    refine ⟨fun heq => ?_, fun htogether => ?_⟩
    · obtain ⟨hkind, huri⟩ := hparts uri h
      obtain ⟨hkind', huri'⟩ := hparts uri' h'
      rw [heq, hkind'] at hkind
      rw [heq, huri'] at huri
      refine ⟨String.toList_inj.mp hkind.symm, fun _ => ?_⟩
      exact String.toList_inj.mp (List.cons.inj huri).2.symm
    · rw [htogether.1, htogether.2 rfl]

/-! ## §2 Runs -/

namespace Step

def elapsed : Step α → Nat
  | advance ms => ms
  | _ => 0

def scheduled? : Step α → Option (String × String × α)
  | schedule kind uri action => some (kind, uri, action)
  | _ => none

/-- The kind of what is scheduled has no colon. -/
def IsPlain (s : Step α) : Prop := ∀ call ∈ s.scheduled?, ':' ∉ call.1.toList

/-- Whether a step takes an action of the given kind and document before it is due. -/
def Disturbs (scope : Scope) (kind uri : String) : Step α → Prop
  | schedule kind' uri' _ => scope.Together kind' uri' kind uri
  | flush => True
  | cancel => True
  | advance _ => False
  | count => False

/-- Whether a step is no schedule under another key. -/
def isOwn (scope : Scope) (kind uri : String) : Step α → Bool
  | schedule kind' uri' _ => scope.Together kind' uri' kind uri
  | _ => true

end Step

def elapsed : List (Step α) → Nat
  | [] => 0
  | s :: steps => s.elapsed + elapsed steps

/-- What is scheduled, in order: the number of an action is its place. -/
def scheduled (steps : List (Step α)) : List (String × String × α) :=
  steps.filterMap Step.scheduled?

@[simp] theorem scheduled_append (steps more : List (Step α)) :
    scheduled (steps ++ more) = scheduled steps ++ scheduled more := List.filterMap_append

namespace Timers

def after (t : Timers α) : List (Step α) → Timers α
  | [] => t
  | s :: steps => (t.perform s).1.after steps

/-- What some steps run, each with the step that runs it. -/
def history (t : Timers α) : List (Step α) → List (Step α × Run α)
  | [] => []
  | s :: steps => (t.perform s).2.map (s, ·) ++ (t.perform s).1.history steps

end Timers

/-- What becomes of actions that are kept without tasks, and what is handed over. -/
def Debouncer.performAll (d : Debouncer α) : List (Step α) → Debouncer α × List (Nat × α)
  | [] => (d, [])
  | s :: steps =>
    let (d', out) := d.perform s
    let (d', more) := d'.performAll steps
    (d', out ++ more)

namespace Timers

variable {t : Timers α}

@[simp] theorem window_perform (t : Timers α) (s : Step α) :
    (t.perform s).1.window = t.window := by
  cases s with
  | flush => exact (congrArg window t.flush_fst).trans rfl
  | _ => rfl

@[simp] theorem scope_perform (t : Timers α) (s : Step α) : (t.perform s).1.scope = t.scope := by
  cases s with
  | flush => exact (congrArg scope t.flush_fst).trans rfl
  | _ => rfl

@[simp] theorem now_perform (t : Timers α) (s : Step α) :
    (t.perform s).1.now = t.now + s.elapsed := by
  cases s with
  | flush => exact (congrArg now t.flush_fst).trans rfl
  | _ => rfl

theorem length_perform (t : Timers α) (s : Step α) :
    (t.perform s).1.tasks.length = t.tasks.length + (scheduled [s]).length := by
  cases s with
  | schedule kind uri action =>
    show (t.schedule kind uri action).tasks.length = _
    rw [schedule, start, List.length_append, length_remove]
    rfl
  | advance ms => exact List.length_map ..
  | flush =>
    show t.flush.1.tasks.length = _
    rw [flush_fst]
    exact length_modifyAll ..
  | cancel => exact length_modifyAll ..
  | count => rfl

theorem lt_length_perform {n : Nat} (hn : n < t.tasks.length) (s : Step α) :
    n < (t.perform s).1.tasks.length := by
  rw [length_perform]
  exact Nat.lt_add_right _ hn

theorem scope_after (t : Timers α) (steps : List (Step α)) : (t.after steps).scope = t.scope := by
  induction steps generalizing t with
  | nil => rfl
  | cons s steps ih => rw [after, ih, scope_perform]

theorem window_after (t : Timers α) (steps : List (Step α)) :
    (t.after steps).window = t.window := by
  induction steps generalizing t with
  | nil => rfl
  | cons s steps ih => rw [after, ih, window_perform]

/-- Time goes on as the steps let it pass. -/
theorem now_after (t : Timers α) (steps : List (Step α)) :
    (t.after steps).now = t.now + elapsed steps := by
  induction steps generalizing t with
  | nil => rfl
  | cons s steps ih => rw [after, ih, now_perform, elapsed, Nat.add_assoc]

/-- Every schedule starts one task. -/
theorem length_after (t : Timers α) (steps : List (Step α)) :
    (t.after steps).tasks.length = t.tasks.length + (scheduled steps).length := by
  induction steps generalizing t with
  | nil => rfl
  | cons s steps ih =>
    have hcons : scheduled (s :: steps) = scheduled [s] ++ scheduled steps :=
      scheduled_append [s] steps
    rw [after, ih, length_perform, hcons, List.length_append, Nat.add_assoc]

/-- Timers stay sound. -/
theorem Sound.after (h : t.Sound) (steps : List (Step α)) : (t.after steps).Sound := by
  induction steps generalizing t with
  | nil => exact h
  | cons s steps ih => exact ih (h.perform s)

theorem after_append (t : Timers α) (steps more : List (Step α)) :
    t.after (steps ++ more) = (t.after steps).after more := by
  induction steps generalizing t with
  | nil => rfl
  | cons s steps ih => exact ih _

/-- The history of two runs in turn. -/
theorem history_append (t : Timers α) (steps more : List (Step α)) :
    t.history (steps ++ more) = t.history steps ++ (t.after steps).history more := by
  induction steps generalizing t with
  | nil => rfl
  | cons s steps ih => rw [List.cons_append, history, ih, history, List.append_assoc, after]

/-- Step after step, timers do what a debouncer does. -/
theorem performAll_view (h : t.Sound) (steps : List (Step α)) :
    ((t.after steps).view, (t.history steps).map fun e => (e.2.time, e.2.action)) =
      t.view.performAll steps := by
  induction steps generalizing t with
  | nil => rfl
  | cons s steps ih =>
    rw [Debouncer.performAll, ← perform_view h s]
    simp only [← ih (h.perform s)]
    rw [after, history, List.map_append, List.map_map]
    rfl

end Timers

/-! ## §3 Fates -/

/-- What becomes of an action. -/
inductive Fate where
  | waiting
  /-- It was run at a time. -/
  | run (time : Nat)
  /-- Another one took its place. -/
  | superseded
  | cancelled
deriving DecidableEq, Repr

namespace Timers

/-- A step takes an action that waits: it runs the action, or the task of the action is asleep
before a schedule or a cancellation and not behind it. -/
def Settles (t : Timers α) (s : Step α) (n : Nat) : Fate → Prop
  | .waiting => False
  | .run time => ∃ action, { number := n, time, action } ∈ (t.perform s).2
  | .superseded =>
    s.scheduled?.isSome ∧ t.isAsleep n = true ∧ (t.perform s).1.isAsleep n = false
  | .cancelled => s = .cancel ∧ t.isAsleep n = true ∧ (t.perform s).1.isAsleep n = false

/-- What becomes of an action in some steps: a step takes it, or it waits behind the last one. -/
def HasFate (t : Timers α) (n : Nat) (fate : Fate) : List (Step α) → Prop
  | [] => fate = .waiting ∧ t.isAsleep n = true
  | s :: steps => t.Settles s n fate ∨ (t.perform s).1.HasFate n fate steps

end Timers

/-- How a step takes an action that waits under `key` and is due at `due`, if it does. -/
def Step.ending? (scope : Scope) (key : String) (due now : Nat) : Step α → Option Fate
  | schedule kind uri _ => if scope.key kind uri = key then some .superseded else none
  | advance ms => if due ≤ now + ms then some (.run due) else none
  | flush => some (.run now)
  | cancel => some .cancelled
  | count => none

/-- What becomes of an action that waits under `key` and is due at `due`. -/
def fateOf (scope : Scope) (key : String) (due : Nat) : Nat → List (Step α) → Fate
  | _, [] => .waiting
  | now, s :: steps =>
    (s.ending? scope key due now).getD (fateOf scope key due (now + s.elapsed) steps)

/-- A step takes nothing that it does not disturb, unless it is time that passes. -/
theorem Step.ending?_eq_none (scope : Scope) {kind : String} (hkind : ':' ∉ kind.toList)
    {s : Step α} (hs : s.IsPlain) (uri : String) (due now : Nat) :
    s.ending? scope (scope.key kind uri) due now = none ↔
      ¬ s.Disturbs scope kind uri ∧ ∀ ms, s = .advance ms → now + ms < due := by
  cases s with
  | schedule kind' uri' action =>
    have hkey := scope.key_eq_iff uri' uri (hs _ rfl) hkind
    simp [Step.ending?, Step.Disturbs, hkey]
  | advance ms => simp [Step.ending?, Step.Disturbs]
  | flush => simp [Step.ending?, Step.Disturbs]
  | cancel => simp [Step.ending?, Step.Disturbs]
  | count => simp [Step.ending?, Step.Disturbs]

/-- Time passes until `due`, and no step disturbs an action before. -/
def Undisturbed (scope : Scope) (kind uri : String) (due now : Nat) (steps : List (Step α)) :
    Prop :=
  ∃ mid ms more, steps = mid ++ .advance ms :: more ∧ due ≤ now + elapsed mid + ms ∧
    ∀ s ∈ mid, ¬ s.Disturbs scope kind uri

theorem undisturbed_nil (scope : Scope) (kind uri : String) (due now : Nat) :
    ¬ Undisturbed scope kind uri due now ([] : List (Step α)) := by
  rintro ⟨mid, ms, more, heq, _⟩
  simp at heq

theorem undisturbed_cons (scope : Scope) (kind uri : String) (due now : Nat) (s : Step α)
    (steps : List (Step α)) :
    Undisturbed scope kind uri due now (s :: steps) ↔
      (∃ ms, s = .advance ms ∧ due ≤ now + ms) ∨
        ¬ s.Disturbs scope kind uri ∧
          Undisturbed scope kind uri due (now + s.elapsed) steps := by
  constructor
  · rintro ⟨mid, ms, more, heq, hdue, hmid⟩
    cases mid with
    | nil =>
      cases heq
      exact .inl ⟨ms, rfl, hdue⟩
    | cons s' mid =>
      cases heq
      obtain ⟨hs, hmid⟩ := List.forall_mem_cons.mp hmid
      rw [elapsed, ← Nat.add_assoc] at hdue
      exact .inr ⟨hs, mid, ms, more, rfl, hdue, hmid⟩
  · rintro (⟨ms, rfl, hdue⟩ | ⟨hs, mid, ms, more, rfl, hdue, hmid⟩)
    · exact ⟨[], ms, steps, rfl, hdue, by simp⟩
    · refine ⟨s :: mid, ms, more, rfl, ?_, List.forall_mem_cons.mpr ⟨hs, hmid⟩⟩
      rwa [elapsed, ← Nat.add_assoc]

/-! ## §4 One step -/

namespace Timers

variable {t : Timers α} {key : String} {n due : Nat} {action : α}

/-- Whatever is run waits, and is not asleep any more. -/
theorem isAsleep_of_mem_perform (h : t.Sound) {s : Step α} {r : Run α}
    (hr : r ∈ (t.perform s).2) :
    t.isAsleep r.number = true ∧ (t.perform s).1.isAsleep r.number = false := by
  cases s with
  | advance ms =>
    obtain ⟨⟨key, hwaits⟩, hdue⟩ := (mem_advance_snd h).mp hr
    exact ⟨hwaits.isAsleep, hwaits.wakes hdue⟩
  | flush =>
    obtain ⟨⟨key, due, hwaits⟩, _⟩ := (mem_flush_snd h).mp hr
    exact ⟨hwaits.isAsleep, isAsleep_flush h r.number⟩
  | schedule kind uri action => cases hr
  | cancel => cases hr
  | count => cases hr

/-- A step that settles an action finds its task asleep, and leaves it
otherwise. -/
theorem Settles.isAsleep {s : Step α} {fate : Fate} (h : t.Sound) (hs : t.Settles s n fate) :
    t.isAsleep n = true ∧ (t.perform s).1.isAsleep n = false := by
  cases fate with
  | waiting => exact hs.elim
  | run time =>
    obtain ⟨action, hr⟩ := hs
    exact isAsleep_of_mem_perform h hr
  | superseded => exact hs.2
  | cancelled => exact hs.2

/-- What waits under two keys is the same. -/
theorem Waits.unique (h : t.Sound) {key' : String} {due' : Nat} {action' : α}
    (hw : t.Waits key n due action) (hw' : t.Waits key' n due' action') :
    key = key' ∧ due = due' ∧ action = action' := by
  have htask := hw.task.symm.trans hw'.task
  simp only [Option.some.injEq, Task.mk.injEq] at htask
  exact ⟨h.key_eq hw.entry hw'.entry, htask.1, htask.2.1⟩

/-- An action waits behind a step that does not take it. -/
theorem Waits.perform (h : t.Sound) (hw : t.Waits key n due action) {s : Step α}
    (hs : s.ending? t.scope key due t.now = none) : (t.perform s).1.Waits key n due action := by
  cases s with
  | schedule kind uri other =>
    simp only [Step.ending?, ite_eq_right_iff, reduceCtorEq, imp_false] at hs
    exact hw.schedule h (Ne.symm hs) other
  | advance ms =>
    simp only [Step.ending?, ite_eq_right_iff, reduceCtorEq, imp_false] at hs
    exact hw.advance (Nat.not_le.mp hs)
  | flush => cases hs
  | cancel => cases hs
  | count => exact hw.count

/-- A step that takes an action leaves its task awake. -/
theorem Waits.isAsleep_perform (h : t.Sound) (hw : t.Waits key n due action) {s : Step α}
    {fate : Fate} (hs : s.ending? t.scope key due t.now = some fate) :
    (t.perform s).1.isAsleep n = false := by
  cases s with
  | schedule kind uri other =>
    simp only [Step.ending?, Option.ite_none_right_eq_some] at hs
    exact hw.replaced h hs.1.symm other
  | advance ms =>
    simp only [Step.ending?, Option.ite_none_right_eq_some] at hs
    exact hw.wakes hs.1
  | flush => exact isAsleep_flush h n
  | cancel => exact isAsleep_cancel h n
  | count => cases hs

/-- What a step runs of an action that waits. -/
theorem Waits.mem_perform_iff (h : t.Sound) (hw : t.Waits key n due action) (s : Step α)
    {time : Nat} {other : α} :
    { number := n, time, action := other } ∈ (t.perform s).2 ↔
      s.ending? t.scope key due t.now = some (.run time) ∧ other = action := by
  cases s with
  | schedule kind uri next => simp [Timers.perform, Step.ending?]
  | advance ms =>
    simp only [Step.ending?, Option.ite_none_right_eq_some, Option.some.injEq, Fate.run.injEq]
    refine (mem_advance_snd h).trans ⟨?_, ?_⟩
    · rintro ⟨⟨key', hwaits⟩, hdue⟩
      obtain ⟨_, rfl, rfl⟩ := hw.unique h hwaits
      exact ⟨⟨hdue, rfl⟩, rfl⟩
    · rintro ⟨⟨hdue, rfl⟩, rfl⟩
      exact ⟨⟨key, hw⟩, hdue⟩
  | flush =>
    simp only [Step.ending?, Option.some.injEq, Fate.run.injEq]
    refine (mem_flush_snd h).trans ⟨?_, ?_⟩
    · rintro ⟨⟨key', due', hwaits⟩, htime⟩
      exact ⟨htime.symm, (hw.unique h hwaits).2.2.symm⟩
    · rintro ⟨rfl, rfl⟩
      exact ⟨⟨key, due, hw⟩, rfl⟩
  | cancel => simp [Timers.perform, Step.ending?]
  | count => simp [Timers.perform, Step.ending?]

/-- Whether a step supersedes an action that waits is read off the step. -/
theorem Waits.superseded_iff (h : t.Sound) (hw : t.Waits key n due action) (s : Step α) :
    t.Settles s n .superseded ↔ s.ending? t.scope key due t.now = some .superseded := by
  have hbefore := hw.isAsleep
  refine ⟨?_, fun hs => ⟨?_, hbefore, hw.isAsleep_perform h hs⟩⟩
  · rintro ⟨hcall, _, hafter⟩
    cases hending : s.ending? t.scope key due t.now with
    | none => simp [(hw.perform h hending).isAsleep] at hafter
    | some fate => cases s <;> simp_all [Step.ending?, Step.scheduled?]
  · cases s <;> simp_all [Step.ending?, Step.scheduled?]

/-- Whether a step cancels an action that waits is read off the step. -/
theorem Waits.cancelled_iff (h : t.Sound) (hw : t.Waits key n due action) (s : Step α) :
    t.Settles s n .cancelled ↔ s.ending? t.scope key due t.now = some .cancelled := by
  have hbefore := hw.isAsleep
  refine ⟨?_, fun hs => ⟨?_, hbefore, hw.isAsleep_perform h hs⟩⟩
  · rintro ⟨rfl, _⟩
    rfl
  · cases s <;> simp_all [Step.ending?]

/-- A step settles for an action that waits the one fate in which it takes it. -/
theorem Waits.settles_iff (h : t.Sound) (hw : t.Waits key n due action) (s : Step α)
    (fate : Fate) :
    t.Settles s n fate ↔ s.ending? t.scope key due t.now = some fate := by
  cases fate with
  | waiting => cases s <;> simp [Settles, Step.ending?]
  | run time => simp [Settles, hw.mem_perform_iff h]
  | superseded => exact hw.superseded_iff h s
  | cancelled => exact hw.cancelled_iff h s

/-! ## §5 The fate of an action -/

/-- Nothing becomes of an action once its task is awake. -/
theorem not_hasFate (h : t.Sound) (hn : n < t.tasks.length) (hawake : t.isAsleep n = false)
    (fate : Fate) (steps : List (Step α)) : ¬ t.HasFate n fate steps := by
  induction steps generalizing t with
  | nil =>
    rintro ⟨_, hasleep⟩
    exact Bool.false_ne_true (hawake.symm.trans hasleep)
  | cons s steps ih =>
    rintro (hs | hrest)
    · exact Bool.false_ne_true (hawake.symm.trans (hs.isAsleep h).1)
    · exact ih (h.perform s) (lt_length_perform hn s) (Timers.isAsleep_perform h s hn hawake) hrest

/-- An action that waits has one fate, and it depends on its key, its time and the steps. -/
theorem Waits.hasFate_iff (h : t.Sound) (hw : t.Waits key n due action) (fate : Fate)
    (steps : List (Step α)) :
    t.HasFate n fate steps ↔ fate = fateOf t.scope key due t.now steps := by
  induction steps generalizing t with
  | nil => exact and_iff_left hw.isAsleep
  | cons s steps ih =>
    rw [HasFate, hw.settles_iff h, fateOf]
    cases hending : s.ending? t.scope key due t.now with
    | none =>
      have hrest := ih (h.perform s) (hw.perform h hending)
      rw [scope_perform, now_perform] at hrest
      simp [hrest]
    | some settled =>
      have hover := not_hasFate (h.perform s) (lt_length_perform hw.lt_length s)
        (hw.isAsleep_perform h hending) fate steps
      simp [hover, eq_comm]

/-- An action has no fate before it is scheduled. -/
theorem hasFate_append (h : t.Sound) (fate : Fate) {before : List (Step α)}
    (hn : (t.after before).tasks.length ≤ n) (rest : List (Step α)) :
    t.HasFate n fate (before ++ rest) ↔ (t.after before).HasFate n fate rest := by
  induction before generalizing t with
  | nil => rfl
  | cons s before ih =>
    have hlate : ¬ t.Settles s n fate := fun hs => by
      have hlt := h.lt_length (h.asleep n (hs.isAsleep h).1)
      rw [length_after] at hn
      omega
    exact (or_iff_right hlate).trans (ih (h.perform s) hn)

/-- A fate that a step has settled stays. -/
theorem HasFate.append {fate : Fate} {steps : List (Step α)} (h : t.HasFate n fate steps)
    (hsettled : fate ≠ .waiting) (more : List (Step α)) : t.HasFate n fate (steps ++ more) := by
  induction steps generalizing t with
  | nil => exact absurd h.1 hsettled
  | cons s steps ih => exact h.imp id ih

theorem hasFate_waiting_iff (steps : List (Step α)) :
    t.HasFate n .waiting steps ↔ (t.after steps).isAsleep n = true := by
  induction steps generalizing t with
  | nil => exact and_iff_right rfl
  | cons s steps ih => exact (or_iff_right id).trans ih

/-- What waits behind some steps has waited all the time. -/
theorem Waits.after (h : t.Sound) (hw : t.Waits key n due action) {steps : List (Step α)}
    (hasleep : (t.after steps).isAsleep n = true) :
    (t.after steps).Waits key n due action := by
  induction steps generalizing t with
  | nil => exact hw
  | cons s steps ih =>
    cases hending : s.ending? t.scope key due t.now with
    | none => exact ih (h.perform s) (hw.perform h hending) hasleep
    | some settled =>
      have hlt := lt_length_perform hw.lt_length s
      have hawake := hw.isAsleep_perform h hending
      have hwaiting : (t.perform s).1.HasFate n .waiting steps :=
        (hasFate_waiting_iff _).mpr hasleep
      exact absurd hwaiting (not_hasFate (h.perform s) hlt hawake _ _)

end Timers

end Daybook.Editor
