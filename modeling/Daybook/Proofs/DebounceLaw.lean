/-
Daybook.Proofs.DebounceLaw — how actions are debounced.

The number of an action is its place among all that were scheduled, and its
fate begins with the step that schedules it. So what holds of an action that
waits holds of every action in every run of steps: it is run once or not at
all, by time exactly if nothing disturbs it for a window, and whatever is
scheduled under other keys makes no difference to it. Main statement:
`debounces`.

§1 what is run, §2 actions that are scheduled, §3 the main statement.
-/
import Daybook.Proofs.Fates

namespace Daybook.Editor

variable {α : Type}

namespace Timers

variable {t : Timers α} {key : String} {n due : Nat} {action : α}

/-! ## §1 What is run -/

/-- What a task runs bears its number. -/
theorem number_of_run? {time : Nat} {r : Run α} (h : t.run? n time = some r) : r.number = n := by
  obtain ⟨_, _, rfl⟩ := Option.map_eq_some_iff.mp h
  rfl

theorem number_of_fire? {now : Nat} {r : Run α} (h : t.fire? now n = some r) : r.number = n := by
  obtain ⟨task, _, hrun⟩ := Option.bind_eq_some_iff.mp h
  split at hrun
  · exact number_of_run? hrun
  · cases hrun

/-- A step runs nothing twice. -/
theorem nodup_perform (h : t.Sound) (s : Step α) : ((t.perform s).2.map (·.number)).Nodup := by
  cases s with
  | advance ms =>
    show ((t.advance ms).2.map (·.number)).Nodup
    rw [advance, List.map_filterMap]
    refine List.nodup_range.filterMap fun m m' number hm hm' => ?_
    obtain ⟨r, hr, rfl⟩ := Option.map_eq_some_iff.mp hm
    obtain ⟨r', hr', heq⟩ := Option.map_eq_some_iff.mp hm'
    rw [← number_of_fire? hr, ← number_of_fire? hr', heq]
  | flush =>
    show (t.flush.2.map (·.number)).Nodup
    rw [numbers_flush h]
    exact List.nodup_range.filter _
  | schedule kind uri action => exact List.nodup_nil
  | cancel => exact List.nodup_nil
  | count => exact List.nodup_nil

/-- An action whose task is awake is not run. -/
theorem number_ne_of_awake (h : t.Sound) (hn : n < t.tasks.length) (hawake : t.isAsleep n = false)
    {steps : List (Step α)} {e : Step α × Run α} (he : e ∈ t.history steps) : e.2.number ≠ n := by
  induction steps generalizing t with
  | nil => cases he
  | cons s steps ih =>
    rcases List.mem_append.mp he with he | he
    · obtain ⟨r, hr, rfl⟩ := List.mem_map.mp he
      rintro rfl
      exact Bool.false_ne_true (hawake.symm.trans (isAsleep_of_mem_perform h hr).1)
    · exact ih (h.perform s) (lt_length_perform hn s) (Timers.isAsleep_perform h s hn hawake) he

/-- Nothing is run twice. -/
theorem nodup_history (h : t.Sound) (steps : List (Step α)) :
    ((t.history steps).map (·.2.number)).Nodup := by
  induction steps generalizing t with
  | nil => exact List.nodup_nil
  | cons s steps ih =>
    rw [history, List.map_append, List.map_map, List.nodup_append]
    refine ⟨nodup_perform h s, ih (h.perform s), ?_⟩
    intro number hnumber number' hnumber' heq
    obtain ⟨r, hr, rfl⟩ := List.mem_map.mp hnumber
    obtain ⟨e, he, rfl⟩ := List.mem_map.mp hnumber'
    obtain ⟨hbefore, hafter⟩ := isAsleep_of_mem_perform h hr
    have hlt := lt_length_perform (h.lt_length (h.asleep _ hbefore)) s
    exact number_ne_of_awake (h.perform s) hlt hafter he heq.symm

/-- What is run was started. -/
theorem number_lt_length (h : t.Sound) {steps : List (Step α)} {e : Step α × Run α}
    (he : e ∈ t.history steps) : e.2.number < (t.after steps).tasks.length := by
  induction steps generalizing t with
  | nil => cases he
  | cons s steps ih =>
    rcases List.mem_append.mp he with he | he
    · obtain ⟨r, hr, rfl⟩ := List.mem_map.mp he
      have hlt := h.lt_length (h.asleep _ (isAsleep_of_mem_perform h hr).1)
      rw [length_after]
      exact Nat.lt_add_right _ hlt
    · exact ih (h.perform s) he

/-- What is run is the action that waits. -/
theorem Waits.action_eq (h : t.Sound) (hw : t.Waits key n due action) {steps : List (Step α)}
    {e : Step α × Run α} (he : e ∈ t.history steps) (hnumber : e.2.number = n) :
    e.2.action = action := by
  induction steps generalizing t with
  | nil => cases he
  | cons s steps ih =>
    subst hnumber
    rcases List.mem_append.mp he with he | he
    · obtain ⟨r, hr, rfl⟩ := List.mem_map.mp he
      exact ((hw.mem_perform_iff h s).mp hr).2
    · cases hending : s.ending? t.scope key due t.now with
      | none => exact ih (h.perform s) (hw.perform h hending) he
      | some settled =>
        have hlt := lt_length_perform hw.lt_length s
        exact absurd rfl
          (number_ne_of_awake (h.perform s) hlt (hw.isAsleep_perform h hending) he)

/-- The first step runs an action by the time that passes in it, or the steps behind it do. -/
theorem Waits.mem_history_cons (h : t.Sound) (hw : t.Waits key n due action) (s : Step α)
    (steps : List (Step α)) :
    (∃ ms, (.advance ms, { number := n, time := due, action }) ∈ t.history (s :: steps)) ↔
      (∃ ms, s = .advance ms ∧ due ≤ t.now + ms) ∨
        ∃ ms, (.advance ms, { number := n, time := due, action }) ∈
          (t.perform s).1.history steps := by
  simp only [history, List.mem_append, exists_or]
  refine or_congr_left (exists_congr fun ms => ?_)
  constructor
  · intro hrun
    obtain ⟨r, hr, heq⟩ := List.mem_map.mp hrun
    cases heq
    have htaken := ((hw.mem_perform_iff h _).mp hr).1
    exact ⟨rfl, by simpa [Step.ending?] using htaken⟩
  · rintro ⟨rfl, hdue⟩
    exact List.mem_map_of_mem ((hw.mem_perform_iff h (.advance ms)).mpr ⟨if_pos hdue, rfl⟩)

/-- An action is run by time that passes, when it is due, if no step disturbs it before. -/
theorem Waits.timer_iff {kind uri : String} (hkind : ':' ∉ kind.toList) (h : t.Sound)
    (hw : t.Waits (t.scope.key kind uri) n due action) {steps : List (Step α)}
    (hplain : ∀ s ∈ steps, s.IsPlain) :
    (∃ ms, (.advance ms, { number := n, time := due, action }) ∈ t.history steps) ↔
      Undisturbed t.scope kind uri due t.now steps := by
  induction steps generalizing t with
  | nil => simp [history, undisturbed_nil]
  | cons s steps ih =>
    obtain ⟨hs, hmore⟩ := List.forall_mem_cons.mp hplain
    have hquiet := Step.ending?_eq_none t.scope hkind hs uri due t.now
    rw [hw.mem_history_cons h, undisturbed_cons]
    cases hending : s.ending? t.scope (t.scope.key kind uri) due t.now with
    | none =>
      have hrest := ih (h.perform s) (by rw [scope_perform]; exact hw.perform h hending) hmore
      rw [scope_perform, now_perform] at hrest
      rw [hrest, and_iff_right (hquiet.mp hending).1]
    | some settled =>
      have hlt := lt_length_perform hw.lt_length s
      have hover : ¬ ∃ ms, (.advance ms, { number := n, time := due, action }) ∈
          (t.perform s).1.history steps := by
        rintro ⟨ms, hrun⟩
        exact number_ne_of_awake (h.perform s) hlt (hw.isAsleep_perform h hending) hrun rfl
      rw [or_iff_left hover]
      refine (or_iff_left_of_imp ?_).symm
      rintro ⟨hcalm, _⟩
      -- the step takes the action without disturbing it, so time passes in it
      by_contra hnone
      have hquiet' := hquiet.mpr ⟨hcalm, fun ms hadvance => Nat.not_le.mp fun hdue =>
        hnone ⟨ms, hadvance, hdue⟩⟩
      rw [hending] at hquiet'
      cases hquiet'

/-- An action is run at some time just if the history has it. -/
theorem hasFate_run_iff (steps : List (Step α)) (time : Nat) :
    t.HasFate n (.run time) steps ↔ ∃ e ∈ t.history steps, e.2.number = n ∧ e.2.time = time := by
  induction steps generalizing t with
  | nil => simp [HasFate, history]
  | cons s steps ih =>
    have hnow : t.Settles s n (.run time) ↔
        ∃ e ∈ (t.perform s).2.map (s, ·), e.2.number = n ∧ e.2.time = time := by
      constructor
      · rintro ⟨action, hr⟩
        exact ⟨_, List.mem_map_of_mem hr, rfl, rfl⟩
      · rintro ⟨e, he, hnumber, htime⟩
        obtain ⟨⟨_, _, action⟩, hr, rfl⟩ := List.mem_map.mp he
        cases hnumber
        cases htime
        exact ⟨action, hr⟩
    simp only [HasFate, hnow, ih, history, List.mem_append, or_and_right, exists_or]

/-! ## §2 Actions that are scheduled -/

end Timers

/-- What is scheduled is scheduled by a step, behind all that has a lower number. -/
theorem exists_schedule {steps : List (Step α)} {n : Nat} (h : n < (scheduled steps).length) :
    ∃ before kind uri action rest, steps = before ++ .schedule kind uri action :: rest ∧
      (scheduled before).length = n ∧ (scheduled steps)[n]? = some (kind, uri, action) := by
  have hcut : scheduled steps = (scheduled steps).take n ++
      (scheduled steps)[n] :: (scheduled steps).drop (n + 1) := by simp
  obtain ⟨front, back, rfl, hfront, hback⟩ := List.filterMap_eq_append_iff.mp hcut
  obtain ⟨skipped, s, rest, rfl, hskipped, hs, _⟩ := List.filterMap_eq_cons_iff.mp hback
  have hlength : (scheduled (front ++ skipped)).length = n := by
    have hnone : scheduled skipped = [] := List.filterMap_eq_nil_iff.mpr hskipped
    rw [scheduled_append, hnone, List.append_nil, scheduled, hfront, List.length_take]
    omega
  cases s with
  | schedule kind uri action =>
    refine ⟨front ++ skipped, kind, uri, action, rest, by simp, hlength, ?_⟩
    rw [List.getElem?_eq_getElem h, ← Option.some.inj hs]
  | _ => cases hs

theorem plain_kind {steps : List (Step α)} (hplain : ∀ s ∈ steps, s.IsPlain) {n : Nat}
    {kind uri : String} {action : α} (h : (scheduled steps)[n]? = some (kind, uri, action)) :
    ':' ∉ kind.toList := by
  obtain ⟨s, hs, hcall⟩ := List.mem_filterMap.mp (List.mem_of_getElem? h)
  exact hplain s hs _ hcall

/-- Leaving out what is scheduled under other keys takes away no time. -/
theorem elapsed_filter_isOwn (scope : Scope) (kind uri : String) (steps : List (Step α)) :
    elapsed (steps.filter (Step.isOwn scope kind uri)) = elapsed steps := by
  induction steps with
  | nil => rfl
  | cons s steps ih =>
    rw [List.filter_cons]
    split
    · rw [elapsed, elapsed, ih]
    · next hs =>
      have hnone : s.elapsed = 0 := by
        cases s with
        | schedule kind' uri' action => rfl
        | _ => exact absurd rfl hs
      rw [ih, elapsed, hnone, Nat.zero_add]

/-- Schedules under other keys make no difference to the fate of an action. -/
theorem fateOf_filter_isOwn (scope : Scope) {kind : String} (hkind : ':' ∉ kind.toList)
    (uri : String) (due now : Nat) {steps : List (Step α)} (hplain : ∀ s ∈ steps, s.IsPlain) :
    fateOf scope (scope.key kind uri) due now (steps.filter (Step.isOwn scope kind uri)) =
      fateOf scope (scope.key kind uri) due now steps := by
  induction steps generalizing now with
  | nil => rfl
  | cons s steps ih =>
    obtain ⟨hs, hmore⟩ := List.forall_mem_cons.mp hplain
    rw [List.filter_cons]
    split
    · rw [fateOf, fateOf, ih _ hmore]
    · next hother =>
      have hquiet : s.ending? scope (scope.key kind uri) due now = none ∧ s.elapsed = 0 := by
        cases s with
        | schedule kind' uri' action =>
          have hkey := scope.key_eq_iff uri' uri (hs _ rfl) hkind
          simp only [Step.isOwn, decide_eq_true_eq] at hother
          exact ⟨if_neg (hkey.not.mpr hother), rfl⟩
        | _ => exact absurd rfl hother
      rw [ih _ hmore, fateOf, hquiet.1, hquiet.2]
      rfl

namespace Timers

section behind

variable (window : Nat) (scope : Scope) (before : List (Step α)) (kind uri : String) (action : α)

def behind : Timers α := ((fresh window scope).after before).schedule kind uri action

theorem sound_behind : (behind window scope before kind uri action).Sound :=
  ((sound_fresh window scope).after before).schedule kind uri action

theorem scope_behind : (behind window scope before kind uri action).scope = scope :=
  scope_after (fresh window scope) before

theorem now_behind : (behind window scope before kind uri action).now = elapsed before :=
  (now_after (fresh window scope) before).trans (Nat.zero_add _)

/-- Right behind a schedule its action waits, due when the window has passed. -/
theorem waits_behind : (behind window scope before kind uri action).Waits
    ((behind window scope before kind uri action).scope.key kind uri) (scheduled before).length
    (elapsed before + window) action := by
  have hwaits := waits_schedule ((fresh window scope).after before) kind uri action
  have hnumber : ((fresh window scope : Timers α).after before).tasks.length =
      (scheduled before).length := (length_after ..).trans (Nat.zero_add _)
  have hnow : ((fresh window scope : Timers α).after before).now = elapsed before :=
    (now_after ..).trans (Nat.zero_add _)
  rw [hnumber, hnow, window_after] at hwaits
  exact hwaits

end behind

variable {window : Nat} {scope : Scope} {before rest : List (Step α)} {kind uri : String}
  {action : α}

/-- The fate of an action that is scheduled. -/
theorem hasFate_scheduled_iff (fate : Fate) :
    (fresh window scope).HasFate (scheduled before).length fate
        (before ++ .schedule kind uri action :: rest) ↔
      fate = fateOf scope (scope.key kind uri) (elapsed before + window) (elapsed before) rest := by
  have hsound : ((fresh window scope : Timers α).after before).Sound :=
    (sound_fresh window scope).after before
  have hnew : ((fresh window scope).after before).tasks.length ≤ (scheduled before).length := by
    rw [length_after]
    exact Nat.le_of_eq (Nat.zero_add _)
  have hnone : ¬ ((fresh window scope).after before).Settles (.schedule kind uri action)
      (scheduled before).length fate := fun hs =>
    Nat.not_lt.mpr hnew (hsound.lt_length (hsound.asleep _ (hs.isAsleep hsound).1))
  have hrest := (waits_behind window scope before kind uri action).hasFate_iff
    (sound_behind ..) fate rest
  rw [scope_behind, now_behind] at hrest
  rw [hasFate_append (sound_fresh window scope) fate hnew, HasFate, or_iff_right hnone]
  exact hrest

/-- What was scheduled and waits keeps its place. -/
theorem waits_after {steps : List (Step α)} {n : Nat}
    (hcall : (scheduled steps)[n]? = some (kind, uri, action))
    (hwaiting : (fresh window scope).HasFate n .waiting steps) :
    ∃ due, ((fresh window scope).after steps).Waits (scope.key kind uri) n due action := by
  obtain ⟨hlt, _⟩ := List.getElem?_eq_some_iff.mp hcall
  obtain ⟨before, kind', uri', action', rest, rfl, rfl, hcall'⟩ := exists_schedule hlt
  rw [hcall] at hcall'
  cases hcall'
  have hasleep := (hasFate_waiting_iff _).mp hwaiting
  rw [after_append] at hasleep ⊢
  have hwaits := (waits_behind window scope before kind uri action).after (sound_behind ..) hasleep
  rw [scope_behind] at hwaits
  exact ⟨_, hwaits⟩

/-- An action is run only behind the step that schedules it. -/
theorem mem_history_scheduled_iff {s : Step α} {time : Nat} {other : α} :
    (s, { number := (scheduled before).length, time, action := other }) ∈
        (fresh window scope).history (before ++ .schedule kind uri action :: rest) ↔
      (s, { number := (scheduled before).length, time, action := other }) ∈
        (behind window scope before kind uri action).history rest := by
  rw [history_append, List.mem_append]
  refine or_iff_right fun hearly => ?_
  have hlt := number_lt_length (sound_fresh window scope) hearly
  rw [length_after] at hlt
  simp [fresh] at hlt

/-- Whatever is run was scheduled. -/
theorem own_of_mem_history {steps : List (Step α)} {e : Step α × Run α}
    (he : e ∈ (fresh window scope).history steps) :
    ∃ kind uri, (scheduled steps)[e.2.number]? = some (kind, uri, e.2.action) := by
  have hlt := number_lt_length (sound_fresh window scope) he
  rw [length_after] at hlt
  obtain ⟨before, kind, uri, action, rest, rfl, hnumber, hcall⟩ :=
    exists_schedule (by simpa [fresh] using hlt)
  obtain ⟨s, ⟨_, time, other⟩⟩ := e
  cases hnumber
  have hlater := mem_history_scheduled_iff.mp he
  have hsame := (waits_behind window scope before kind uri action).action_eq (sound_behind ..)
    hlater rfl
  exact ⟨kind, uri, hcall.trans (by rw [← hsame])⟩

/-- Time runs an action, and exactly when it is due, just if nothing disturbs it
before. -/
theorem timer_scheduled_iff
    (hplain : ∀ s ∈ before ++ .schedule kind uri action :: rest, s.IsPlain) :
    (∃ ms, (.advance ms, Run.mk (scheduled before).length (elapsed before + window) action) ∈
        (fresh window scope).history (before ++ .schedule kind uri action :: rest)) ↔
      Undisturbed scope kind uri (elapsed before + window) (elapsed before) rest := by
  have hkind : ':' ∉ kind.toList := hplain (.schedule kind uri action) (by simp) _ rfl
  have hrest : ∀ s ∈ rest, s.IsPlain := fun s hs => hplain s (by simp [hs])
  have htimer := Waits.timer_iff hkind (sound_behind ..)
    (waits_behind window scope before kind uri action) hrest
  rw [scope_behind, now_behind] at htimer
  rw [← htimer]
  exact exists_congr fun ms => mem_history_scheduled_iff

/-- Only one action waits among those that replace each other. -/
theorem place_unique {steps : List (Step α)} (hplain : ∀ s ∈ steps, s.IsPlain) {m n : Nat}
    {kind' uri' : String} {action' : α} (hm : (scheduled steps)[m]? = some (kind, uri, action))
    (hn : (scheduled steps)[n]? = some (kind', uri', action'))
    (htogether : scope.Together kind uri kind' uri')
    (hmwaits : (fresh window scope).HasFate m .waiting steps)
    (hnwaits : (fresh window scope).HasFate n .waiting steps) : m = n := by
  obtain ⟨due, hmwaits⟩ := waits_after hm hmwaits
  obtain ⟨due', hnwaits⟩ := waits_after hn hnwaits
  have hkey := (scope.key_eq_iff uri uri' (plain_kind hplain hm) (plain_kind hplain hn)).mpr
    htogether
  have hsound := (sound_fresh window scope).after steps
  exact hsound.number_eq hmwaits.entry (hkey ▸ hnwaits.entry)

/-- Without the schedules under other keys an action has another number, but the same fate. -/
theorem hasFate_filter_isOwn
    (hplain : ∀ s ∈ before ++ .schedule kind uri action :: rest, s.IsPlain) (fate : Fate) :
    (fresh window scope).HasFate (scheduled before).length fate
        (before ++ .schedule kind uri action :: rest) ↔
      (fresh window scope).HasFate (scheduled (before.filter (Step.isOwn scope kind uri))).length
        fate (before.filter (Step.isOwn scope kind uri) ++
          .schedule kind uri action :: rest.filter (Step.isOwn scope kind uri)) := by
  have hkind : ':' ∉ kind.toList := hplain (.schedule kind uri action) (by simp) _ rfl
  have hrest : ∀ s ∈ rest, s.IsPlain := fun s hs => hplain s (by simp [hs])
  rw [hasFate_scheduled_iff, hasFate_scheduled_iff, elapsed_filter_isOwn,
    fateOf_filter_isOwn scope hkind uri _ _ hrest]

/-! ## §3 The main statement -/

/-- How timers run what some steps schedule. -/
structure Debounces (t : Timers α) (steps : List (Step α)) : Prop where
  /-- Seen from outside, they do what a debouncer does. -/
  view : ((t.after steps).view, (t.history steps).map fun e => (e.2.time, e.2.action)) =
    t.view.performAll steps
  /-- Every action has one fate, -/
  fate : ∀ n < (scheduled steps).length, ∃! fate, t.HasFate n fate steps
  /-- and keeps it, unless it waits. -/
  settled : ∀ n fate more, fate ≠ .waiting → t.HasFate n fate steps →
    t.HasFate n fate (steps ++ more)
  /-- What is run is what was scheduled, -/
  own : ∀ e ∈ t.history steps,
    ∃ kind uri, (scheduled steps)[e.2.number]? = some (kind, uri, e.2.action)
  /-- and it is run once. -/
  once : ((t.history steps).map (·.2.number)).Nodup
  run : ∀ n time, t.HasFate n (.run time) steps ↔
    ∃ e ∈ t.history steps, e.2.number = n ∧ e.2.time = time
  /-- Of the actions that replace each other at most one waits. -/
  place : ∀ m n kind uri action kind' uri' action',
    (scheduled steps)[m]? = some (kind, uri, action) →
    (scheduled steps)[n]? = some (kind', uri', action') → t.scope.Together kind uri kind' uri' →
    t.HasFate m .waiting steps → t.HasFate n .waiting steps → m = n
  /-- An action is run by time that passes, one window behind its schedule, if and only if it is
  not disturbed before. -/
  timer : ∀ before kind uri action rest, steps = before ++ .schedule kind uri action :: rest →
    ((∃ ms, (.advance ms, Run.mk (scheduled before).length (elapsed before + t.window) action) ∈
        t.history steps) ↔
      Undisturbed t.scope kind uri (elapsed before + t.window) (elapsed before) rest)
  sleepers : ∀ n, n ∈ (t.after steps).sleepers ↔ t.HasFate n .waiting steps
  /-- A flush runs what waits, as many actions as there are, and leaves none. -/
  flush : (t.after steps).flush.2.map (·.number) = (t.after steps).sleepers ∧
    (t.after steps).flush.2.length = (t.after steps).sleepers.length ∧
    (t.after steps).flush.1.sleepers = []
  /-- What is counted is what waits. -/
  pending : (t.after steps).pending.2 = (t.after steps).sleepers.length
  /-- An action has the same fate without what is scheduled under other keys. -/
  others : ∀ before kind uri action rest, steps = before ++ .schedule kind uri action :: rest →
    ∀ fate, t.HasFate (scheduled before).length fate steps ↔
      t.HasFate (scheduled (before.filter (Step.isOwn t.scope kind uri))).length fate
        (before.filter (Step.isOwn t.scope kind uri) ++
          .schedule kind uri action :: rest.filter (Step.isOwn t.scope kind uri))

/-- Timers that begin fresh debounce whatever is done with them. The kinds have
no colon: the key of an action joins its kind and its document with one, and
would not tell the two apart. -/
theorem debounces (window : Nat) (scope : Scope) {steps : List (Step α)}
    (hplain : ∀ s ∈ steps, s.IsPlain) : Debounces (fresh window scope) steps := by
  have hstart : (fresh window scope : Timers α).Sound := sound_fresh window scope
  have hsound := hstart.after steps
  have hnumbers := numbers_flush hsound
  constructor
  case view => exact performAll_view hstart steps
  case fate =>
    intro n hn
    obtain ⟨before, kind, uri, action, rest, rfl, rfl, _⟩ := exists_schedule hn
    exact ⟨_, (hasFate_scheduled_iff _).mpr rfl, fun fate => (hasFate_scheduled_iff fate).mp⟩
  case settled => exact fun n fate more hfate h => h.append hfate more
  case own => exact fun e he => own_of_mem_history he
  case once => exact nodup_history hstart steps
  case run => exact fun n time => hasFate_run_iff steps time
  case place =>
    intro m n kind uri action kind' uri' action'
    exact place_unique hplain
  case timer =>
    rintro before kind uri action rest rfl
    exact timer_scheduled_iff hplain
  case sleepers =>
    intro n
    rw [mem_sleepers_iff hsound, hasFate_waiting_iff]
  case flush =>
    refine ⟨hnumbers, ?_, List.filter_eq_nil_iff.mpr fun n _ => ?_⟩
    · rw [← hnumbers, List.length_map]
    · rw [isAsleep_flush hsound]
      exact Bool.false_ne_true
  case pending => exact pending_snd hsound
  case others =>
    rintro before kind uri action rest rfl fate
    exact hasFate_filter_isOwn hplain fate

/-- One action is replaced, two are run by time and one by a flush, and one is cancelled. -/
theorem debounces_mixed :
    let steps : List (Step Nat) :=
      [.schedule "change" "a" 10, .schedule "save" "a" 11, .schedule "change" "b" 12, .advance 50,
        .schedule "change" "a" 13, .advance 60, .count, .flush, .schedule "save" "b" 14, .cancel]
    (∀ s ∈ steps, s.IsPlain) ∧
    ((fresh 100 .document).history steps).map (·.2) =
      [⟨1, 100, 11⟩, ⟨2, 100, 12⟩, ⟨3, 110, 13⟩] ∧
    Debounces (fresh 100 .document) steps := by
  intro steps
  have hplain : ∀ s ∈ steps, s.IsPlain := by
    simp [steps, Step.IsPlain, Step.scheduled?]
  exact ⟨hplain, by decide +kernel, debounces 100 .document hplain⟩

end Timers

end Daybook.Editor
