/-
Daybook.Proofs.WaitingCycles — what becomes of a cycle that waits.

A cycle waits under a key of its own, made of its kind and its document, so
nothing but another cycle of the same kind and document takes its place.
Whatever happens, it is run or goes on waiting; and it waits only because a
notification asked for it.

§1 keys, §2 an orderly debouncer, §3 waiting, §4 documents that a run has heard of.
-/
import Daybook.Proofs.SessionRuns

namespace Daybook.Editor

/-! ## §1 Keys -/

/-- The key of a cycle whose document is debounced on its own. -/
def Cycle.key (c : Cycle) : String := Scope.document.key (Session.kindOf c.mode) c.uri

/-- A key belongs to one cycle. -/
theorem Cycle.key_inj {c c' : Cycle} : c.key = c'.key ↔ c = c' := by
  refine ⟨fun h => ?_, congrArg _⟩
  obtain ⟨uri, mode⟩ := c
  obtain ⟨uri', mode'⟩ := c'
  have hchars := congrArg String.toList h
  cases mode <;> cases mode' <;>
    simp [Cycle.key, Scope.key, Session.kindOf, String.toList_inj] at hchars ⊢
  · exact hchars
  · exact hchars

/-! ## §2 An orderly debouncer -/

namespace Debouncer

def actions (d : Debouncer Cycle) : List Cycle := d.waiting.map (·.action)

/-- Documents are debounced one by one, and every cycle waits under its own key. -/
structure Orderly (d : Debouncer Cycle) : Prop where
  scope : d.scope = .document
  keys : ∀ w ∈ d.waiting, w.key = w.action.key

variable {d : Debouncer Cycle}

theorem Orderly.scope_key (h : d.Orderly) (c : Cycle) :
    d.scope.key (Session.kindOf c.mode) c.uri = c.key := by
  rw [h.scope, Cycle.key]

theorem Orderly.schedule (h : d.Orderly) (c : Cycle) :
    (d.schedule (Session.kindOf c.mode) c.uri c).Orderly where
  scope := h.scope
  keys w hw := by
    rcases List.mem_append.mp hw with hw | hw
    · exact h.keys w (List.mem_filter.mp hw).1
    · rw [List.mem_singleton.mp hw]
      exact h.scope_key c

theorem Orderly.advance (h : d.Orderly) (ms : Nat) : (d.advance ms).1.Orderly where
  scope := h.scope
  keys w hw := h.keys w (List.mem_filter.mp hw).1

theorem Orderly.flush (h : d.Orderly) : d.flush.1.Orderly where
  scope := h.scope
  keys _ hw := absurd hw List.not_mem_nil

/-- A cycle that is scheduled takes the place of no other. -/
theorem Orderly.mem_actions_schedule (h : d.Orderly) (c c' : Cycle) :
    c' ∈ (d.schedule (Session.kindOf c.mode) c.uri c).actions ↔ c' ∈ d.actions ∨ c' = c := by
  simp only [actions, Debouncer.schedule, h.scope_key, List.map_append, List.mem_append,
    List.map_cons, List.map_nil, List.mem_singleton, List.mem_map, List.mem_filter,
    decide_eq_true_eq]
  constructor
  · rintro (⟨w, ⟨hw, _⟩, rfl⟩ | rfl)
    · exact .inl ⟨w, hw, rfl⟩
    · exact .inr rfl
  · rintro (⟨w, hw, rfl⟩ | rfl)
    · -- one that waits is dropped only for itself, as no other has its key
      by_cases hsame : w.action = c
      · exact .inr hsame
      · have hkey : w.key ≠ c.key := by
          rw [h.keys w hw]
          exact fun hk => hsame (Cycle.key_inj.mp hk)
        exact .inl ⟨w, ⟨hw, hkey⟩, rfl⟩
    · exact .inr rfl

theorem mem_actions_advance (d : Debouncer Cycle) (ms : Nat) (c : Cycle) :
    c ∈ d.actions ↔ c ∈ (d.advance ms).2.map (·.action) ∨ c ∈ (d.advance ms).1.actions := by
  simp only [actions, Debouncer.advance, List.mem_map, List.mem_filter, decide_eq_true_eq]
  constructor
  · rintro ⟨w, hw, rfl⟩
    rcases Nat.lt_or_ge (d.now + ms) w.due with hdue | hdue
    · exact .inr ⟨w, ⟨hw, hdue⟩, rfl⟩
    · exact .inl ⟨w, ⟨hw, hdue⟩, rfl⟩
  · rintro (⟨w, ⟨hw, _⟩, rfl⟩ | ⟨w, ⟨hw, _⟩, rfl⟩) <;> exact ⟨w, hw, rfl⟩

end Debouncer

/-! ## §3 Waiting -/

namespace Session

/-- Whether a cycle waits. -/
def Awaits (s : Session) (c : Cycle) : Prop := c ∈ s.debouncer.actions

instance (s : Session) (c : Cycle) : Decidable (s.Awaits c) := inferInstanceAs (Decidable (_ ∈ _))

/-- A session that has heard nothing yet. -/
structure Fresh (s : Session) : Prop where
  scope : s.debouncer.scope = .document
  waiting : s.debouncer.waiting = []
  documents : s.documents = {}

theorem fresh_start (j : Journal) (window : Nat) (projectRoot : Option Path)
    (reportDirectory : Path) : (start j window projectRoot reportDirectory).Fresh :=
  ⟨rfl, rfl, rfl⟩

theorem Fresh.orderly {s : Session} (h : s.Fresh) : s.debouncer.Orderly where
  scope := h.scope
  keys := by simp [h.waiting]

theorem orderly_heed {s : Session} (h : s.debouncer.Orderly) (n : Note) :
    (s.heed n).debouncer.Orderly := by
  rw [heed]
  cases n.mode? with
  | none => exact h
  | some mode => exact h.schedule ⟨n.uri, mode⟩

/-- Behind a notification the cycles of before wait, and its own. -/
theorem awaits_heed_iff {s : Session} (h : s.debouncer.Orderly) (n : Note) (c : Cycle) :
    (s.heed n).Awaits c ↔ s.Awaits c ∨ n.mode? = some c.mode ∧ n.uri = c.uri := by
  obtain ⟨uri, mode⟩ := c
  rw [Awaits, heed]
  cases n.mode? with
  | none => simp [Awaits]
  | some mode' =>
    have hschedule := h.mem_actions_schedule ⟨n.uri, mode'⟩ ⟨uri, mode⟩
    simp only [Cycle.mk.injEq] at hschedule
    simp only [Option.elim_some, hschedule, Awaits, Option.some.injEq]
    rw [and_comm, eq_comm, @eq_comm _ uri]

theorem orderly_debouncerAfter {s : Session} (h : s.debouncer.Orderly) (e : Event) :
    (s.debouncerAfter e).Orderly := by
  cases e with
  | message m =>
    rw [debouncerAfter]
    split
    · exact h.flush
    · exact h
  | wait ms => exact h.advance ms
  | finish => exact h.flush

/-- A cycle that waits is run by what happens next, or goes on waiting. -/
theorem awaits_iff_mem_runs (s : Session) (e : Event) (c : Cycle) :
    s.Awaits c ↔ c ∈ s.runs e ∨ c ∈ (s.debouncerAfter e).actions := by
  cases e with
  | message m =>
    rw [runs, debouncerAfter]
    split
    · simp [Debouncer.flush, Debouncer.actions, Awaits]
    · simp [Awaits]
  | wait ms => exact s.debouncer.mem_actions_advance ms c
  | finish => simp [runs, debouncerAfter, Debouncer.flush, Debouncer.actions, Awaits]

/-- What is run has waited. -/
theorem awaits_of_mem_runs {s : Session} {e : Event} {c : Cycle} (h : c ∈ s.runs e) :
    s.Awaits c :=
  (awaits_iff_mem_runs s e c).mpr (.inl h)

theorem orderly_after {s : Session} (h : s.debouncer.Orderly) (e : Event) :
    (s.after e).debouncer.Orderly := by
  rw [debouncer_after]
  cases e.note? with
  | none => exact orderly_debouncerAfter h e
  | some n => exact orderly_heed h n

/-- A debouncer stays orderly in the course of a run. -/
theorem orderly_afterAll {s : Session} (h : s.debouncer.Orderly) (es : List Event) :
    (s.afterAll es).debouncer.Orderly := by
  induction es generalizing s with
  | nil => exact h
  | cons e es ih => exact ih (orderly_after h e)

/-- **A cycle that waits is not dropped**: what happens next runs it, or it goes on waiting. -/
theorem awaits_after {s : Session} (h : s.debouncer.Orderly) {c : Cycle} (hc : s.Awaits c)
    (e : Event) : c ∈ s.runs e ∨ (s.after e).Awaits c := by
  rw [Awaits, debouncer_after]
  cases e.note? with
  | none => exact (awaits_iff_mem_runs s e c).mp hc
  | some n => exact .inr ((awaits_heed_iff h n c).mpr (.inl hc))

/-- A cycle waits because it did so before, or because a notification asks for it. -/
theorem awaits_of_awaits_after {s : Session} (h : s.debouncer.Orderly) {e : Event} {c : Cycle}
    (hc : (s.after e).Awaits c) :
    s.Awaits c ∨ ∃ n, e.note? = some n ∧ n.mode? = some c.mode ∧ n.uri = c.uri := by
  rw [Awaits, debouncer_after] at hc
  cases hnote : e.note? with
  | none =>
    rw [hnote] at hc
    exact .inl ((awaits_iff_mem_runs s e c).mpr (.inr hc))
  | some n =>
    rw [hnote] at hc
    rcases (awaits_heed_iff h n c).mp hc with hc | hasked
    · exact .inl hc
    · exact .inr ⟨n, rfl, hasked⟩

/-! ## §4 Documents that are heard of -/

end Session

def heard (es : List Event) : List String := (es.filterMap Event.note?).map Note.uri

theorem heard_append (es fs : List Event) : heard (es ++ fs) = heard es ++ heard fs := by
  simp [heard]

theorem heard_subset {es fs : List Event} (h : es <+: fs) : heard es ⊆ heard fs := by
  obtain ⟨rest, rfl⟩ := h
  rw [heard_append]
  exact List.subset_append_left _ _

namespace Session

/-- No two documents of a run are files of one day. -/
def Apart (s : Session) (es : List Event) : Prop :=
  ∀ u ∈ heard es, ∀ v ∈ heard es, ∀ d, s.dayOf? u = some d → s.dayOf? v = some d → u = v

theorem apart_of_forall_eq {s : Session} {es : List Event} (uri : String)
    (h : ∀ u ∈ heard es, u = uri) : s.Apart es :=
  fun u hu v hv _ _ _ => (h u hu).trans (h v hv).symm

/-- Only cycles of documents that have been heard of wait. -/
theorem Fresh.mem_heard_of_awaits {s : Session} (h : s.Fresh) {es : List Event} {c : Cycle}
    (hc : (s.afterAll es).Awaits c) : c.uri ∈ heard es := by
  induction es using List.reverseRecOn with
  | nil => simp [Awaits, Debouncer.actions, h.waiting] at hc
  | append_singleton es e ih =>
    rw [heard_append, List.mem_append]
    rw [afterAll_concat] at hc
    rcases awaits_of_awaits_after (orderly_afterAll h.orderly es) hc with hc | ⟨n, hn, _, huri⟩
    · exact .inl (ih hc)
    · exact .inr (by simp [heard, hn, huri])

end Session

end Daybook.Editor
