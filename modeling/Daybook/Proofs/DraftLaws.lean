/-
Daybook.Proofs.DraftLaws — what becomes of the texts that an editor sends.

A change and a save both schedule a cycle, and every cycle that is run records
the text that its document has then, so that the pending entries of its day are
those of that text. An opening schedules nothing. So once a document has been
changed or saved, a cycle of it waits or its day is up to date; no cycle waits
when a conversation is over, and the pending entries of a document that is still
open are those of its text.

The committed entries obey no such law: see `Daybook.Proofs.SaveLaws`.

§1 pending entries, §2 the latest edit of a document, §3 what one event keeps,
§4 whole conversations.
-/
import Daybook.Proofs.SaveLaws

namespace Daybook.Editor

open Daybook.Journal (Recording itemsOf entriesOf)

/-! ## §1 Pending entries -/

namespace Session

/-- The entries that are pending for a day. -/
def pending (s : Session) (d : Day) : List Entry := s.journal.store.held d.key true

/-- The pending entries of a day are those of the text of a document, if that has an item. -/
def UpToDate (s : Session) (uri : String) (d : Day) : Prop :=
  ∀ text, s.documents.get? uri = some text → itemsOf s.journal.classifier d text ≠ [] →
    s.pending d = entriesOf s.journal.classifier d text

/-- A cycle of a document waits, of either kind. -/
def AwaitsCycle (s : Session) (uri : String) : Prop := ∃ mode, s.Awaits ⟨uri, mode⟩

/-- Running any cycle of a document brings its day up to date. -/
theorem Fresh.upToDate_of_mem_runs {s : Session} (h : s.Fresh) {es before : List Event}
    {e : Event} {uri : String} {mode : WriteMode} {d : Day} (apart : s.Apart es)
    (hbefore : before <+: es) (hday : s.dayOf? uri = some d)
    (hrun : ⟨uri, mode⟩ ∈ (s.afterAll before).runs e) :
    ((s.afterAll before).after e).UpToDate uri d := by
  intro text htext hitems
  have hnote : e.note? = none := by
    cases hn : e.note? with
    | none => rfl
    | some n =>
      rw [runs_of_note hn] at hrun
      cases hrun
  -- the cycle recorded the text that the document still has
  rw [documents_after, hnote, Option.elim_none] at htext
  rw [← afterAll_concat, classifier_afterAll] at hitems ⊢
  have hk := mem_recordings_of_mem_runs hrun hday htext
  have hsets : Recording.Sets (s.afterAll before).journal.classifier ⟨text, d, mode⟩ d true := by
    rw [classifier_afterAll]
    exact ⟨rfl, .inl rfl, hitems⟩
  have hheld := held_after_of_mem hk hsets fun k' hk' =>
    h.text_eq_of_mem_recordings apart hbefore hk hk'
  rw [classifier_afterAll] at hheld
  rw [pending, afterAll_concat]
  exact hheld

/-- An event that runs no cycle of a document leaves the pending entries of its day alone. -/
theorem Fresh.pending_after_of_not_mem_runs {s : Session} (h : s.Fresh) {es before : List Event}
    {e : Event} {uri : String} {d : Day} (apart : s.Apart es) (hbefore : before <+: es)
    (hheard : uri ∈ heard es) (hday : s.dayOf? uri = some d)
    (hrun : ∀ mode, ⟨uri, mode⟩ ∉ (s.afterAll before).runs e) :
    ((s.afterAll before).after e).pending d = (s.afterAll before).pending d := by
  rw [pending, held_after, ← pending]
  cases hlatest : Journal.latest? (s.afterAll before).journal.classifier
      ((s.afterAll before).recordings e) d true with
  | none => rfl
  | some k =>
    -- what is recorded for the day would be recorded by a cycle of this very document
    obtain ⟨hk, rfl, _⟩ := Journal.latest?_eq_some hlatest
    obtain ⟨v, hv, hvday, hvrun, _⟩ := h.cycle_of_mem_recordings hk
    have huv : uri = v := apart uri hheard v (heard_subset hbefore hv) k.day hday hvday
    subst huv
    exact absurd hvrun (hrun k.mode)

end Session

/-! ## §2 The latest edit of a document -/

/-- The latest notification that opens, changes or saves a document. -/
def lastEdit? (es : List Event) (uri : String) : Option Note :=
  ((es.filterMap Event.note?).filter fun n => n.uri = uri ∧ n ≠ .closed uri).getLast?

theorem lastEdit?_concat_of_none {e : Event} (h : e.note? = none) (es : List Event)
    (uri : String) : lastEdit? (es ++ [e]) uri = lastEdit? es uri := by
  simp [lastEdit?, List.filterMap_append, h]

theorem lastEdit?_concat_of_some {e : Event} {n : Note} (h : e.note? = some n) (es : List Event)
    (uri : String) :
    lastEdit? (es ++ [e]) uri =
      if n.uri = uri ∧ n ≠ .closed uri then some n else lastEdit? es uri := by
  by_cases hn : n.uri = uri ∧ n ≠ .closed uri
  · simp [lastEdit?, List.filterMap_append, h, hn]
  · simp only [lastEdit?, List.filterMap_append, List.filterMap_cons, h, List.filterMap_nil,
      List.filter_append, if_neg hn]
    rw [List.filter_cons_of_neg (by simpa using hn), List.filter_nil, List.append_nil]

theorem mem_heard_of_lastEdit? {es : List Event} {uri : String} {n : Note}
    (h : lastEdit? es uri = some n) : uri ∈ heard es := by
  obtain ⟨hmem, hn⟩ := List.mem_filter.mp (List.mem_of_getLast? h)
  exact List.mem_map.mpr ⟨n, hmem, (decide_eq_true_iff.mp hn).1⟩

/-! ## §3 One event -/

namespace Session

/-- A document that was changed or saved when it was last heard of is up to date, or a cycle of it
waits. -/
def KeepsUp (s : Session) (uri : String) (d : Day) (es : List Event) : Prop :=
  ∀ n, lastEdit? es uri = some n → n.mode?.isSome →
    (s.afterAll es).UpToDate uri d ∨ (s.afterAll es).AwaitsCycle uri

/-- A notification about the document itself asks for a cycle, or nothing is left to keep up
with. -/
theorem Fresh.keepsUp_concat_of_own {s : Session} (h : s.Fresh) {es : List Event} {e : Event}
    {n : Note} {d : Day} (hn : e.note? = some n) : s.KeepsUp n.uri d (es ++ [e]) := by
  intro n' hlast hmode
  rw [afterAll_concat]
  by_cases hclosed : n = .closed n.uri
  · -- a document that is closed has no text
    refine .inl fun text htext => ?_
    rw [documents_after, hn, Option.elim_some, get?_documentsAfter, if_pos ⟨rfl, hclosed⟩] at htext
    cases htext
  · rw [lastEdit?_concat_of_some hn, if_pos ⟨rfl, hclosed⟩] at hlast
    cases hlast
    obtain ⟨mode, hmode⟩ := Option.isSome_iff_exists.mp hmode
    refine .inr ⟨mode, ?_⟩
    rw [Awaits, debouncer_after, hn]
    exact (awaits_heed_iff (orderly_afterAll h.orderly es) n _).mpr (.inr ⟨hmode, rfl⟩)

/-- A notification about another document changes neither the text nor what waits nor what is
pending. -/
theorem Fresh.keepsUp_concat_of_other {s : Session} (h : s.Fresh) {es : List Event} {e : Event}
    {n : Note} {uri : String} {d : Day} (hn : e.note? = some n) (hother : n.uri ≠ uri)
    (ih : s.KeepsUp uri d es) : s.KeepsUp uri d (es ++ [e]) := by
  intro n' hlast hmode
  rw [lastEdit?_concat_of_some hn, if_neg fun hand => hother hand.1] at hlast
  rw [afterAll_concat]
  rcases ih n' hlast hmode with hdate | ⟨mode, hawaits⟩
  · refine .inl fun text htext hitems => ?_
    rw [documents_after, hn, Option.elim_some, get?_documentsAfter,
      if_neg fun hand => hother hand.1, if_neg fun hand => hother hand.1] at htext
    rw [← afterAll_concat, classifier_afterAll] at hitems ⊢
    have hpending : (s.afterAll (es ++ [e])).pending d = (s.afterAll es).pending d := by
      rw [pending, afterAll_concat, journal_after, recordings, runs_of_note hn]
      rfl
    rw [hpending, hdate text htext (by rwa [classifier_afterAll]), classifier_afterAll]
  · rcases awaits_after (orderly_afterAll h.orderly es) hawaits e with hrun | hafter
    · rw [runs_of_note hn] at hrun
      cases hrun
    · exact .inr ⟨mode, hafter⟩

/-- What is no notification runs a cycle of the document, or leaves its day alone. -/
theorem Fresh.keepsUp_concat_of_none {s : Session} (h : s.Fresh) {es : List Event} {e : Event}
    {uri : String} {d : Day} (apart : s.Apart es) (hday : s.dayOf? uri = some d)
    (hn : e.note? = none) (ih : s.KeepsUp uri d es) : s.KeepsUp uri d (es ++ [e]) := by
  intro n hlast hmode
  rw [lastEdit?_concat_of_none hn] at hlast
  rw [afterAll_concat]
  by_cases hrun : ∃ mode, ⟨uri, mode⟩ ∈ (s.afterAll es).runs e
  · obtain ⟨mode, hrun⟩ := hrun
    exact .inl (h.upToDate_of_mem_runs apart List.prefix_rfl hday hrun)
  · have hnone : ∀ mode, ⟨uri, mode⟩ ∉ (s.afterAll es).runs e := fun mode hmem =>
      hrun ⟨mode, hmem⟩
    rcases ih n hlast hmode with hdate | ⟨mode, hawaits⟩
    · refine .inl fun text htext hitems => ?_
      rw [documents_after, hn, Option.elim_none] at htext
      rw [← afterAll_concat, classifier_afterAll] at hitems ⊢
      rw [afterAll_concat, h.pending_after_of_not_mem_runs apart List.prefix_rfl
        (mem_heard_of_lastEdit? hlast) hday hnone]
      rw [hdate text htext (by rwa [classifier_afterAll]), classifier_afterAll]
    · rcases awaits_after (orderly_afterAll h.orderly es) hawaits e with hran | hafter
      · exact absurd hran (hnone mode)
      · exact .inr ⟨mode, hafter⟩

/-! ## §4 Conversations -/

/-- The invariant of a run: it holds at first, as no document has been heard of, and every event
keeps it. -/
theorem Fresh.keepsUp {s : Session} (h : s.Fresh) {uri : String} {d : Day}
    (hday : s.dayOf? uri = some d) {es : List Event} (apart : s.Apart es) : s.KeepsUp uri d es := by
  induction es using List.reverseRecOn with
  | nil =>
    intro n hlast
    cases hlast
  | append_singleton es e ih =>
    have hsub : heard es ⊆ heard (es ++ [e]) := heard_subset (List.prefix_append es [e])
    have apart' : s.Apart es := fun u hu v hv => apart u (hsub hu) v (hsub hv)
    cases hn : e.note? with
    | none => exact h.keepsUp_concat_of_none apart' hday hn (ih apart')
    | some n =>
      by_cases hown : n.uri = uri
      · subst hown
        exact h.keepsUp_concat_of_own hn
      · exact h.keepsUp_concat_of_other hn hown (ih apart')

/-- Nothing waits behind the end. -/
theorem not_awaits_after_finish (s : Session) (c : Cycle) : ¬ (s.after .finish).Awaits c := by
  rw [Awaits, debouncer_after]
  exact List.not_mem_nil

/-- **No edit is lost.** When a conversation is over in which no two documents are files of one
day, the pending entries of a day are those of the text of its document, if the document is still
open, was changed or saved when the editor last told of it, and has an item. -/
theorem pending_conversation (j : Journal) (window : Nat) (projectRoot : Option Path)
    (reportDirectory : Path) (es : List Event)
    (apart : (start j window projectRoot reportDirectory).Apart (conversation es)) :
    let s := start j window projectRoot reportDirectory
    let final := s.afterAll (conversation es)
    ∀ uri d edit text, s.dayOf? uri = some d →
      lastEdit? (conversation es) uri = some edit → edit.mode?.isSome →
      final.documents.get? uri = some text → itemsOf j.classifier d text ≠ [] →
      final.pending d = entriesOf j.classifier d text := by
  intro s final uri d edit text hday hlast hmode htext hitems
  have hfresh : s.Fresh := fresh_start ..
  have hclassifier : final.journal.classifier = j.classifier := classifier_afterAll s _
  rcases hfresh.keepsUp hday apart edit hlast hmode with hdate | ⟨mode, hawaits⟩
  · have hpending := hdate text htext
    rw [hclassifier] at hpending
    exact hpending hitems
  · -- the end of the conversation has run whatever waited
    rw [conversation, afterAll_concat] at hawaits
    exact absurd hawaits (not_awaits_after_finish _ _)

/-- The file is changed, and saved while the change waits; the change is recorded by time, the save
only when the editor exits. -/
def savedMidway : List Event :=
  [.message (Note.opened sampleUri "dev 1").toMessage,
    .message (Note.changed sampleUri (some "dev 2")).toMessage, .wait 50,
    .message (Note.saved sampleUri none).toMessage, .wait 60, .message { method := "exit" }]

/-- The pending entries of a file that is saved shortly before the editor exits. -/
theorem pending_conversation_savedMidway :
    (sample.afterAll (conversation savedMidway)).pending sampleDay =
      [{ category := "dev", hours := 2, minutes := 0, task := none, comment := "" }] := by
  have apart : sample.Apart (conversation savedMidway) := apart_of_forall_eq sampleUri (by decide)
  have hitems : itemsOf sample.journal.classifier sampleDay "dev 2" ≠ [] := by
    rw [itemsOf_sample.2]
    exact List.cons_ne_nil _ _
  have hpending := pending_conversation _ _ _ _ savedMidway apart sampleUri sampleDay
    (.saved sampleUri none) "dev 2" (by rfl) (by rfl) (by rfl) (by rfl) hitems
  exact hpending.trans (by rw [entriesOf]; exact congrArg _ itemsOf_sample.2)

end Session

end Daybook.Editor
