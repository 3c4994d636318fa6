/-
Daybook.Proofs.SaveLaws — what becomes of the texts that an editor saves.

A save schedules a cycle, and the cycle records the text that its document has
when the cycle is run, not the one it had when the save arrived. So a text that
arrives in between is committed although nobody saved it (§3), and a save is
lost when its document is closed in between (§4). Both laws are proved with the
exact condition on a run under which they hold.

§1 committed entries, §2 the documents of recordings, §3 only saves are
committed, §4 every save is kept.
-/
import Daybook.Proofs.WaitingCycles
import Mathlib.Data.List.Infix

namespace Daybook.Editor.Session

open Daybook.Journal (Recording itemsOf entriesOf latest?)

/-! ## §1 Committed entries -/

/-- The entries that are committed for a day. -/
def committed (s : Session) (d : Day) : List Entry := s.journal.store.held d.key false

@[simp] theorem classifier_afterAll (s : Session) (es : List Event) :
    (s.afterAll es).journal.classifier = s.journal.classifier := by
  rw [journal_afterAll, Journal.classifier_recordAll]

/-- What is committed for a day is what the latest recording of a save with an
item says, or what was committed before. -/
theorem committed_afterAll (s : Session) (es : List Event) (d : Day) :
    (s.afterAll es).committed d = (latest? s.journal.classifier (s.recordingsOf es) d false).elim
      (s.committed d) (Recording.entries s.journal.classifier) := by
  rw [committed, journal_afterAll, Journal.held_recordAll, committed]

/-! ## §2 Recordings and their documents -/

/-- A recording is made by a cycle of a document that has been heard of, and is of the text that
the document has. -/
theorem Fresh.cycle_of_mem_recordings {s : Session} (h : s.Fresh) {es : List Event} {e : Event}
    {k : Recording} (hk : k ∈ (s.afterAll es).recordings e) :
    ∃ uri ∈ heard es, s.dayOf? uri = some k.day ∧ ⟨uri, k.mode⟩ ∈ (s.afterAll es).runs e ∧
      (s.afterAll es).documents.get? uri = some k.text := by
  obtain ⟨⟨uri, mode⟩, hrun, hk⟩ := List.mem_filterMap.mp hk
  obtain ⟨hday, htext, rfl⟩ := recording?_eq_some_iff.mp hk
  rw [dayOf?_afterAll] at hday
  exact ⟨uri, h.mem_heard_of_awaits (awaits_of_mem_runs hrun), hday, hrun, htext⟩

/-- A cycle of a day file that is run records the text that its document has. -/
theorem mem_recordings_of_mem_runs {s : Session} {es : List Event} {e : Event} {c : Cycle} {d : Day}
    {text : String} (hrun : c ∈ (s.afterAll es).runs e) (hday : s.dayOf? c.uri = some d)
    (htext : (s.afterAll es).documents.get? c.uri = some text) :
    ⟨text, d, c.mode⟩ ∈ (s.afterAll es).recordings e := by
  rw [← dayOf?_afterAll s es] at hday
  exact List.mem_filterMap.mpr ⟨c, hrun, recording?_eq_some_iff.mpr ⟨hday, htext, rfl⟩⟩

/-- Recordings that one event makes for one day are of one document, and so of one text. -/
theorem Fresh.text_eq_of_mem_recordings {s : Session} (h : s.Fresh) {es before : List Event}
    {e : Event} {k k' : Recording} (apart : s.Apart es) (hbefore : before <+: es)
    (hk : k ∈ (s.afterAll before).recordings e) (hk' : k' ∈ (s.afterAll before).recordings e)
    (hday : k'.day = k.day) : k'.text = k.text := by
  obtain ⟨u, hu, huday, _, hutext⟩ := h.cycle_of_mem_recordings hk
  obtain ⟨v, hv, hvday, _, hvtext⟩ := h.cycle_of_mem_recordings hk'
  have hheard := heard_subset hbefore
  have huv : u = v := apart u (hheard hu) v (hheard hv) k.day huday (hday ▸ hvday)
  subst huv
  exact Option.some.inj (hvtext.symm.trans hutext)

/-- A save that an event records with an item is what is committed after it. -/
theorem committed_after_of_mem {s : Session} {e : Event} {k : Recording}
    (hk : k ∈ s.recordings e) (hmode : k.mode = .save) (hitems : k.items s.journal.classifier ≠ [])
    (hone : ∀ k' ∈ s.recordings e, k'.day = k.day → k'.text = k.text) :
    (s.after e).committed k.day = k.entries s.journal.classifier :=
  held_after_of_mem hk ⟨rfl, .inr hmode, hitems⟩ hone

/-! ## §3 Only saves are committed -/

/-- The text that a document of a day has when an event saves it. -/
def savedText? (s : Session) (d : Day) (e : Event) : Option String :=
  e.note?.bind fun n =>
    if n.mode? = some .save ∧ s.dayOf? n.uri = some d then (s.after e).documents.get? n.uri
    else none

/-- The texts that documents of a day had when they were saved. -/
def savedTexts (s : Session) (d : Day) : List Event → List String
  | [] => []
  | e :: es => (s.savedText? d e).toList ++ (s.after e).savedTexts d es

theorem savedTexts_append (s : Session) (d : Day) (es fs : List Event) :
    s.savedTexts d (es ++ fs) = s.savedTexts d es ++ (s.afterAll es).savedTexts d fs := by
  induction es generalizing s with
  | nil => rfl
  | cons e es ih => simp [savedTexts, ih, afterAll]

/-- What was saved stays saved. -/
theorem savedTexts_subset {s : Session} {d : Day} {es fs : List Event}
    (h : es <+: fs) : s.savedTexts d es ⊆ s.savedTexts d fs := by
  obtain ⟨rest, rfl⟩ := h
  rw [savedTexts_append]
  exact List.subset_append_left _ _

/-- At every moment of a run, what is committed for a day are the entries of a text that was
saved, or nothing. -/
def CommitsOnlySaves (s : Session) (es : List Event) : Prop :=
  ∀ moment, moment <+: es → ∀ d, (s.afterAll moment).committed d = [] ∨
    ∃ text ∈ s.savedTexts d moment,
      (s.afterAll moment).committed d = entriesOf s.journal.classifier d text

/-- Every cycle of a save finds a text with the entries of one that was saved before, or with no
entry. -/
def RunsOnSavedTexts (s : Session) (es : List Event) : Prop :=
  ∀ before e uri d text, before ++ [e] <+: es → ⟨uri, .save⟩ ∈ (s.afterAll before).runs e →
    s.dayOf? uri = some d → (s.afterAll before).documents.get? uri = some text →
    entriesOf s.journal.classifier d text = [] ∨
      ∃ saved ∈ s.savedTexts d before,
        entriesOf s.journal.classifier d text = entriesOf s.journal.classifier d saved

/-- No text arrives for a document while a save of it waits, but with another save. -/
def LeftAlone (s : Session) (es : List Event) : Prop :=
  ∀ before e n, before ++ [e] <+: es → e.note? = some n → n.mode? ≠ some .save →
    n.text?.isSome → ¬ (s.afterAll before).Awaits ⟨n.uri, .save⟩

/-- An event that runs a cycle saves nothing. -/
theorem savedTexts_concat_of_mem_runs {s : Session} {d : Day} {es : List Event} {e : Event}
    {c : Cycle} (hrun : c ∈ (s.afterAll es).runs e) :
    s.savedTexts d (es ++ [e]) = s.savedTexts d es := by
  have hnote : e.note? = none := by
    cases hn : e.note? with
    | none => rfl
    | some n =>
      rw [runs_of_note hn] at hrun
      cases hrun
  simp [savedTexts_append, savedTexts, savedText?, hnote]

/-- If saves alone commit, then every cycle of a save finds a saved text. -/
theorem Fresh.runsOnSavedTexts {s : Session} (h : s.Fresh) {es : List Event} (apart : s.Apart es)
    (hlaw : s.CommitsOnlySaves es) : s.RunsOnSavedTexts es := by
  intro before e uri d text hpre hrun hday htext
  have hk := mem_recordings_of_mem_runs hrun hday htext
  by_cases hitems : itemsOf s.journal.classifier d text = []
  · exact .inl (by rw [entriesOf, hitems, List.filterMap_nil])
  · have hbefore : before <+: es := (List.prefix_append before [e]).trans hpre
    have hcommitted : ((s.afterAll before).after e).committed d =
        entriesOf (s.afterAll before).journal.classifier d text :=
      committed_after_of_mem hk rfl (by rwa [classifier_afterAll])
        fun k' hk' => h.text_eq_of_mem_recordings apart hbefore hk hk'
    rw [← afterAll_concat, classifier_afterAll] at hcommitted
    have hthen := hlaw (before ++ [e]) hpre d
    -- the law speaks of the moment after the cycle, the condition of the one before it
    rw [hcommitted, savedTexts_concat_of_mem_runs hrun] at hthen
    exact hthen

/-- If every cycle of a save finds a saved text, then saves alone commit. -/
theorem RunsOnSavedTexts.commitsOnlySaves {s : Session} (hfresh : s.Fresh) {es : List Event}
    (h : s.RunsOnSavedTexts es) (hempty : ∀ d, s.committed d = []) : s.CommitsOnlySaves es := by
  intro moment hmoment d
  rw [committed_afterAll, hempty]
  cases hlatest : latest? s.journal.classifier (s.recordingsOf moment) d false with
  | none => exact .inl rfl
  | some k =>
    -- what is committed is what the latest recording of a save put there, at some event before
    obtain ⟨hmem, rfl, hmode, _⟩ := Journal.latest?_eq_some hlatest
    obtain ⟨before, e, hpre, hk⟩ := mem_recordingsOf_iff.mp hmem
    obtain ⟨uri, _, hday, hrun, htext⟩ := hfresh.cycle_of_mem_recordings hk
    rw [hmode.resolve_left Bool.false_ne_true] at hrun
    have hbefore : before <+: moment := (List.prefix_append before [e]).trans hpre
    refine (h before e uri k.day k.text (hpre.trans hmoment) hrun hday htext).imp_right ?_
    rintro ⟨saved, hsaved, heq⟩
    exact ⟨saved, savedTexts_subset hbefore hsaved, heq⟩

theorem mem_savedTexts_singleton {s : Session} {d : Day} {e : Event} {n : Note} {text : String}
    (hn : e.note? = some n) (hmode : n.mode? = some .save) (hday : s.dayOf? n.uri = some d)
    (htext : (s.after e).documents.get? n.uri = some text) : text ∈ s.savedTexts d [e] := by
  simp [savedTexts, savedText?, hn, hmode, hday, htext]

/-- As long as documents are left alone, one whose save waits has a text that was saved, or none. -/
theorem Fresh.mem_savedTexts {s : Session} (h : s.Fresh) {es : List Event} {uri text : String}
    {d : Day} (alone : s.LeftAlone es) (hday : s.dayOf? uri = some d)
    (hawaits : (s.afterAll es).Awaits ⟨uri, .save⟩)
    (htext : (s.afterAll es).documents.get? uri = some text) : text ∈ s.savedTexts d es := by
  induction es using List.reverseRecOn with
  | nil => simp [h.documents, Documents.get?] at htext
  | append_singleton es e ih =>
    rw [afterAll_concat] at hawaits htext
    have ih := ih fun before f n hpre => alone before f n (hpre.trans (List.prefix_append es [e]))
    rw [← dayOf?_afterAll s es] at hday
    rw [savedTexts_append, List.mem_append]
    rcases awaits_of_awaits_after (orderly_afterAll h.orderly es) hawaits with
      hbefore | ⟨n, hn, hmode, rfl⟩
    · cases hn : e.note? with
      | none => exact .inl (ih hbefore (by simpa [documents_after, hn] using htext))
      | some n =>
        have hafter := htext
        rw [documents_after, hn, Option.elim_some, get?_documentsAfter] at hafter
        split at hafter
        · cases hafter
        · split at hafter
          · next hset =>
            obtain ⟨rfl, hsome⟩ := hset
            -- a text that came with anything but a save would have met the save that waits
            by_cases hmode : n.mode? = some .save
            · exact .inr (mem_savedTexts_singleton hn hmode hday htext)
            · exact absurd hbefore (alone es e n List.prefix_rfl hn hmode hsome)
          · exact .inl (ih hbefore hafter)
    · exact .inr (mem_savedTexts_singleton hn hmode hday htext)

/-- A save that nothing disturbs while it waits finds the saved text. -/
theorem Fresh.runsOnSavedTexts_of_leftAlone {s : Session} (h : s.Fresh) {es : List Event}
    (alone : s.LeftAlone es) : s.RunsOnSavedTexts es := by
  intro before e uri d text hpre hrun hday htext
  have hbefore : before <+: es := (List.prefix_append before [e]).trans hpre
  have halone : s.LeftAlone before := fun b f n hb => alone b f n (hb.trans hbefore)
  exact .inr ⟨text, h.mem_savedTexts halone hday (awaits_of_mem_runs hrun) htext, rfl⟩

/-- **When only saves are committed.** In a run of a session that starts out with nothing
recorded, and in which no two documents are files of one day, whatever is committed are the entries
of a text that was saved if and only if the cycles of saves find the entries of such texts; and
this is so if no text arrives for a document while a save of it waits. -/
theorem commitsOnlySaves_iff (c : Classifier) (window : Nat) (projectRoot : Option Path)
    (reportDirectory : Path) (es : List Event)
    (apart : (start { classifier := c } window projectRoot reportDirectory).Apart es) :
    let s := start { classifier := c } window projectRoot reportDirectory
    (s.CommitsOnlySaves es ↔ s.RunsOnSavedTexts es) ∧ (s.LeftAlone es → s.CommitsOnlySaves es) := by
  intro s
  have hfresh : s.Fresh := fresh_start ..
  have hempty : ∀ d, s.committed d = [] := fun d => rfl
  have hiff : s.CommitsOnlySaves es ↔ s.RunsOnSavedTexts es :=
    ⟨hfresh.runsOnSavedTexts apart, fun h => h.commitsOnlySaves hfresh hempty⟩
  exact ⟨hiff, fun alone => hiff.mpr (hfresh.runsOnSavedTexts_of_leftAlone alone)⟩

def sample : Session :=
  start { classifier := ({ regular := ["dev"] } : Rules).classifier } 100 none ⟨[]⟩

def sampleUri : String := "file:///2022/02/02.tsf"

theorem isDate_sampleDay : IsDate 2022 2 2 := by decide

def sampleDay : Day := ⟨2022, 2, 2, isDate_sampleDay⟩

theorem itemsOf_sample :
    itemsOf sample.journal.classifier sampleDay "dev 1" =
      [.entry { category := "dev", hours := 1, minutes := 0, task := none, comment := "" }] ∧
    itemsOf sample.journal.classifier sampleDay "dev 2" =
      [.entry { category := "dev", hours := 2, minutes := 0, task := none, comment := "" }] :=
  ⟨by rfl, by rfl⟩

/-- The file is saved, and changed once the save has been recorded. -/
def changedLater : List Event :=
  [.message (Note.opened sampleUri "dev 1").toMessage,
    .message (Note.saved sampleUri none).toMessage, .wait 100,
    .message (Note.changed sampleUri (some "dev 2")).toMessage, .wait 100]

/-- A text that arrives after the save of another has been recorded is not committed. -/
theorem commitsOnlySaves_changedLater : sample.CommitsOnlySaves changedLater := by
  have apart : sample.Apart changedLater := apart_of_forall_eq sampleUri (by decide)
  refine (commitsOnlySaves_iff _ _ _ _ _ apart).2 ?_
  intro before e n hpre hn hmode htext hawaits
  rcases before with _ | ⟨a, _ | ⟨b, _ | ⟨c, _ | ⟨d, _ | ⟨f, rest⟩⟩⟩⟩⟩ <;>
    simp only [changedLater, List.cons_append, List.nil_append, List.cons_prefix_cons,
      List.nil_prefix, and_true, List.prefix_nil] at hpre
  · cases hawaits
  · obtain ⟨rfl, rfl⟩ := hpre
    rw [Event.note?_toMessage] at hn
    cases hn
    exact hmode rfl
  · obtain ⟨rfl, rfl, rfl⟩ := hpre
    cases hn
  · obtain ⟨rfl, rfl, rfl, rfl⟩ := hpre
    rw [Event.note?_toMessage] at hn
    cases hn
    exact absurd hawaits (by decide)
  · obtain ⟨rfl, rfl, rfl, rfl, rfl⟩ := hpre
    cases hn
  · simp at hpre

/-- The file is saved, and changed while the save waits. -/
def changedAtOnce : List Event :=
  [.message (Note.opened sampleUri "dev 1").toMessage,
    .message (Note.saved sampleUri none).toMessage,
    .message (Note.changed sampleUri (some "dev 2")).toMessage, .wait 100]

/-- A text that arrives while the save of another waits is committed, although nobody saved it. -/
theorem not_commitsOnlySaves_changedAtOnce :
    sample.Apart changedAtOnce ∧ ¬ sample.CommitsOnlySaves changedAtOnce := by
  refine ⟨apart_of_forall_eq sampleUri (by decide), fun hlaw => ?_⟩
  have hcommitted : (sample.afterAll changedAtOnce).committed sampleDay =
      [{ category := "dev", hours := 2, minutes := 0, task := none, comment := "" }] := by rfl
  have hsaved : sample.savedTexts sampleDay changedAtOnce = ["dev 1"] := by rfl
  have h := hlaw changedAtOnce List.prefix_rfl sampleDay
  rw [hcommitted, hsaved] at h
  rcases h with hnil | ⟨text, htext, heq⟩
  · exact absurd hnil (List.cons_ne_nil _ _)
  · rw [List.mem_singleton.mp htext, entriesOf, itemsOf_sample.1] at heq
    exact absurd heq (by decide)

/-! ## §4 Every save is kept -/

/-- The texts that a document has in the course of a run. -/
def textsHeld (s : Session) (uri : String) (es : List Event) : List String :=
  es.inits.filterMap fun moment => (s.afterAll moment).documents.get? uri

/-- The texts that a document has in a run are those it has at some moment of
it. -/
theorem mem_textsHeld_iff {s : Session} {uri text : String} {es : List Event} :
    text ∈ s.textsHeld uri es ↔
      ∃ moment, moment <+: es ∧ (s.afterAll moment).documents.get? uri = some text := by
  simp [textsHeld]

/-- Whether a document has a text with an item for a day. -/
def HasItem (s : Session) (uri : String) (d : Day) : Prop :=
  ∃ text, s.documents.get? uri = some text ∧ itemsOf s.journal.classifier d text ≠ []

/-- A run goes up to a save of a day file that has an item, and then on to its end. -/
structure SaveArrives (s : Session) (run upTo rest : List Event) (uri : String) (d : Day) :
    Prop where
  split : run = upTo ++ rest
  save : ∃ text, upTo.getLast?.bind Event.note? = some (.saved uri text)
  day : s.dayOf? uri = some d
  item : (s.afterAll upTo).HasItem uri d

/-- What is committed for a day are the entries of one of some texts, which has an item. -/
def CommitsOneOf (s : Session) (texts : List String) (d : Day) : Prop :=
  ∃ text ∈ texts, itemsOf s.journal.classifier d text ≠ [] ∧
    s.committed d = entriesOf s.journal.classifier d text

/-- What is committed for a day when a run ends are the entries of a text that its document has
in the course of the run. -/
def KeepsSave (s : Session) (uri : String) (d : Day) (es : List Event) : Prop :=
  (s.afterAll es).CommitsOneOf (s.textsHeld uri es) d

/-- A cycle of a save of a document is run when the document has an item. -/
def RunsOnItem (s : Session) (uri : String) (d : Day) (es : List Event) : Prop :=
  ∃ before e, before ++ [e] <+: es ∧ ⟨uri, .save⟩ ∈ (s.afterAll before).runs e ∧
    (s.afterAll before).HasItem uri d

/-- A document has an item at all times at which a save of it waits. -/
def StaysOpen (s : Session) (uri : String) (d : Day) (es : List Event) : Prop :=
  ∀ moment, moment <+: es → (s.afterAll moment).Awaits ⟨uri, .save⟩ →
    (s.afterAll moment).HasItem uri d

theorem SaveArrives.mem_heard {s : Session} {run upTo rest : List Event} {uri : String} {d : Day}
    (h : s.SaveArrives run upTo rest uri d) : uri ∈ heard upTo := by
  obtain ⟨text, hsave⟩ := h.save
  obtain ⟨e, he, hn⟩ := Option.bind_eq_some_iff.mp hsave
  exact List.mem_map.mpr ⟨_, List.mem_filterMap.mpr ⟨e, List.mem_of_getLast? he, hn⟩, rfl⟩

/-- A save that has arrived waits. -/
theorem SaveArrives.awaits {s : Session} (horderly : s.debouncer.Orderly)
    {run upTo rest : List Event} {uri : String} {d : Day}
    (h : s.SaveArrives run upTo rest uri d) :
    (s.afterAll upTo).Awaits ⟨uri, .save⟩ := by
  obtain ⟨text, hsave⟩ := h.save
  obtain ⟨e, he, hn⟩ := Option.bind_eq_some_iff.mp hsave
  obtain ⟨before, rfl⟩ := List.getLast?_eq_some_iff.mp he
  rw [afterAll_concat, Awaits, debouncer_after, hn]
  exact (awaits_heed_iff (orderly_afterAll horderly before) _ _).mpr (.inr ⟨rfl, rfl⟩)

/-- A conversation does not end with a save. -/
theorem SaveArrives.exists_rest {s : Session} {es upTo rest : List Event} {uri : String} {d : Day}
    (h : s.SaveArrives (conversation es) upTo rest uri d) : ∃ fs, rest = fs ++ [.finish] := by
  have hsplit := h.split
  rw [conversation] at hsplit
  rcases List.eq_nil_or_concat rest with rfl | ⟨fs, x, rfl⟩
  · obtain ⟨text, hsave⟩ := h.save
    rw [List.append_nil] at hsplit
    rw [← hsplit, List.getLast?_concat] at hsave
    cases hsave
  · rw [List.concat_eq_append, ← List.append_assoc] at hsplit
    obtain ⟨_, hx⟩ := List.append_inj' hsplit rfl
    exact ⟨fs, by rw [List.concat_eq_append, hx]⟩

/-- What is recorded for the day of a save that has arrived is recorded by cycles of its
document. -/
theorem Fresh.cycle_of_mem_recordingsOf {s : Session} (hfresh : s.Fresh)
    {run upTo rest : List Event} {uri : String} {d : Day} (apart : s.Apart run)
    (h : s.SaveArrives run upTo rest uri d) {k : Recording}
    (hk : k ∈ (s.afterAll upTo).recordingsOf rest) (hday : k.day = d) :
    ∃ before e, before ++ [e] <+: rest ∧
      ⟨uri, k.mode⟩ ∈ ((s.afterAll upTo).afterAll before).runs e ∧
      ((s.afterAll upTo).afterAll before).documents.get? uri = some k.text := by
  obtain ⟨before, e, hpre, hk⟩ := mem_recordingsOf_iff.mp hk
  rw [← afterAll_append] at hk
  obtain ⟨v, hv, hvday, hrun, htext⟩ := hfresh.cycle_of_mem_recordings hk
  have hbefore : before <+: rest := (List.prefix_append before [e]).trans hpre
  have hupTo : upTo ++ before <+: run :=
    h.split ▸ (List.prefix_append_right_inj upTo).mpr hbefore
  have huri := heard_subset ((List.prefix_append upTo before).trans hupTo) h.mem_heard
  have huv : uri = v :=
    apart uri huri v (heard_subset hupTo hv) d h.day (hday ▸ hvday)
  subst huv
  rw [afterAll_append] at hrun htext
  exact ⟨before, e, hpre, hrun, htext⟩

/-- A cycle of a save is run on an item just if something is committed for its
day from then on. -/
theorem Fresh.runsOnItem_iff {s : Session} (hfresh : s.Fresh) {run upTo rest : List Event}
    {uri : String} {d : Day} (apart : s.Apart run) (h : s.SaveArrives run upTo rest uri d) :
    (s.afterAll upTo).RunsOnItem uri d rest ↔
      ∃ k ∈ (s.afterAll upTo).recordingsOf rest, k.Sets s.journal.classifier d false := by
  constructor
  · rintro ⟨before, e, hpre, hrun, text, htext, hitems⟩
    rw [classifier_afterAll, classifier_afterAll] at hitems
    have hday : (s.afterAll upTo).dayOf? uri = some d := (dayOf?_afterAll s upTo uri).trans h.day
    have hk := mem_recordings_of_mem_runs hrun hday htext
    exact ⟨_, mem_recordingsOf_iff.mpr ⟨before, e, hpre, hk⟩, rfl, .inr rfl, hitems⟩
  · rintro ⟨k, hk, rfl, hmode, hitems⟩
    obtain ⟨before, e, hpre, hrun, htext⟩ := hfresh.cycle_of_mem_recordingsOf apart h hk rfl
    rw [hmode.resolve_left Bool.false_ne_true] at hrun
    refine ⟨before, e, hpre, hrun, k.text, htext, ?_⟩
    rwa [classifier_afterAll, classifier_afterAll]

/-- A save is kept just if its cycle is run on an item, or what is committed is
a text of the document all the same. -/
theorem Fresh.keeps_iff {s : Session} (hfresh : s.Fresh) {run upTo rest : List Event}
    {uri : String} {d : Day} (apart : s.Apart run) (h : s.SaveArrives run upTo rest uri d) :
    (s.afterAll upTo).KeepsSave uri d rest ↔
      (s.afterAll upTo).RunsOnItem uri d rest ∨
        (s.afterAll upTo).CommitsOneOf ((s.afterAll upTo).textsHeld uri rest) d := by
  rw [hfresh.runsOnItem_iff apart h, KeepsSave, CommitsOneOf, CommitsOneOf, committed_afterAll,
    classifier_afterAll, classifier_afterAll]
  cases hlatest : latest? s.journal.classifier ((s.afterAll upTo).recordingsOf rest) d false with
  | none =>
    have hnone := Journal.latest?_eq_none_iff.mp hlatest
    exact ⟨.inr, fun hor => hor.resolve_left fun ⟨k, hk, hsets⟩ => hnone k hk hsets⟩
  | some k =>
    -- the latest save that is recorded is of a text that the document had then
    obtain ⟨hk, rfl, hmode, hitems⟩ := Journal.latest?_eq_some hlatest
    obtain ⟨before, e, hpre, _, htext⟩ := hfresh.cycle_of_mem_recordingsOf apart h hk rfl
    have hbefore : before <+: rest := (List.prefix_append before [e]).trans hpre
    exact ⟨fun _ => .inl ⟨k, hk, rfl, hmode, hitems⟩,
      fun _ => ⟨k.text, mem_textsHeld_iff.mpr ⟨before, hbefore, htext⟩, hitems, rfl⟩⟩

/-- A save that waits for a document that stays open is run on an item in the end. -/
theorem StaysOpen.runsOnItem {s : Session} (horderly : s.debouncer.Orderly) {uri : String} {d : Day}
    {es : List Event} (hopen : s.StaysOpen uri d (es ++ [.finish]))
    (hawaits : s.Awaits ⟨uri, .save⟩) : s.RunsOnItem uri d (es ++ [.finish]) := by
  -- the save waits until some event runs it; the end runs it at the latest
  induction es generalizing s with
  | nil => exact ⟨[], .finish, List.prefix_rfl, hawaits, hopen [] List.nil_prefix hawaits⟩
  | cons e es ih =>
    rcases awaits_after horderly hawaits e with hrun | hafter
    · have hpre : [] ++ [e] <+: (e :: es) ++ [.finish] := List.prefix_append [e] _
      exact ⟨[], e, hpre, hrun, hopen [] List.nil_prefix hawaits⟩
    · have htail : (s.after e).StaysOpen uri d (es ++ [.finish]) := fun moment hmoment =>
        hopen (e :: moment) ((List.prefix_cons_inj e).mpr hmoment)
      obtain ⟨before, f, hpre, hrun, hitem⟩ := ih (orderly_after horderly e) htail hafter
      exact ⟨e :: before, f, (List.prefix_cons_inj e).mpr hpre, hrun, hitem⟩

/-- **When a save is kept.** In a conversation in which no two documents are files of one day, a
save with an item is kept if and only if from then on a cycle of a save of its document is run when
the document has an item, or what is committed already are the entries of a text that the document
has from then on; and this is so if the document has an item at all times at which a save of it
waits. -/
theorem keepsSave_iff (j : Journal) (window : Nat) (projectRoot : Option Path)
    (reportDirectory : Path) (es : List Event)
    (apart : (start j window projectRoot reportDirectory).Apart (conversation es)) :
    ∀ upTo rest uri d,
      let s := start j window projectRoot reportDirectory
      let saved := s.afterAll upTo
      s.SaveArrives (conversation es) upTo rest uri d →
      (saved.KeepsSave uri d rest ↔
        saved.RunsOnItem uri d rest ∨ saved.CommitsOneOf (saved.textsHeld uri rest) d) ∧
      (saved.StaysOpen uri d rest → saved.KeepsSave uri d rest) := by
  intro upTo rest uri d s saved h
  have hfresh : s.Fresh := fresh_start ..
  have hiff := hfresh.keeps_iff apart h
  refine ⟨hiff, fun hopen => hiff.mpr (.inl ?_)⟩
  obtain ⟨fs, rfl⟩ := h.exists_rest
  exact hopen.runsOnItem (orderly_afterAll hfresh.orderly upTo) (h.awaits hfresh.orderly)

/-- The file is saved, and changed while the save waits; then the editor falls silent. -/
def leftOpen : List Event :=
  [.message (Note.opened sampleUri "dev 1").toMessage,
    .message (Note.saved sampleUri none).toMessage,
    .message (Note.changed sampleUri (some "dev 2")).toMessage]

/-- A save is kept that waits when the conversation ends. -/
theorem keepsSave_leftOpen :
    (sample.afterAll (leftOpen.take 2)).KeepsSave sampleUri sampleDay
      (leftOpen.drop 2 ++ [.finish]) := by
  have apart : sample.Apart (conversation leftOpen) :=
    apart_of_forall_eq sampleUri (by decide)
  have harrives : sample.SaveArrives (conversation leftOpen) (leftOpen.take 2)
      (leftOpen.drop 2 ++ [.finish]) sampleUri sampleDay :=
    ⟨by rfl, ⟨none, by rfl⟩, by rfl, "dev 1", by rfl, by simp [itemsOf_sample.1]⟩
  have hopen : (sample.afterAll (leftOpen.take 2)).StaysOpen sampleUri sampleDay
      (leftOpen.drop 2 ++ [.finish]) := by
    intro moment hmoment _
    rw [leftOpen, List.drop_succ_cons, List.drop_succ_cons, List.drop_zero] at hmoment
    rcases moment with _ | ⟨a, _ | ⟨b, _ | ⟨c, rest⟩⟩⟩ <;>
      simp only [List.cons_append, List.nil_append, List.cons_prefix_cons, List.prefix_nil,
        List.nil_prefix, and_true] at hmoment
    · exact ⟨"dev 1", by rfl, by simp [itemsOf_sample.1]⟩
    · subst hmoment
      exact ⟨"dev 2", by rfl, by simp [itemsOf_sample.2]⟩
    · obtain ⟨rfl, rfl⟩ := hmoment
      exact ⟨"dev 2", by rfl, by simp [itemsOf_sample.2]⟩
    · simp at hmoment
  exact (keepsSave_iff _ _ _ _ leftOpen apart _ _ _ _ harrives).2 hopen

/-- The file is saved, and closed while the save waits. -/
def closedAtOnce : List Event :=
  [.message (Note.opened sampleUri "dev 1").toMessage,
    .message (Note.saved sampleUri none).toMessage,
    .message (Note.closed sampleUri).toMessage]

/-- A save is lost whose file is closed while it waits. -/
theorem not_keepsSave_closedAtOnce :
    sample.Apart (conversation closedAtOnce) ∧
    sample.SaveArrives (conversation closedAtOnce) (closedAtOnce.take 2)
      (closedAtOnce.drop 2 ++ [.finish]) sampleUri sampleDay ∧
    ¬ (sample.afterAll (closedAtOnce.take 2)).KeepsSave sampleUri sampleDay
      (closedAtOnce.drop 2 ++ [.finish]) := by
  have apart : sample.Apart (conversation closedAtOnce) :=
    apart_of_forall_eq sampleUri (by decide)
  have harrives : sample.SaveArrives (conversation closedAtOnce) (closedAtOnce.take 2)
      (closedAtOnce.drop 2 ++ [.finish]) sampleUri sampleDay :=
    ⟨by rfl, ⟨none, by rfl⟩, by rfl, "dev 1", by rfl, by simp [itemsOf_sample.1]⟩
  refine ⟨apart, harrives, fun ⟨text, htext, hitems, heq⟩ => ?_⟩
  have hcommitted : (sample.afterAll (conversation closedAtOnce)).committed sampleDay = [] := by
    rfl
  have hheld : (sample.afterAll (closedAtOnce.take 2)).textsHeld sampleUri
      (closedAtOnce.drop 2 ++ [.finish]) = ["dev 1"] := by rfl
  rw [hheld, List.mem_singleton] at htext
  rw [← afterAll_append, ← harrives.split, hcommitted, htext, classifier_afterAll, entriesOf,
    itemsOf_sample.1] at heq
  exact absurd heq (by decide)

end Daybook.Editor.Session
