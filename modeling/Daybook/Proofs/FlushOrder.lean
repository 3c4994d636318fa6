/-
Daybook.Proofs.FlushOrder — what waits may be run in any order.

At a shutdown, and at the end, all cycles that wait are run in whatever order
they come to hand. A cycle records the text that its document has at that
time, so two cycles of one document record the same text, and cycles of other
documents are about other days. Whichever runs first, every day is left with
the same two lists (§2). The rows behind them are numbered differently, but no
query shows that (§1). What is published is the same in another order, as each
cycle publishes what it would on its own (§3). Main statement:
`flush_any_order` (§5), for every state that a session gets into (§4).
-/
import Daybook.Proofs.Breakdown
import Daybook.Proofs.Replies
import Mathlib.Data.Int.Interval

namespace Daybook

/-! ## §1 Stores with the same lists -/

namespace Store

/-- The days of a span can be listed, however long it is. -/
theorem exists_isListedBy (span : Day.Span) : ∃ days, IsListedBy span days := by
  have hfinite : {d : Day | span.first ≤ d ∧ d ≤ span.last}.Finite := by
    have hkeys := Set.finite_Icc span.first.key span.last.key
    refine (hkeys.preimage fun _ _ _ _ => Day.key_inj.mp).subset fun d hd => ?_
    exact ⟨Day.key_le_key.mpr hd.1, Day.key_le_key.mpr hd.2⟩
  have hsorted := @Order.pairwise_sortBy_of_nodup Day (fun a b => decide (a ≤ b))
    (fun a b => by simpa [← Day.key_le_key] using Int.le_total a.key b.key)
    (fun a b c hab hbc => by
      simp only [decide_eq_true_eq, ← Day.key_le_key] at hab hbc ⊢
      exact hab.trans hbc)
    _ hfinite.toFinset.nodup_toList
  refine ⟨_, hsorted.imp fun {a b} h => ?_, fun d => by simp⟩
  have hle : a.key ≤ b.key := Day.key_le_key.mpr (of_decide_eq_true h.1)
  have hne : a.key ≠ b.key := fun hkey => h.2 (Day.key_inj.mp hkey)
  exact Day.key_lt_key.mp (by omega)

/-- Two stores hold the same lists for every day, however their rows are numbered. -/
def SameLists (a b : Store) : Prop :=
  ∀ (d : Day) (pending : Bool), a.held d.key pending = b.held d.key pending

section SameLists

variable {a b : Store} (ha : a.WellFormed) (hb : b.WellFormed)

include ha hb

/-- The breakdown of a day does not see how rows are numbered. -/
theorem SameLists.dayEntries_eq (h : SameLists a b) (d : Day) :
    a.dayEntries d = b.dayEntries d := by
  rw [ha.dayEntries_eq, hb.dayEntries_eq, h, h]

/-- They answer alike about every span, beyond a month as well. -/
theorem SameLists.inSpan_eq (h : SameLists a b) (span : Day.Span) :
    a.inSpan span = b.inSpan span := by
  obtain ⟨days, hsorted, hmem⟩ := exists_isListedBy span
  rw [inSpan, inSpan, ha.recordsBetween_eq_of_days hsorted hmem,
    hb.recordsBetween_eq_of_days hsorted hmem, funext (h.dayEntries_eq ha hb)]

end SameLists

end Store

/-! ## §2 Recordings in any order -/

namespace Journal

/-- Two journals read alike, and answer alike about every day and every span of days. -/
structure AnswersAlike (j k : Journal) : Prop where
  classifier : j.classifier = k.classifier
  dayEntries : ∀ d, j.dayEntries d = k.dayEntries d
  records : ∀ span, j.store.inSpan span = k.store.inSpan span
  daily : ∀ d, j.daily d = k.daily d
  weekly : ∀ d, j.weekly d = k.weekly d
  monthly : ∀ d, j.monthly d = k.monthly d

/-- Journals with the same rules and the same lists answer alike. -/
theorem answersAlike_of_sameLists {j k : Journal} (hclassifier : j.classifier = k.classifier)
    (hj : j.store.WellFormed) (hk : k.store.WellFormed) (h : j.store.SameLists k.store) :
    j.AnswersAlike k := by
  have hrecords : ∀ span, j.store.inSpan span = k.store.inSpan span := h.inSpan_eq hj hk
  have htotals : ∀ span, j.totals (j.store.inSpan span) = k.totals (k.store.inSpan span) :=
    fun span => by rw [totals, totals, hclassifier, hrecords]
  exact {
    classifier := hclassifier
    dayEntries := h.dayEntries_eq hj hk
    records := hrecords
    daily := fun d => htotals ⟨d, d⟩
    weekly := fun d => htotals d.weekSpan
    monthly := fun d => htotals d.monthSpan }

/-- Recordings of one day are of one text. -/
def OneTextADay (ks : List Recording) : Prop :=
  ∀ k ∈ ks, ∀ k' ∈ ks, k.day = k'.day → k.text = k'.text

/-- A list of a day is set by some recording or by none, whatever their order, and to the entries
of one text. -/
theorem sameLists_recordAll (j : Journal) {ks ks' : List Recording} (hperm : ks.Perm ks')
    (hone : OneTextADay ks) : (j.recordAll ks).store.SameLists (j.recordAll ks').store := by
  intro d pending
  rw [held_recordAll, held_recordAll]
  cases h : latest? j.classifier ks d pending with
  | none =>
    have hnone : latest? j.classifier ks' d pending = none :=
      latest?_eq_none_iff.mpr fun k hk => latest?_eq_none_iff.mp h k (hperm.mem_iff.mpr hk)
    rw [hnone]
  | some k =>
    obtain ⟨hk, hsets⟩ := latest?_eq_some h
    cases h' : latest? j.classifier ks' d pending with
    | none => exact absurd hsets (latest?_eq_none_iff.mp h' k (hperm.mem_iff.mp hk))
    | some k' =>
      obtain ⟨hk', hsets'⟩ := latest?_eq_some h'
      have hday : k.day = k'.day := hsets.1.trans hsets'.1.symm
      have htext : k.text = k'.text := hone k hk k' (hperm.mem_iff.mpr hk') hday
      rw [Option.elim_some, Option.elim_some, Recording.entries, Recording.entries, hday, htext]

/-- **Recordings may be made in any order**, if those of one day are of one text. -/
theorem recordAll_perm {j : Journal} (hj : j.store.WellFormed) {ks ks' : List Recording}
    (hperm : ks.Perm ks') (hone : OneTextADay ks) :
    (j.recordAll ks).AnswersAlike (j.recordAll ks') :=
  answersAlike_of_sameLists (by simp) (wellFormed_recordAll hj ks) (wellFormed_recordAll hj ks')
    (sameLists_recordAll j hperm hone)

end Journal

/-! ## §3 Cycles in any order -/

namespace Editor.Session

/-- No two documents of these cycles are files of one day. -/
def DaysApart (s : Session) (cs : List Cycle) : Prop :=
  ∀ c ∈ cs, ∀ c' ∈ cs, (s.dayOf? c.uri).isSome → s.dayOf? c'.uri = s.dayOf? c.uri → c'.uri = c.uri

instance (s : Session) (cs : List Cycle) : Decidable (s.DaysApart cs) :=
  inferInstanceAs (Decidable (∀ c ∈ cs, ∀ c' ∈ cs, _ → _ → _))

/-- Cycles whose documents are of different days record one text for each day. -/
theorem DaysApart.oneTextADay {s : Session} {cs : List Cycle} (h : s.DaysApart cs) :
    Journal.OneTextADay (cs.filterMap s.recording?) := by
  intro k hk k' hk' hday
  obtain ⟨c, hc, hck⟩ := List.mem_filterMap.mp hk
  obtain ⟨c', hc', hck'⟩ := List.mem_filterMap.mp hk'
  obtain ⟨hd, htext, _⟩ := recording?_eq_some_iff.mp hck
  obtain ⟨hd', htext', _⟩ := recording?_eq_some_iff.mp hck'
  have huri : c'.uri = c.uri := h c hc c' hc' (by simp [hd]) (by rw [hd, hd', hday])
  rw [huri] at htext'
  exact Option.some.inj (htext.symm.trans htext')

/-- Two ways on from a session come to the same: the journals answer alike, the same is published
in some order, and all else is equal. -/
structure ComeToTheSame (r r' : Session × List Outgoing) : Prop where
  answers : r.1.journal.AnswersAlike r'.1.journal
  published : r.2.Perm r'.2
  rest : r'.1 = { r.1 with journal := r'.1.journal }

/-- Cycles come to the same in any order when no two of their documents are of
one day. -/
theorem runCycles_perm {s : Session} (hs : s.journal.store.WellFormed) {cs cs' : List Cycle}
    (hperm : cs.Perm cs') (hapart : s.DaysApart cs) :
    ComeToTheSame (s.runCycles cs) (s.runCycles cs') where
  answers := by
    rw [fst_runCycles, fst_runCycles]
    exact Journal.recordAll_perm hs (hperm.filterMap s.recording?) hapart.oneTextADay
  published := by
    rw [snd_runCycles, snd_runCycles]
    exact hperm.flatMap_right _
  rest := by rw [fst_runCycles, fst_runCycles]

/-! ## §4 The states of a session -/

/-- Runs the cycles that wait, in the order in which they come to hand. -/
def flushIn (s : Session) (order : List Cycle) : Session × List Outgoing :=
  runCycles { s with debouncer := s.debouncer.flush.1 } order

/-- They may come to hand as they were scheduled. -/
theorem flushIn_actions (s : Session) : s.flushIn s.debouncer.actions = s.flush := rfl

/-- What a session gets into: it starts out with any journal that recordings lead to, and whatever
happens, all that waits may be run in any order, at the end or because the editor shuts it down. -/
inductive Reachable : Session → Prop
  | opened {j : Journal} (h : j.Reachable) (window : Nat) (scope : Scope)
    (projectRoot : Option Path) (reportDirectory : Path) :
    Reachable { journal := j, debouncer := { window, scope }, projectRoot, reportDirectory }
  | play {s : Session} (h : Reachable s) (m : Move) : Reachable (s.play m).1
  | flush {s : Session} (h : Reachable s) {order : List Cycle}
    (horder : order.Perm s.debouncer.actions) : Reachable (s.flushIn order).1
  | shutdown {s : Session} (h : Reachable s) {order : List Cycle}
    (horder : order.Perm s.debouncer.actions) :
    Reachable (flushIn { s with closing := true } order).1

/-- A move makes recordings, and changes a journal in no other way. -/
theorem exists_journal_play_eq (s : Session) (m : Move) :
    ∃ ks, (s.play m).1.journal = s.journal.recordAll ks := by
  cases m with
  | event e => exact ⟨s.recordings e, by rw [fst_play_event, journal_after]⟩
  | fire key => exact ⟨_, by rw [play, fire, fst_runCycles]⟩

/-- The store of a reachable session keeps its rows in the order of their
numbers. -/
theorem Reachable.wellFormed {s : Session} (h : s.Reachable) : s.journal.store.WellFormed := by
  induction h with
  | opened h => exact h.wellFormed
  | @play s _ m ih =>
    obtain ⟨ks, hks⟩ := s.exists_journal_play_eq m
    exact hks ▸ Journal.wellFormed_recordAll ih ks
  | flush _ _ ih =>
    rw [flushIn, fst_runCycles]
    exact Journal.wellFormed_recordAll ih _
  | shutdown _ _ ih =>
    rw [flushIn, fst_runCycles]
    exact Journal.wellFormed_recordAll ih _

theorem Reachable.afterAll {s : Session} (h : s.Reachable) (es : List Event) :
    (s.afterAll es).Reachable := by
  induction es generalizing s with
  | nil => exact h
  | cons e es ih => exact ih (fst_play_event s e ▸ h.play (.event e))

/-! ## §5 The main statement -/

/-- **What waits may be run in any order.** If no two documents with waiting cycles are files of
one day, then in whichever orders the cycles are run, the answers about every day and every span of
days are the same, and the same problems are published. The draft and the save of one document may
always change places. -/
theorem Reachable.flush_any_order {s : Session} (h : s.Reachable) :
    (s.DaysApart s.debouncer.actions → ∀ order order' : List Cycle,
      order.Perm s.debouncer.actions → order'.Perm s.debouncer.actions →
      ComeToTheSame (s.flushIn order) (s.flushIn order')) ∧
    ∀ uri, ComeToTheSame (s.runCycles [⟨uri, .draft⟩, ⟨uri, .save⟩])
      (s.runCycles [⟨uri, .save⟩, ⟨uri, .draft⟩]) := by
  refine ⟨fun hapart order order' horder horder' => ?_, fun uri => ?_⟩
  · have hapart' : s.DaysApart order := fun c hc c' hc' =>
      hapart c (horder.mem_iff.mp hc) c' (horder.mem_iff.mp hc')
    exact @runCycles_perm { s with debouncer := s.debouncer.flush.1 } h.wellFormed _ _
      (horder.trans horder'.symm) hapart'
  · have hone : ∀ c ∈ [(⟨uri, .draft⟩ : Cycle), ⟨uri, .save⟩], c.uri = uri := by simp
    exact runCycles_perm h.wellFormed (.swap ..) fun c hc c' hc' _ _ =>
      (hone c' hc').trans (hone c hc).symm

/-- Every third of February is a holiday. -/
def withHoliday : Session :=
  start { classifier := ({ regular := ["dev"], yearly := ["02-03"] } : Rules).classifier } 100 none
    ⟨[]⟩

/-- A save and a draft of one file wait, the draft of a holiday, and that of a text without an
item. -/
def fourCycles : List Event :=
  [.message (Note.saved sampleUri (some "dev 1")).toMessage,
    .message (Note.changed sampleUri (some "dev 2")).toMessage,
    .message (Note.changed "file:///2022/02/03.tsf" (some "Candlemas")).toMessage,
    .message (Note.changed "file:///2022/02/04.tsf" (some "dev")).toMessage]

/-- Run from the last to the first, they leave other rows behind, and the same answers. -/
theorem flush_any_order_fourCycles :
    let s := withHoliday.afterAll fourCycles
    let order := s.debouncer.actions
    s.Reachable ∧ order.length = 4 ∧ s.DaysApart order ∧
    (s.flushIn order.reverse).1.journal.store ≠ (s.flushIn order).1.journal.store ∧
    ComeToTheSame (s.flushIn order.reverse) (s.flushIn order) := by
  intro s order
  have hreachable : s.Reachable := Reachable.afterAll (.opened (.fresh _) ..) fourCycles
  have hapart : s.DaysApart order := by decide +kernel
  exact ⟨hreachable, by rfl, hapart, by decide +kernel,
    hreachable.flush_any_order.1 hapart _ _ (List.reverse_perm order) (.refl order)⟩

/-- Two files of one day are recorded over each other. -/
example :
    let s := sample.afterAll
      [.message (Note.changed sampleUri (some "dev 1")).toMessage,
        .message (Note.changed "file:///copy/2022/02/02.tsf" (some "dev 2")).toMessage]
    let order := s.debouncer.actions
    (s.flushIn order).1.journal.daily sampleDay ≠
      (s.flushIn order.reverse).1.journal.daily sampleDay := by
  decide +kernel

end Editor.Session

end Daybook
