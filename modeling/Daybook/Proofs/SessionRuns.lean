/-
Daybook.Proofs.SessionRuns — what happens to a session, one event after the other.

A session hears messages, time passes between them, and in the end all that
waits is run. Of the messages only four notifications and the request to shut
down change anything. Cycles that wait are run by time, by a shutdown or at
the end; running them changes the journal and nothing else.

§1 events and runs, §2 notifications, §3 the cycles that an event runs, §4
what one event does, §5 runs and what they record, §6 a conversation over a
stream of bytes.
-/
import Daybook.Editor.Server
import Daybook.Proofs.JournalRuns

namespace Daybook.Editor

/-! ## §1 Events -/

/-- What happens to a session. Events are indivisible, and so are the cycles that they run: a cycle
reads the text of its document and records it with nothing in between. A server whose cycles run on
threads of their own could hear a message between the two, as it holds the texts and the journal
under separate locks; such a run is none of these. -/
inductive Event where
  | message (message : Message)
  /-- Time passes, in milliseconds. -/
  | wait (ms : Nat)
  /-- The conversation ends: the cycles that wait are run. -/
  | finish

def Event.isExit : Event → Bool
  | .message m => m.id.isNone && m.method == "exit"
  | _ => false

/-- A whole conversation: what happens until the editor says `exit` or no longer says anything,
and the end. -/
def conversation (es : List Event) : List Event := es.takeWhile (!·.isExit) ++ [.finish]

namespace Session

/-- A session that has heard nothing yet; documents are debounced one by one. -/
def start (j : Journal) (window : Nat) (projectRoot : Option Path) (reportDirectory : Path) :
    Session where
  journal := j
  debouncer := { window, scope := .document }
  projectRoot := projectRoot
  reportDirectory := reportDirectory

def after (s : Session) : Event → Session
  | .message m => (s.handle m).1
  | .wait ms => (s.advance ms).1
  | .finish => s.flush.1

/-- The session after events, one after the other. -/
def afterAll (s : Session) (es : List Event) : Session := es.foldl after s

@[simp] theorem afterAll_nil (s : Session) : s.afterAll [] = s := rfl

@[simp] theorem afterAll_append (s : Session) (es fs : List Event) :
    s.afterAll (es ++ fs) = (s.afterAll es).afterAll fs := by
  simp [afterAll]

theorem afterAll_concat (s : Session) (es : List Event) (e : Event) :
    s.afterAll (es ++ [e]) = (s.afterAll es).after e := by
  simp [afterAll]

end Session

/-! ## §2 Notifications -/

/-- A notification that changes a session. -/
inductive Note where
  | opened (uri text : String)
  | changed (uri : String) (text : Option String)
  | saved (uri : String) (text : Option String)
  | closed (uri : String)
deriving DecidableEq, Repr

namespace Note

def uri : Note → String
  | opened uri _ | changed uri _ | saved uri _ | closed uri => uri

def text? : Note → Option String
  | opened _ text => some text
  | changed _ text | saved _ text => text
  | closed _ => none

def mode? : Note → Option WriteMode
  | opened .. | closed _ => none
  | changed .. => some .draft
  | saved .. => some .save

def ofParams? (method : String) (params : Json) : Option Note :=
  match method with
  | "textDocument/didOpen" => (Params.Opened.ofJson? params).map fun p => opened p.uri p.text
  | "textDocument/didChange" =>
    (Params.Changed.ofJson? params).map fun p => changed p.uri p.texts.getLast?
  | "textDocument/didSave" => (Params.Saved.ofJson? params).map fun p => saved p.uri p.text
  | "textDocument/didClose" => (Params.document? params).map closed
  | _ => none

def toMessage : Note → Message
  | opened uri text =>
    { method := "textDocument/didOpen"
      params := .obj [("textDocument", .obj [("text", .str text), ("uri", .str uri)])] }
  | changed uri text =>
    { method := "textDocument/didChange"
      params := .obj
        [("contentChanges", .arr (text.toList.map fun t => .obj [("text", .str t)])),
          ("textDocument", .obj [("uri", .str uri)])] }
  | saved uri text =>
    { method := "textDocument/didSave"
      params := .obj [("text", .ofString? text), ("textDocument", .obj [("uri", .str uri)])] }
  | closed uri =>
    { method := "textDocument/didClose"
      params := .obj [("textDocument", .obj [("uri", .str uri)])] }

end Note

namespace Event

/-- The notification that an event is, if it is one that changes a session. -/
def note? : Event → Option Note
  | message m => if m.id.isSome then none else Note.ofParams? m.method m.params
  | _ => none

@[simp] theorem note?_toMessage (n : Note) : (message n.toMessage).note? = some n := by
  cases n with
  | opened uri text => rfl
  | changed uri text => cases text <;> rfl
  | saved uri text => cases text <;> rfl
  | closed uri => rfl

def isShutdown : Event → Bool
  | message m => m.id.isSome && m.method == "shutdown"
  | _ => false

end Event

namespace Session

def documentsAfter (s : Session) : Note → Documents
  | .closed uri => s.documents.remove uri
  | n => n.text?.elim s.documents (s.documents.set n.uri)

/-- Follows a notification: its text is kept or forgotten, and its cycle scheduled. -/
def heed (s : Session) (n : Note) : Session :=
  { s with
    documents := s.documentsAfter n
    debouncer := n.mode?.elim s.debouncer fun mode =>
      s.debouncer.schedule (kindOf mode) n.uri { uri := n.uri, mode } }

/-- A notification sets or removes the text of its own document. -/
theorem get?_documentsAfter (s : Session) (n : Note) (uri : String) :
    (s.documentsAfter n).get? uri =
      if n.uri = uri ∧ n = .closed n.uri then none
      else if n.uri = uri ∧ n.text?.isSome then n.text? else s.documents.get? uri := by
  cases n with
  | opened u t => by_cases h : u = uri <;> simp [documentsAfter, Note.text?, Note.uri, h]
  | changed u t =>
    cases t <;> by_cases h : u = uri <;> simp [documentsAfter, Note.text?, Note.uri, h]
  | saved u t =>
    cases t <;> by_cases h : u = uri <;> simp [documentsAfter, Note.text?, Note.uri, h]
  | closed u => by_cases h : u = uri <;> simp [documentsAfter, Note.text?, Note.uri, h]

/-- To follow a notification is to heed it, if it can be read as one. -/
theorem notice_eq_heed (s : Session) (method : String) (params : Json) :
    s.notice method params = (Note.ofParams? method params).elim s s.heed := by
  unfold notice Note.ofParams?
  split
  · cases Params.Opened.ofJson? params <;> rfl
  · cases Params.Changed.ofJson? params with
    | none => rfl
    | some p => cases h : p.texts.getLast? <;> simp [heed, documentsAfter, Note.text?, Note.uri,
        Note.mode?, schedule, setText, h]
  · cases Params.Saved.ofJson? params with
    | none => rfl
    | some p => cases h : p.text <;> simp [heed, documentsAfter, Note.text?, Note.uri,
        Note.mode?, schedule, setText, h]
  · cases Params.document? params <;> rfl
  · simp

/-! ## §3 Cycles -/

/-- The cycles that an event runs. -/
def runs (s : Session) : Event → List Cycle
  | .message m => if Event.isShutdown (.message m) && !s.closing then s.debouncer.flush.2 else []
  | .wait ms => (s.debouncer.advance ms).2.map (·.action)
  | .finish => s.debouncer.flush.2

def recording? (s : Session) (c : Cycle) : Option Journal.Recording :=
  match s.dayOf? c.uri, s.documents.get? c.uri with
  | some d, some text => some ⟨text, d, c.mode⟩
  | _, _ => none

/-- A cycle records the text of its document for the document's day. -/
theorem recording?_eq_some_iff {s : Session} {c : Cycle} {k : Journal.Recording} :
    s.recording? c = some k ↔
      s.dayOf? c.uri = some k.day ∧ s.documents.get? c.uri = some k.text ∧ c.mode = k.mode := by
  obtain ⟨text, day, mode⟩ := k
  unfold recording?
  cases s.dayOf? c.uri <;> cases s.documents.get? c.uri <;> simp [and_left_comm]

/-- What an event records. -/
def recordings (s : Session) (e : Event) : List Journal.Recording :=
  (s.runs e).filterMap s.recording?

/-- What a cycle does to a session is what it records. -/
theorem fst_runCycle (s : Session) (c : Cycle) :
    (s.runCycle c).1 = { s with journal := s.journal.recordAll (s.recording? c).toList } := by
  unfold runCycle recording?
  cases s.dayOf? c.uri with
  | none => rfl
  | some d => cases s.documents.get? c.uri <;> rfl

/-- Running cycles records what they record of the documents as they are, and changes nothing
else. -/
theorem fst_runCycles (s : Session) (cs : List Cycle) :
    (s.runCycles cs).1 = { s with journal := s.journal.recordAll (cs.filterMap s.recording?) } := by
  induction cs generalizing s with
  | nil => rfl
  | cons c cs ih =>
    have hcons : (s.runCycles (c :: cs)).1 = ((s.runCycle c).1.runCycles cs).1 := rfl
    rw [hcons, ih, fst_runCycle, List.filterMap_cons]
    cases h : s.recording? c with
    | none => rfl
    | some k => rfl

/-- What a cycle publishes does not depend on what has been recorded. -/
theorem snd_runCycle_recordAll (s : Session) (ks : List Journal.Recording) (c : Cycle) :
    (runCycle { s with journal := s.journal.recordAll ks } c).2 = (s.runCycle c).2 := by
  simp only [runCycle, dayOf?, Journal.snd_record, Journal.classifier_record,
    Journal.classifier_recordAll, Journal.reader_recordAll]
  split <;> rfl

/-- Cycles publish what each of them publishes on its own. -/
theorem snd_runCycles (s : Session) (cs : List Cycle) :
    (s.runCycles cs).2 = cs.flatMap fun c => (s.runCycle c).2 := by
  induction cs generalizing s with
  | nil => rfl
  | cons c cs ih =>
    have hcons : (s.runCycles (c :: cs)).2 =
        (s.runCycle c).2 ++ ((s.runCycle c).1.runCycles cs).2 := rfl
    rw [hcons, ih, List.flatMap_cons, fst_runCycle]
    simp only [snd_runCycle_recordAll]

/-! ## §4 What one event does -/

/-- The debouncer after an event, before the cycles run that fall due. -/
def debouncerAfter (s : Session) : Event → Debouncer Cycle
  | .message m =>
    if Event.isShutdown (.message m) && !s.closing then s.debouncer.flush.1 else s.debouncer
  | .wait ms => (s.debouncer.advance ms).1
  | .finish => s.debouncer.flush.1

theorem fst_handle_notification (s : Session) (method : String) (params : Json) :
    (s.handle ⟨none, method, params⟩).1 = (Note.ofParams? method params).elim s s.heed := by
  rw [← notice_eq_heed]
  unfold handle
  by_cases hempty : method = ""
  · subst hempty
    rfl
  · by_cases hexit : method = "exit"
    · subst hexit
      rfl
    · simp [hempty, hexit]

theorem fst_handle_request (s : Session) (id : Json) (method : String) (params : Json) :
    (s.handle ⟨some id, method, params⟩).1 =
      if method = "shutdown" ∧ s.closing = false then (flush { s with closing := true }).1
      else s := by
  unfold handle
  by_cases hempty : method = ""
  · subst hempty
    rfl
  · cases hclosing : s.closing <;> by_cases hshut : method = "shutdown" <;>
      simp [hempty, request, hclosing, hshut]

/-- **One event** is a notification that is followed, or cycles are run; a message that is neither
a notification nor a shutdown runs none. -/
theorem after_eq (s : Session) (e : Event) :
    s.after e = match e.note? with
      | some n => s.heed n
      | none =>
        { s with
          journal := s.journal.recordAll (s.recordings e)
          debouncer := s.debouncerAfter e
          closing := s.closing || e.isShutdown } := by
  cases e with
  | message m =>
    obtain ⟨id, method, params⟩ := m
    cases id with
    | none =>
      rw [after, fst_handle_notification]
      cases h : Note.ofParams? method params <;>
        simp [Event.note?, h, debouncerAfter, recordings, runs, Event.isShutdown, Journal.recordAll]
    | some id =>
      -- a shutdown runs what waits only once: a session that is closing refuses it
      rw [after, fst_handle_request]
      cases s with
      | mk journal documents debouncer projectRoot reportDirectory closing =>
        cases closing <;> by_cases hshut : method = "shutdown" <;>
          simp [Event.note?, debouncerAfter, recordings, runs, Event.isShutdown, hshut, flush,
            fst_runCycles, Journal.recordAll]
        rfl
  | wait ms =>
    rw [after, advance, fst_runCycles]
    simp [Event.note?, debouncerAfter, recordings, runs, Event.isShutdown]
    rfl
  | finish =>
    rw [after, flush, fst_runCycles]
    simp [Event.note?, debouncerAfter, recordings, runs, Event.isShutdown]
    rfl

/-- Nothing changes by `exit`. -/
theorem after_of_isExit (s : Session) {e : Event} (h : e.isExit = true) : s.after e = s := by
  cases e with
  | message m =>
    obtain ⟨id, method, params⟩ := m
    simp only [Event.isExit, Bool.and_eq_true, Option.isNone_iff_eq_none, beq_iff_eq] at h
    obtain ⟨rfl, rfl⟩ := h
    rfl
  | wait ms => cases h
  | finish => cases h

theorem runs_of_note {e : Event} {n : Note} (h : e.note? = some n) (s : Session) :
    s.runs e = [] := by
  cases e with
  | message m =>
    obtain ⟨id, method, params⟩ := m
    cases id with
    | none => rfl
    | some id => cases h
  | wait ms => cases h
  | finish => cases h

/-- What an event does to the journal is what it records. -/
theorem journal_after (s : Session) (e : Event) :
    (s.after e).journal = s.journal.recordAll (s.recordings e) := by
  rw [after_eq]
  cases h : e.note? with
  | none => rfl
  | some n => rw [recordings, runs_of_note h, List.filterMap_nil]; rfl

/-- What an event does to the cycles that wait. -/
theorem debouncer_after (s : Session) (e : Event) :
    (s.after e).debouncer = match e.note? with
      | some n => (s.heed n).debouncer
      | none => s.debouncerAfter e := by
  rw [after_eq]
  cases e.note? <;> rfl

/-- What an event does to the documents. -/
theorem documents_after (s : Session) (e : Event) :
    (s.after e).documents = e.note?.elim s.documents s.documentsAfter := by
  rw [after_eq]
  cases e.note? <;> rfl

theorem projectRoot_after (s : Session) (e : Event) :
    (s.after e).projectRoot = s.projectRoot := by
  rw [after_eq]
  cases e.note? <;> rfl

/-! ## §5 Runs -/

/-- What a run records. -/
def recordingsOf (s : Session) : List Event → List Journal.Recording
  | [] => []
  | e :: es => s.recordings e ++ (s.after e).recordingsOf es

theorem recordingsOf_append (s : Session) (es fs : List Event) :
    s.recordingsOf (es ++ fs) = s.recordingsOf es ++ (s.afterAll es).recordingsOf fs := by
  induction es generalizing s with
  | nil => rfl
  | cons e es ih => simp [recordingsOf, ih, afterAll]

/-- **The journal of a session** is that of the recordings that its cycles make. -/
theorem journal_afterAll (s : Session) (es : List Event) :
    (s.afterAll es).journal = s.journal.recordAll (s.recordingsOf es) := by
  induction es generalizing s with
  | nil => rfl
  | cons e es ih =>
    rw [recordingsOf, Journal.recordAll_append, ← journal_after]
    exact ih (s.after e)

/-- What an event leaves in a list of a day. -/
theorem held_after (s : Session) (e : Event) (d : Day) (pending : Bool) :
    (s.after e).journal.store.held d.key pending =
      (Journal.latest? s.journal.classifier (s.recordings e) d pending).elim
        (s.journal.store.held d.key pending) (Journal.Recording.entries s.journal.classifier) := by
  rw [journal_after, Journal.held_recordAll]

/-- A list of a day that an event sets holds the entries of the text that is recorded, if all that
the event records for the day is of one text. -/
theorem held_after_of_mem {s : Session} {e : Event} {k : Journal.Recording} {pending : Bool}
    (hk : k ∈ s.recordings e) (hsets : k.Sets s.journal.classifier k.day pending)
    (hone : ∀ k' ∈ s.recordings e, k'.day = k.day → k'.text = k.text) :
    (s.after e).journal.store.held k.day.key pending = k.entries s.journal.classifier := by
  rw [held_after]
  cases hlatest : Journal.latest? s.journal.classifier (s.recordings e) k.day pending with
  | none => exact absurd hsets (Journal.latest?_eq_none_iff.mp hlatest k hk)
  | some k' =>
    obtain ⟨hmem, hday, _⟩ := Journal.latest?_eq_some hlatest
    simp only [Option.elim_some, Journal.Recording.entries, hday, hone k' hmem hday]

@[simp] theorem dayOf?_afterAll (s : Session) (es : List Event) (uri : String) :
    (s.afterAll es).dayOf? uri = s.dayOf? uri := by
  induction es generalizing s with
  | nil => rfl
  | cons e es ih =>
    have hroot : (s.after e).dayOf? uri = s.dayOf? uri := by
      rw [dayOf?, dayOf?, projectRoot_after]
    exact (ih (s.after e)).trans hroot

/-- A recording of a run is one that some event of it made. -/
theorem mem_recordingsOf_iff {s : Session} {es : List Event} {k : Journal.Recording} :
    k ∈ s.recordingsOf es ↔
      ∃ before e, before ++ [e] <+: es ∧ k ∈ (s.afterAll before).recordings e := by
  induction es using List.reverseRecOn with
  | nil => simp [recordingsOf]
  | append_singleton es e ih =>
    rw [recordingsOf_append, List.mem_append, ih]
    constructor
    · rintro (⟨before, f, hpre, hk⟩ | hk)
      · exact ⟨before, f, hpre.trans (List.prefix_append es [e]), hk⟩
      · exact ⟨es, e, List.prefix_rfl, by simpa [recordingsOf] using hk⟩
    · rintro ⟨before, f, hpre, hk⟩
      rcases List.prefix_concat_iff.mp hpre with heq | hpre
      · obtain ⟨rfl, hf⟩ := List.append_inj' heq rfl
        cases hf
        exact .inr (by simpa [recordingsOf] using hk)
      · exact .inl ⟨before, f, hpre, hk⟩

end Session

/-! ## §6 A conversation over a stream -/

/-- Just `exit` ends a conversation. -/
theorem flow_handle (s : Session) (m : Message) :
    (s.handle m).2.2 = if Event.isExit (.message m) then .exit else .goOn := by
  obtain ⟨id, method, params⟩ := m
  unfold Session.handle
  by_cases hempty : method = ""
  · subst hempty
    simp [Event.isExit]
  · cases id with
    | some id => simp [hempty, Event.isExit]
    | none => by_cases hexit : method = "exit" <;> simp [hempty, hexit, Event.isExit]

/-- The messages of a stream, what cannot be read left out. -/
def Server.events (bytes : List UInt8) : List Event :=
  match _h : Frame.readMessage? bytes with
  | none => []
  | some (.error _, rest) => events rest
  | some (.ok message, rest) => .message message :: events rest
termination_by bytes.length
decreasing_by all_goals exact Frame.length_lt_of_readMessage? _h

/-- The server's session is the one behind the messages before `exit`. -/
theorem Server.fst_handleAll (s : Session) (bytes : List UInt8) :
    (handleAll s bytes).1 = s.afterAll ((events bytes).takeWhile (!·.isExit)) := by
  fun_induction events bytes generalizing s with
  | case1 bytes h =>
    rw [handleAll]
    split <;> simp_all
  | case2 bytes e rest h ih =>
    rw [handleAll]
    split <;> simp_all
  | case3 bytes message rest h ih =>
    have hflow := flow_handle s message
    have hafter : s.after (.message message) = (s.handle message).1 := rfl
    rw [handleAll]
    split
    · simp_all
    · simp_all
    · next m rest' h' =>
      rw [h] at h'
      cases h'
      cases hhandle : s.handle message with
      | mk s' out =>
        obtain ⟨out, flow⟩ := out
        rw [hhandle] at hflow hafter
        cases hexit : Event.isExit (.message message) with
        | true =>
          -- the message that ends a conversation changes nothing, so it may be left out
          rw [hexit, if_pos rfl] at hflow
          cases hflow
          rw [Session.after_of_isExit s hexit] at hafter
          simp [hexit, hafter]
        | false =>
          rw [hexit, if_neg Bool.false_ne_true] at hflow
          cases hflow
          simp [hexit, ih, hafter, Session.afterAll]

/-- **A session that reads a stream to its end** has seen one whole conversation. -/
theorem Server.fst_run (s : Session) (bytes : List UInt8) :
    (run s bytes).1 = s.afterAll (conversation (events bytes)) := by
  rw [conversation, Session.afterAll_append, ← fst_handleAll]
  rfl

end Daybook.Editor
