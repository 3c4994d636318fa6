/-
Daybook.Proofs.Replies — every request gets one reply, and nothing else does.

Between two messages of an editor any cycle that waits may run, so a
conversation is a list of moves, cut where the editor says `exit` (§1). In one
turn a session says what the cycles that it runs publish, and then the reply,
if the move is a request (§2). What is sent for a reply has the identifier of
the request, and nothing else has one, so the identifiers that are sent are
those of the requests (§3). Behind a request to shut down a session is closing
and only refuses (§4). Main statement: `converse_disciplined` (§5).
-/
import Daybook.Proofs.Framing
import Daybook.Proofs.SaveLaws

namespace Daybook.Editor

/-! ## §1 Moves and conversations -/

/-- What may happen to a session: an event, or that the cycles under a key run, whatever the time
is. Moves are indivisible, as events are. -/
inductive Move where
  | event (e : Event)
  | fire (key : String)

namespace Move

def request? : Move → Option (Json × String)
  | event (.message m) => if m.method = "" then none else m.id.map (·, m.method)
  | _ => none

def isExit : Move → Bool
  | event e => e.isExit
  | fire _ => false

/-- Whether a move is a request to shut down. -/
def IsShutdown (m : Move) : Prop := ∃ id, m.request? = some (id, "shutdown")

end Move

namespace Session

def fire (s : Session) (key : String) : Session × List Outgoing :=
  let waiting := s.debouncer.waiting
  runCycles { s with debouncer := { s.debouncer with waiting := waiting.filter (·.key ≠ key) } }
    ((waiting.filter (·.key = key)).map (·.action))

/-- Plays a move: the session behind it, what is said, and whether the conversation goes on. -/
def play (s : Session) : Move → Session × List Outgoing × Flow
  | .event (.message m) => s.handle m
  | .event (.wait ms) => ((s.advance ms).1, (s.advance ms).2, .goOn)
  | .event .finish => (s.flush.1, s.flush.2, .goOn)
  | .fire key => ((s.fire key).1, (s.fire key).2, .goOn)

/-- Holds a conversation, and runs what waits at its end. -/
def converse (s : Session) : List Move → Session × List Outgoing
  | [] => s.flush
  | m :: ms =>
    match s.play m with
    | (s, out, .exit) => (s.flush.1, out ++ s.flush.2)
    | (s, out, .goOn) => ((s.converse ms).1, out ++ (s.converse ms).2)

/-- A move, and the session that it meets. -/
structure Turn where
  session : Session
  move : Move

def Turn.said (t : Turn) : List Outgoing := (t.session.play t.move).2.1

/-- The turns of a conversation; in the last one it ends. -/
def turns (s : Session) : List Move → List Turn
  | [] => [⟨s, .event .finish⟩]
  | m :: ms =>
    ⟨s, m⟩ :: match s.play m with
      | (s, _, .exit) => [⟨s, .event .finish⟩]
      | (s, _, .goOn) => s.turns ms

/-- Just `exit` ends a conversation. -/
theorem flow_play (s : Session) (m : Move) :
    (s.play m).2.2 = if m.isExit then .exit else .goOn := by
  cases m with
  | event e =>
    cases e with
    | message m => exact flow_handle s m
    | wait ms => rfl
    | finish => rfl
  | fire key => rfl

theorem converse_cons (s : Session) (m : Move) (ms : List Move) :
    s.converse (m :: ms) =
      let rest := (s.play m).1.converse (if m.isExit then [] else ms)
      (rest.1, (s.play m).2.1 ++ rest.2) := by
  have hflow := flow_play s m
  rw [converse]
  cases hexit : m.isExit <;> rw [hexit] at hflow <;> split <;> simp_all [converse]

theorem turns_cons (s : Session) (m : Move) (ms : List Move) :
    s.turns (m :: ms) = ⟨s, m⟩ :: (s.play m).1.turns (if m.isExit then [] else ms) := by
  have hflow := flow_play s m
  rw [turns]
  cases hexit : m.isExit <;> rw [hexit] at hflow <;> split <;> simp_all [turns]

/-- What is said in a conversation is what is said in its turns. -/
theorem snd_converse (s : Session) (moves : List Move) :
    (s.converse moves).2 = (s.turns moves).flatMap Turn.said := by
  have hend : ∀ s : Session, (s.converse []).2 = (s.turns []).flatMap Turn.said := fun s =>
    (List.flatMap_singleton ..).symm
  induction moves generalizing s with
  | nil => exact hend s
  | cons m ms ih =>
    rw [converse_cons, turns_cons, List.flatMap_cons]
    cases m.isExit with
    | true => exact congrArg _ (hend _)
    | false => exact congrArg _ (ih _)

end Session

/-- The server holds the conversation of the messages that it reads. -/
theorem Server.run_eq_converse (s : Session) (bytes : List UInt8) :
    run s bytes = s.converse ((events bytes).map .event) := by
  fun_induction events bytes generalizing s with
  | case1 bytes h =>
    have hnone : handleAll s bytes = (s, []) := by
      rw [handleAll]
      split <;> simp_all
    rw [run, hnone]
    rfl
  | case2 bytes e rest h ih =>
    rw [← ih, run, run, handleAll_error h]
  | case3 bytes m rest h ih =>
    rw [List.map_cons, Session.converse_cons, run, handleAll_ok h, Move.isExit]
    cases hexit : Event.isExit (.message m) with
    | true => simp [Session.play, s.handle_of_isExit hexit, Session.converse]
    | false => simp [Session.play, ← ih, run]

/-! ## §2 One turn -/

namespace Outgoing

def id? : Outgoing → Option Json
  | reply id _ => some id
  | diagnostics .. => none

end Outgoing

namespace Session

/-- The cycles that a move runs. -/
def due (s : Session) : Move → List Cycle
  | .event e => s.runs e
  | .fire key => (s.debouncer.waiting.filter (·.key = key)).map (·.action)

def replyTo (s : Session) (method : String) (params : Json) : Reply :=
  if s.closing then .error .closing
  else if method = "shutdown" then .result .null
  else s.answer method params

/-- The reply to a move, if it is a request. -/
def reply? (s : Session) : Move → Option Outgoing
  | .event (.message m) =>
    if m.method = "" then none else m.id.map fun id => .reply id (s.replyTo m.method m.params)
  | _ => none

/-- Only cycles that wait are run. -/
theorem waits_of_mem_due {s : Session} {m : Move} {c : Cycle} (h : c ∈ s.due m) :
    ∃ w ∈ s.debouncer.waiting, w.action = c := by
  cases m with
  | event e =>
    cases e with
    | message m =>
      rw [due, runs] at h
      split at h
      · simpa [Debouncer.flush] using h
      · cases h
    | wait ms =>
      obtain ⟨w, hw, rfl⟩ := List.mem_map.mp h
      exact ⟨w, (List.mem_filter.mp hw).1, rfl⟩
    | finish => simpa [due, runs, Debouncer.flush] using h
  | fire key =>
    obtain ⟨w, hw, rfl⟩ := List.mem_map.mp h
    exact ⟨w, (List.mem_filter.mp hw).1, rfl⟩

/-- A cycle publishes the problems of its own document, if anything. -/
theorem mem_snd_runCycle {s : Session} {c : Cycle} {out : Outgoing} (h : out ∈ (s.runCycle c).2) :
    ∃ ds, out = .diagnostics c.uri ds := by
  unfold runCycle at h
  split at h
  · exact ⟨_, List.mem_singleton.mp h⟩
  · cases h

/-- Cycles say nothing but the problems of their own documents. -/
theorem mem_snd_runCycles {s : Session} {cs : List Cycle} {out : Outgoing}
    (h : out ∈ (s.runCycles cs).2) : ∃ c ∈ cs, ∃ ds, out = .diagnostics c.uri ds := by
  rw [snd_runCycles] at h
  obtain ⟨c, hc, hout⟩ := List.mem_flatMap.mp h
  exact ⟨c, hc, mem_snd_runCycle hout⟩

/-- What a cycle publishes does not depend on what else waits, or on whether the session is
closing. -/
theorem snd_runCycles_with (s : Session) (debouncer : Debouncer Cycle) (closing : Bool)
    (cs : List Cycle) :
    (runCycles { s with debouncer, closing } cs).2 = (s.runCycles cs).2 := by
  rw [snd_runCycles, snd_runCycles]
  refine List.flatMap_congr fun c _ => ?_
  simp only [runCycle, dayOf?]
  split <;> rfl

/-- **One turn** says what the cycles that it runs publish, and then the reply to a request. -/
theorem snd_play (s : Session) (m : Move) :
    (s.play m).2.1 = (s.runCycles (s.due m)).2 ++ (s.reply? m).toList := by
  have hruns : ∀ debouncer cs,
      (runCycles { s with debouncer } cs).2 = (s.runCycles cs).2 ++ [] := fun debouncer cs =>
    (snd_runCycles_with s debouncer s.closing cs).trans (List.append_nil _).symm
  cases m with
  | event e =>
    cases e with
    | message m =>
      obtain ⟨id, method, params⟩ := m
      simp only [play, due, runs, Event.isShutdown, reply?]
      -- only a request can run cycles, and only if it is the first one to shut down
      by_cases hempty : method = ""
      · subst hempty
        simp [handle, runCycles]
      cases id with
      | none => by_cases hexit : method = "exit" <;> simp [handle, hempty, hexit, runCycles]
      | some id =>
        cases hclosing : s.closing <;> by_cases hshut : method = "shutdown" <;>
          simp [handle, hempty, request, replyTo, hclosing, hshut, flush, runCycles,
            snd_runCycles_with]
    | wait ms => exact hruns _ _
    | finish => exact hruns _ _
  | fire key => exact hruns _ _

/-- A request gets its reply, and no other move does. -/
theorem exists_reply?_eq (s : Session) (m : Move) :
    ∃ r, s.reply? m = m.request?.map fun q => .reply q.1 r := by
  cases m with
  | event e =>
    cases e with
    | message m =>
      refine ⟨s.replyTo m.method m.params, ?_⟩
      rw [reply?, Move.request?]
      split
      · rfl
      · rw [Option.map_map]; rfl
    | wait ms => exact ⟨.result .null, rfl⟩
    | finish => exact ⟨.result .null, rfl⟩
  | fire key => exact ⟨.result .null, rfl⟩

end Session

/-! ## §3 What is sent -/

namespace Outgoing

/-- What may be sent for a message; whether a report has been written is up to the files. -/
inductive Sends : Outgoing → Json → Prop
  | result (id value : Json) : Sends (.reply id (.result value)) (resultValue id value)
  | error (id : Json) (e : RequestError) : Sends (.reply id (.error e)) (errorValue id e)
  | report (id : Json) (file : ReportFile) (written : Bool) :
    Sends (.reply id (.report file)) (reportValue id file written)
  | diagnostics (uri : String) (ds : List Diagnostic) :
    Sends (.diagnostics uri ds) (diagnosticsValue uri ds)

/-- On any files, one of these values is sent. -/
theorem exists_send_eq {m : Type → Type} [Monad m] [LawfulMonad m] (files : Files m)
    (out : Outgoing) :
    ∃ sending : m { v // out.Sends v }, out.send files = Subtype.val <$> sending := by
  cases out with
  | reply id r =>
    cases r with
    | result value => exact ⟨pure ⟨_, .result id value⟩, by simp [send]⟩
    | error e => exact ⟨pure ⟨_, .error id e⟩, by simp [send]⟩
    | report file =>
      exact ⟨(fun written => ⟨_, .report id file written⟩) <$> files.writeReport file,
        by simp [send]⟩
  | diagnostics uri ds => exact ⟨pure ⟨_, .diagnostics uri ds⟩, by simp [send]⟩

/-- A reply has the identifier of its request, and nothing else that is sent has one. -/
theorem Sends.get?_id {out : Outgoing} {v : Json} (h : out.Sends v) : v.get? "id" = out.id? := by
  have hresult : ∀ id value, (resultValue id value).get? "id" = some id := fun id value => by
    simp [resultValue, envelope, Json.object, Json.get?, Json.lookup_put]
  have herror : ∀ id e, (errorValue id e).get? "id" = some id := fun id e => by
    simp [errorValue, envelope, Json.object, Json.get?, Json.lookup_put]
  cases h with
  | result id value => exact hresult id value
  | error id e => exact herror id e
  | report id file written =>
    unfold reportValue
    split
    · exact herror id _
    · split
      · exact hresult id _
      · exact herror id _
  | diagnostics uri ds =>
    simp [diagnosticsValue, envelope, Json.object, Json.get?, Json.lookup_put, id?]

/-- What is sent without an identifier publishes problems. -/
theorem Sends.get?_method {out : Outgoing} {v : Json} (h : out.Sends v) (hid : out.id? = none) :
    v.get? "method" = some (.str "textDocument/publishDiagnostics") := by
  cases h with
  | diagnostics uri ds =>
    simp [diagnosticsValue, envelope, Json.object, Json.get?, Json.lookup_put]
  | _ => cases hid

/-- The number of an error is sent with it. -/
theorem Sends.code_error {id : Json} {e : RequestError} {v : Json}
    (h : (Outgoing.reply id (.error e)).Sends v) :
    (v.get? "error").bind (·.get? "code") = some (.int e.code) := by
  cases h
  simp [errorValue, envelope, Json.object, Json.get?, Json.lookup_put]

theorem get?_method_of_mem {outs : List Outgoing} {vs : List Json} (h : List.Forall₂ Sends outs vs)
    {v : Json} (hv : v ∈ vs) (hid : v.get? "id" = none) :
    v.get? "method" = some (.str "textDocument/publishDiagnostics") := by
  induction h with
  | nil => cases hv
  | cons hfirst _ ih =>
    rcases List.mem_cons.mp hv with rfl | hv
    · exact hfirst.get?_method (hfirst.get?_id.symm.trans hid)
    · exact ih hv

/-- Replies on the wire bear the identifiers of the replies that are sent, in
their order. -/
theorem filterMap_get?_id {outs : List Outgoing} {vs : List Json}
    (h : List.Forall₂ Sends outs vs) : vs.filterMap (·.get? "id") = outs.filterMap id? := by
  induction h with
  | nil => rfl
  | cons hv _ ih => rw [List.filterMap_cons, List.filterMap_cons, hv.get?_id, ih]

end Outgoing

/-- What a server sends for messages are the frames of such values. -/
theorem Server.exists_sendAll_eq {m : Type → Type} [Monad m] [LawfulMonad m] (files : Files m)
    (outs : List Outgoing) :
    ∃ sending : m { vs // List.Forall₂ Outgoing.Sends outs vs },
      sendAll files outs = (fun vs => vs.1.flatMap Frame.ofJson) <$> sending := by
  induction outs with
  | nil => exact ⟨pure ⟨[], .nil⟩, by simp [sendAll]⟩
  | cons out outs ih =>
    obtain ⟨first, hfirst⟩ := out.exists_send_eq files
    obtain ⟨rest, hrest⟩ := ih
    refine ⟨do
      let v ← first
      let vs ← rest
      pure ⟨v.1 :: vs.1, .cons v.2 vs.2⟩, ?_⟩
    simp [sendAll, hfirst, hrest]

/-- The requests before the editor says `exit`. -/
def requests (moves : List Move) : List (Json × String) :=
  (moves.takeWhile (!·.isExit)).filterMap Move.request?

theorem Move.request?_of_isExit {m : Move} (h : m.isExit = true) : m.request? = none := by
  cases m with
  | event e =>
    cases e with
    | message m =>
      obtain ⟨id, method, params⟩ := m
      simp only [isExit, Event.isExit, Bool.and_eq_true, Option.isNone_iff_eq_none] at h
      simp [request?, h.1]
    | wait ms => rfl
    | finish => rfl
  | fire key => rfl

theorem requests_cons (m : Move) (ms : List Move) :
    requests (m :: ms) = m.request?.toList ++ requests (if m.isExit then [] else ms) := by
  cases hexit : m.isExit with
  | true => simp [requests, hexit, Move.request?_of_isExit hexit]
  | false => cases hm : m.request? <;> simp [requests, hexit, hm]

namespace Session

/-- Only the reply to a request has an identifier. -/
theorem ids_play (s : Session) (m : Move) :
    (s.play m).2.1.filterMap Outgoing.id? = (m.request?.map Prod.fst).toList := by
  have hpublished : (s.runCycles (s.due m)).2.filterMap Outgoing.id? = [] := by
    rw [List.filterMap_eq_nil_iff]
    intro out hout
    obtain ⟨c, _, ds, rfl⟩ := mem_snd_runCycles hout
    rfl
  obtain ⟨r, hreply⟩ := s.exists_reply?_eq m
  rw [snd_play, List.filterMap_append, hpublished, List.nil_append, hreply]
  cases m.request? <;> rfl

/-- A flush sends no reply. -/
theorem ids_flush (s : Session) : s.flush.2.filterMap Outgoing.id? = [] :=
  s.ids_play (.event .finish)

/-- **The identifiers that are sent** are those of the requests, in their order. -/
theorem ids_converse (s : Session) (moves : List Move) :
    (s.converse moves).2.filterMap Outgoing.id? = (requests moves).map Prod.fst := by
  induction moves generalizing s with
  | nil => exact s.ids_flush
  | cons m ms ih =>
    rw [converse_cons, requests_cons, List.filterMap_append, List.map_append, ids_play,
      Option.toList_map]
    cases m.isExit with
    | true => exact congrArg _ (ids_flush _)
    | false => exact congrArg _ (ih _)

/-! ## §4 Closing -/

theorem isShutdown_event_iff (e : Event) : Move.IsShutdown (.event e) ↔ e.isShutdown = true := by
  cases e with
  | message m =>
    obtain ⟨id, method, params⟩ := m
    by_cases hempty : method = "" <;> cases id <;>
      simp [Move.IsShutdown, Move.request?, Event.isShutdown, hempty]
  | wait ms => simp [Move.IsShutdown, Move.request?, Event.isShutdown]
  | finish => simp [Move.IsShutdown, Move.request?, Event.isShutdown]

theorem fst_play_event (s : Session) (e : Event) : (s.play (.event e)).1 = s.after e := by
  cases e <;> rfl

/-- A session is closing behind a request to shut down, and stays so. -/
theorem closing_play (s : Session) (m : Move) :
    (s.play m).1.closing = true ↔ s.closing = true ∨ m.IsShutdown := by
  cases m with
  | event e =>
    rw [fst_play_event, isShutdown_event_iff, after_eq]
    cases hnote : e.note? with
    | none => simp
    | some n =>
      have hshut : e.isShutdown = false := by
        cases e with
        | message m =>
          cases hid : m.id with
          | none => simp [Event.isShutdown, hid]
          | some id => simp [Event.note?, hid] at hnote
        | wait ms => rfl
        | finish => rfl
      simp [heed, hshut]
  | fire key =>
    have hfire : (s.play (.fire key)).1.closing = s.closing := by
      rw [play, fire, fst_runCycles]
    simp [hfire, Move.IsShutdown, Move.request?]

/-- In a turn a session is closing if an earlier turn was a request to shut down. -/
theorem closing_of_turns {s : Session} {moves : List Move} {before after : List Turn} {t : Turn}
    (h : s.turns moves = before ++ t :: after) :
    t.session.closing = true ↔ s.closing = true ∨ ∃ u ∈ before, u.move.IsShutdown := by
  -- the moves are generalized, since `exit` cuts off all that are left
  induction before generalizing s moves with
  | nil =>
    have hfirst : t.session = s := by
      cases moves with
      | nil => rw [turns] at h; rw [← (List.cons.inj h).1]
      | cons m ms => rw [turns_cons] at h; rw [← (List.cons.inj h).1]
    simp [hfirst]
  | cons u before ih =>
    cases moves with
    | nil => simp [turns] at h
    | cons m ms =>
      rw [turns_cons, List.cons_append] at h
      obtain ⟨hu, hrest⟩ := List.cons.inj h
      have hu : u = ⟨s, m⟩ := hu.symm
      rw [ih hrest, closing_play, hu]
      simp [or_assoc]

/-- A request is a message with an identifier and a method. -/
theorem eq_message_of_request? {m : Move} {id : Json} {method : String}
    (h : m.request? = some (id, method)) :
    method ≠ "" ∧ ∃ params, m = .event (.message ⟨some id, method, params⟩) := by
  cases m with
  | event e =>
    cases e with
    | message m =>
      obtain ⟨id', method', params⟩ := m
      rw [Move.request?] at h
      split at h
      · cases h
      · next hne =>
        obtain ⟨_, rfl, heq⟩ := Option.map_eq_some_iff.mp h
        cases heq
        exact ⟨hne, params, rfl⟩
    | wait ms => cases h
    | finish => cases h
  | fire key => cases h

/-- A session that is closing refuses a request, and is not changed by it. -/
theorem play_of_closing {s : Session} (hclosing : s.closing = true) {m : Move} {id : Json}
    {method : String} (h : m.request? = some (id, method)) :
    s.play m = (s, [.reply id (.error .closing)], .goOn) := by
  obtain ⟨hne, params, rfl⟩ := eq_message_of_request? h
  simp [play, handle, request, hne, hclosing]

/-- A shutdown runs all that waits before it is confirmed. -/
theorem play_shutdown {s : Session} (hopen : s.closing = false) {m : Move} {id : Json}
    (h : m.request? = some (id, "shutdown")) :
    (s.play m).2.1 = (s.runCycles (s.debouncer.waiting.map (·.action))).2 ++
      [.reply id (.result .null)] ∧
    (s.play m).1.debouncer.waiting = [] := by
  obtain ⟨_, params, rfl⟩ := eq_message_of_request? h
  constructor
  · rw [snd_play]
    simp [due, runs, Event.isShutdown, hopen, reply?, replyTo, Debouncer.flush]
  · rw [fst_play_event, debouncer_after]
    simp [Event.note?, debouncerAfter, Event.isShutdown, hopen, Debouncer.flush]

/-! ## §5 The main statement -/

/-- How a session answers in a conversation. -/
structure Disciplined (s : Session) (moves : List Move) : Prop where
  /-- All that is said is said in some turn. -/
  said : (s.converse moves).2 = (s.turns moves).flatMap Turn.said
  /-- Of the values that are sent, those with an identifier have those of the requests, in their
  order; the others publish problems. -/
  sent : ∀ vs, List.Forall₂ Outgoing.Sends (s.converse moves).2 vs →
    vs.filterMap (·.get? "id") = (requests moves).map Prod.fst ∧
    ∀ v ∈ vs, v.get? "id" = none →
      v.get? "method" = some (.str "textDocument/publishDiagnostics")
  /-- In a turn cycles that have waited publish problems; behind that a request gets its reply, and
  no other move gets one. -/
  turn : ∀ t ∈ s.turns moves, ∃ cs r,
    (∀ c ∈ cs, ∃ w ∈ t.session.debouncer.waiting, w.action = c) ∧
    t.said = (t.session.runCycles cs).2 ++ (t.move.request?.map fun q => .reply q.1 r).toList
  /-- At the first request to shut down all that waits is run, and then the reply is given. -/
  shutdown : ∀ before t after id, s.turns moves = before ++ t :: after →
    (∀ u ∈ before, ¬ u.move.IsShutdown) → t.move.request? = some (id, "shutdown") →
    t.said = (t.session.runCycles (t.session.debouncer.waiting.map (·.action))).2 ++
      [.reply id (.result .null)] ∧
    (t.session.play t.move).1.debouncer.waiting = []
  /-- Every later request is refused, and changes nothing at all. -/
  refused : ∀ before t after id method, s.turns moves = before ++ t :: after →
    (∃ u ∈ before, u.move.IsShutdown) → t.move.request? = some (id, method) →
    t.session.play t.move = (t.session, [.reply id (.error .closing)], .goOn) ∧
    ∀ v, Outgoing.Sends (.reply id (.error .closing)) v →
      (v.get? "error").bind (·.get? "code") = some (.int (-32600))

/-- **Every request gets one reply, and nothing else does.** Whatever an editor says to an open
session, and whichever cycles run in between, each request before `exit` gets a reply under its
identifier, and all else that is sent publishes what cycles have found. A shutdown is confirmed
once all that waits has run; from then on every request is refused and changes nothing. A server
holds such a conversation over the messages of its stream.

This is about a store that answers. Where one fails, the reply of that request is an internal error
under the same identifier, and of the cycles those publish nothing that could not record. -/
theorem converse_disciplined (s : Session) (hopen : s.closing = false) :
    (∀ bytes, Server.run s bytes = s.converse ((Server.events bytes).map .event)) ∧
    ∀ moves, s.Disciplined moves := by
  refine ⟨Server.run_eq_converse s, fun moves => ?_⟩
  refine ⟨snd_converse s moves,
    fun vs hvs => ⟨?_, fun v hv => Outgoing.get?_method_of_mem hvs hv⟩, fun t _ => ?_, ?_, ?_⟩
  · rw [Outgoing.filterMap_get?_id hvs, ids_converse]
  · obtain ⟨r, hreply⟩ := t.session.exists_reply?_eq t.move
    refine ⟨t.session.due t.move, r, fun c hc => waits_of_mem_due hc, ?_⟩
    rw [Turn.said, snd_play, hreply]
  · intro before t after id hturns hbefore hid
    have hclosing : t.session.closing = false := by
      rw [← Bool.not_eq_true, closing_of_turns hturns, hopen]
      simpa using hbefore
    exact play_shutdown hclosing hid
  · intro before t after id method hturns hbefore hid
    exact ⟨play_of_closing ((closing_of_turns hturns).mpr (.inr hbefore)) hid,
      fun v hv => hv.code_error⟩

/-- A change is recorded by time, a save by the shutdown, and a change behind it by the end. The
message without a method is no request, and the last one is not heard. -/
def lateRequests : List Move :=
  [.event (.message (Note.opened sampleUri "dev 1").toMessage),
    .event (.message (Note.changed sampleUri (some "dev")).toMessage),
    .event (.message { id := some (.int 1), method := "textDocument/hover" }),
    .fire ("change:" ++ sampleUri),
    .event (.message (Note.saved sampleUri none).toMessage),
    .event (.message { id := some (.int 7) }),
    .event (.message { id := some (.str "two"), method := "shutdown" }),
    .event (.message (Note.changed sampleUri (some "dev 2")).toMessage),
    .event (.message { id := some (.int 3), method := "initialize" }),
    .event (.message { method := "exit" }),
    .event (.message { id := some (.int 4), method := "initialize" })]

/-- Three requests of it get replies, among three notifications. -/
theorem converse_disciplined_lateRequests :
    sample.closing = false ∧ sample.Disciplined lateRequests ∧
    (sample.converse lateRequests).2.map Outgoing.id? =
      [some (.int 1), none, none, some (.str "two"), some (.int 3), none] :=
  ⟨rfl, (converse_disciplined sample rfl).2 lateRequests, rfl⟩

end Session

end Daybook.Editor
