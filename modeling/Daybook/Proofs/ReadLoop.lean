/-
Daybook.Proofs.ReadLoop — the server comes to an end.

The server calls for one message after the other and passes over every call
that fails, so it could go round forever on a stream that it cannot read. It
does not, as each round but the last takes at least one byte (§2): it ends at
the message that says so, or at the end of its input. Meanwhile any cycles that
wait may run (§1). What it has said and done by then, together with the cycles
that are run at the end, is the conversation of what it read (§3). Main
statement: `read_loop_ends` (§4), here for a document that is saved at the very
end (§5).
-/
import Daybook.Proofs.ReadCalls
import Daybook.Proofs.Replies

namespace Daybook.Editor

/-! ## §1 Rounds -/

namespace Session

/-- Runs the cycles that wait under some keys. -/
def fireAll (s : Session) : List String → Session × List Outgoing
  | [] => (s, [])
  | key :: keys =>
    let (s, published) := s.fire key
    let (s, more) := s.fireAll keys
    (s, published ++ more)

end Session

namespace Server

/-- A server between two calls. -/
structure Serving where
  session : Session
  /-- What has not been read yet. -/
  unread : List UInt8
  /-- How many calls there were. -/
  calls : Nat := 0
  said : List Outgoing := []

/-- Why a server ends. -/
inductive Ending where
  /-- The editor said so. -/
  | exit
  /-- The input ended. -/
  | closed
deriving DecidableEq, Repr

namespace Serving

variable (v : Serving)

/-- The server after a call that leaves `rest` unread. Before the call the cycles under some keys
may run. -/
def behind (keys : List String) (rest : List UInt8) : Serving where
  session := (v.session.fireAll keys).1
  unread := rest
  calls := v.calls + 1
  said := v.said ++ (v.session.fireAll keys).2

def hear (m : Message) : Serving :=
  { v with session := (v.session.handle m).1, said := v.said ++ (v.session.handle m).2.1 }

/-- Runs the cycles that still wait: the session that is left, and all that was said. -/
def finish : Session × List Outgoing := (v.session.flush.1, v.said ++ v.session.flush.2)

end Serving

variable (fired : Nat → List String)

/-- One round of a server; `fired n` are the keys of the cycles that run before call number `n`. -/
def serverRound (v : Serving) : (Ending × Serving) ⊕ Serving :=
  let (outcome, rest) := Frame.call v.unread
  let next := v.behind (fired v.calls) rest
  match outcome with
  | .closed => .inl (.closed, next)
  | .failed _ => .inr next
  | .message m =>
    match (next.session.handle m).2.2 with
    | .exit => .inl (.exit, next.hear m)
    | .goOn => .inr (next.hear m)

/-- What happens to the session of a server that reads these messages and faults, the first of them
in its round number `n`. -/
def moves : Nat → List (Except Frame.Fault Message) → List Move
  | n, [] => (fired n).map .fire
  | n, .error _ :: outcomes => (fired n).map .fire ++ moves (n + 1) outcomes
  | n, .ok m :: outcomes => (fired n).map .fire ++ .event (.message m) :: moves (n + 1) outcomes

end Server

/-! ## §2 The loop -/

/-- Cycles that fire at the beginning of a conversation are run before the rest
of it. -/
theorem Session.converse_fires (s : Session) (keys : List String) (moves : List Move) :
    s.converse (keys.map .fire ++ moves) =
      (((s.fireAll keys).1.converse moves).1,
        (s.fireAll keys).2 ++ ((s.fireAll keys).1.converse moves).2) := by
  induction keys generalizing s with
  | nil => rfl
  | cons key keys ih =>
    rw [List.map_cons, List.cons_append, converse_cons]
    simp only [Move.isExit, Bool.false_eq_true, if_false, play, ih, fireAll, List.append_assoc]

namespace Server

theorem events_of_none {bytes : List UInt8} (h : Frame.readMessage? bytes = none) :
    events bytes = [] := by
  rw [events]
  split <;> simp_all

theorem events_of_error {bytes rest : List UInt8} {fault : Frame.Fault}
    (h : Frame.readMessage? bytes = some (.error fault, rest)) : events bytes = events rest := by
  rw [events]
  split <;> simp_all

theorem events_of_ok {bytes rest : List UInt8} {m : Message}
    (h : Frame.readMessage? bytes = some (.ok m, rest)) :
    events bytes = .message m :: events rest := by
  rw [events]
  split <;> simp_all

variable {fired : Nat → List String} {v : Serving}

/-- At the end of the input a round ends the loop. -/
theorem serverRound_of_none (h : Frame.readMessage? v.unread = none) :
    serverRound fired v = .inl (.closed, v.behind (fired v.calls) []) := by
  rw [serverRound, Frame.call_eq, h]
  rfl

/-- A fault is passed over, and the loop goes on behind it. -/
theorem serverRound_of_error {rest : List UInt8} {fault : Frame.Fault}
    (h : Frame.readMessage? v.unread = some (.error fault, rest)) :
    serverRound fired v = .inr (v.behind (fired v.calls) rest) := by
  rw [serverRound, Frame.call_eq, h]
  rfl

variable (fired) in
/-- A message is heard; the loop goes on unless it is the last one. -/
theorem serverRound_of_ok {rest : List UInt8} {m : Message}
    (h : Frame.readMessage? v.unread = some (.ok m, rest)) :
    serverRound fired v =
      if Event.isExit (.message m) then .inl (.exit, (v.behind (fired v.calls) rest).hear m)
      else .inr ((v.behind (fired v.calls) rest).hear m) := by
  have hflow := flow_handle (v.behind (fired v.calls) rest).session m
  rw [serverRound, Frame.call_eq, h]
  simp only [Frame.Outcome.ofReading]
  rw [hflow]
  cases Event.isExit (.message m) <;> rfl

/-! ## §3 What a server has said and done -/

variable (fired v) in
/-- What comes of a server in the end: the conversation of what it reads. -/
def outlook : Session × List Outgoing :=
  let rest := v.session.converse (moves fired v.calls ((Frame.readings v.unread).map Prod.fst))
  (rest.1, v.said ++ rest.2)

theorem outlook_of_none (h : Frame.readMessage? v.unread = none) :
    outlook fired v = (v.behind (fired v.calls) []).finish := by
  have hnone : Frame.readings v.unread = [] := by
    rw [Frame.readings]
    split <;> simp_all
  have hfires := v.session.converse_fires (fired v.calls) []
  rw [List.append_nil] at hfires
  simp only [outlook, hnone, List.map_nil, moves, hfires, Session.converse, Serving.finish,
    Serving.behind, List.append_assoc]

theorem outlook_of_error {rest : List UInt8} {fault : Frame.Fault}
    (h : Frame.readMessage? v.unread = some (.error fault, rest)) :
    outlook fired v = outlook fired (v.behind (fired v.calls) rest) := by
  simp only [outlook, Frame.readings_cons h, List.map_cons, moves, Session.converse_fires,
    Serving.behind, List.append_assoc]

variable (fired) in
theorem outlook_of_ok {rest : List UInt8} {m : Message}
    (h : Frame.readMessage? v.unread = some (.ok m, rest)) :
    outlook fired v =
      if Event.isExit (.message m) then ((v.behind (fired v.calls) rest).hear m).finish
      else outlook fired ((v.behind (fired v.calls) rest).hear m) := by
  have hplay (s : Session) : s.play (.event (.message m)) = s.handle m := rfl
  simp only [outlook, Frame.readings_cons h, List.map_cons, moves, Session.converse_fires,
    Session.converse_cons, hplay]
  by_cases hexit : Event.isExit (.message m) = true
  · have hmove : (Move.event (.message m)).isExit = true := hexit
    simp only [if_pos hmove, if_pos hexit, Session.converse, Serving.finish, Serving.hear,
      Serving.behind, List.append_assoc]
  · have hmove : ¬ (Move.event (.message m)).isExit = true := hexit
    simp only [if_neg hmove, if_neg hexit, Serving.hear, Serving.behind, List.append_assoc]

/-- Where no cycles run before calls, the server holds the conversation of the events of the
stream. -/
theorem moves_events (n : Nat) (bytes : List UInt8) :
    moves (fun _ => []) n ((Frame.readings bytes).map Prod.fst) = (events bytes).map .event := by
  fun_induction Frame.readings bytes generalizing n with
  | case1 bytes h =>
    rw [events_of_none h]
    rfl
  | case2 bytes outcome rest h ih =>
    cases outcome with
    | error fault =>
      rw [events_of_error h, ← ih (n + 1)]
      rfl
    | ok m =>
      have hmore := congrArg (Move.event (.message m) :: ·) (ih (n + 1))
      rw [events_of_ok h]
      exact hmore

/-! ## §4 The main statement -/

variable (fired v) in
/-- A server ends as it should: whatever rounds it is given beyond the number of unread bytes, at
the message that says so or at the end of its input, and having held the conversation of what it
read. -/
structure Ends (ending : Ending) (last : Serving) : Prop where
  rounds : ∀ more, loop (serverRound fired) (v.unread.length + 1 + more) v = some (ending, last)
  ending : ending = .exit ∧ (∃ e ∈ events v.unread, e.isExit = true) ∨
    ending = .closed ∧ last.unread = [] ∧ ∀ e ∈ events v.unread, e.isExit = false
  conversation : last.finish = outlook fired v

variable (fired) in
/-- From whatever it is serving, a server comes to an end. -/
theorem exists_ends (v : Serving) : ∃ ending last, Ends fired v ending last := by
  -- by the number of unread bytes, which each round but the last makes smaller
  induction hsize : v.unread.length using Nat.strong_induction_on generalizing v with
  | _ size ih =>
    subst hsize
    cases hreading : Frame.readMessage? v.unread with
    | none =>
      refine ⟨_, _, loop_of_inl (serverRound_of_none hreading) _, ?_,
        (outlook_of_none hreading).symm⟩
      exact .inr ⟨rfl, rfl, by simp [events_of_none hreading]⟩
    | some reading =>
      obtain ⟨outcome, rest⟩ := reading
      have hless := Frame.length_lt_of_readMessage? hreading
      cases outcome with
      | error fault =>
        obtain ⟨ending, last, hends⟩ := ih _ hless (v.behind (fired v.calls) rest) rfl
        refine ⟨ending, last,
          loop_of_inr (serverRound_of_error hreading) hless hends.rounds, ?_, ?_⟩
        · rw [events_of_error hreading]
          exact hends.ending
        · rw [hends.conversation, outlook_of_error hreading]
      | ok m =>
        have hround := serverRound_of_ok fired hreading
        have houtlook := outlook_of_ok fired hreading
        cases hexit : Event.isExit (.message m) with
        | true =>
          rw [hexit, if_pos rfl] at hround houtlook
          refine ⟨_, _, loop_of_inl hround _, ?_, houtlook.symm⟩
          exact .inl ⟨rfl, .message m, by simp [events_of_ok hreading], hexit⟩
        | false =>
          rw [hexit, if_neg Bool.false_ne_true] at hround houtlook
          obtain ⟨ending, last, hends⟩ := ih _ hless ((v.behind (fired v.calls) rest).hear m) rfl
          refine ⟨ending, last, loop_of_inr hround hless hends.rounds, ?_, ?_⟩
          · have hending := hends.ending
            rw [events_of_ok hreading]
            simp only [List.mem_cons, exists_eq_or_imp, forall_eq_or_imp, hexit,
              Bool.false_eq_true, false_or, true_and]
            exact hending
          · rw [hends.conversation, houtlook]

/-- What a server does last: every cycle that waits records the text that its document has by
then, and none waits any longer. -/
theorem fst_finish (v : Serving) :
    v.finish.1 = { v.session with
      journal := v.session.journal.recordAll
        (v.session.debouncer.actions.filterMap v.session.recording?)
      debouncer := { v.session.debouncer with waiting := [] } } :=
  Session.fst_runCycles { v.session with debouncer := v.session.debouncer.flush.1 } _

/-- The problems of these texts are what it says last. -/
theorem snd_finish (v : Serving) :
    v.finish.2 = v.said ++
      v.session.debouncer.actions.flatMap fun c => (v.session.runCycle c).2 := by
  rw [← Session.snd_runCycles]
  exact congrArg (v.said ++ ·) (v.session.snd_runCycles_with v.session.debouncer.flush.1
    v.session.closing v.session.debouncer.actions)

/-- **The read loop ends on every input.** The loop over the lines of a header ends, and a call is
one reading of the stream: never is a header left without a length. A call that finds anything
takes at least one byte, whether it succeeds or fails, and one that succeeds has taken a header
and exactly the body that this header announces. So a server ends, whatever cycles run before each
call: at the message that says so, or with nothing left to read where there is none. It has then
held the conversation of what it read; and of the cycles that waited in the end each has recorded
the text of its document and published what is wrong with it, and none waits any longer. -/
theorem read_loop_ends :
    (∀ (known : Option Nat) (bytes : List UInt8) (more : Nat),
      loop Frame.headerRound (bytes.length + 1 + more) (known, bytes) =
        some (Frame.takeHeader known bytes)) ∧
    (∀ bytes, Frame.call bytes = Frame.Outcome.ofReading (Frame.readMessage? bytes)) ∧
    (∀ bytes, (Frame.call bytes).1 ≠ .failed .noLength) ∧
    (∀ bytes, Frame.call bytes = (.closed, []) ∨
      ∃ taken, taken ≠ [] ∧ bytes = taken ++ (Frame.call bytes).2) ∧
    (∀ (bytes rest : List UInt8) (m : Message), Frame.call bytes = (.message m, rest) ↔
      ∃ header body, Frame.Announces none header body.length ∧ Message.ofBytes? body = some m ∧
        bytes = header ++ (body ++ rest)) ∧
    (∀ (fired : Nat → List String) (s : Session) (bytes : List UInt8), ∃ ending last,
      (∀ more, loop (serverRound fired) (bytes.length + 1 + more)
        { session := s, unread := bytes } = some (ending, last)) ∧
      (ending = .exit ∧ (∃ e ∈ events bytes, e.isExit = true) ∨
        ending = .closed ∧ last.unread = [] ∧ ∀ e ∈ events bytes, e.isExit = false) ∧
      last.finish = s.converse (moves fired 0 ((Frame.readings bytes).map Prod.fst)) ∧
      last.finish.1 = { last.session with
        journal := last.session.journal.recordAll
          (last.session.debouncer.actions.filterMap last.session.recording?)
        debouncer := { last.session.debouncer with waiting := [] } } ∧
      last.finish.2 = last.said ++
        last.session.debouncer.actions.flatMap (fun c => (last.session.runCycle c).2) ∧
      last.finish.1.debouncer.waiting = []) ∧
    (∀ (s : Session) (bytes : List UInt8),
      s.converse (moves (fun _ => []) 0 ((Frame.readings bytes).map Prod.fst)) = run s bytes) := by
  refine ⟨Frame.loop_headerRound, Frame.call_eq, Frame.call_ne_noLength, Frame.call_progress,
    fun _ _ _ => Frame.call_eq_message_iff, fun fired s bytes => ?server, fun s bytes => ?quiet⟩
  case server =>
    obtain ⟨ending, last, hends⟩ := exists_ends fired { session := s, unread := bytes }
    refine ⟨ending, last, hends.rounds, hends.ending, ?_, fst_finish last, snd_finish last, ?_⟩
    · simp only [hends.conversation, outlook, List.nil_append]
    · rw [fst_finish]
  case quiet =>
    rw [moves_events, run_eq_converse]

/-! ## §5 A save at the very end -/

section Notes

open Frame (bodyOf decoded stream)
open Session (sample sampleUri sampleDay)

def bodyOfNote (n : Note) : List UInt8 :=
  bodyOf (.obj [("method", .str n.toMessage.method), ("params", n.toMessage.params)])

/-- The body fits a frame, and the notification is read back from it. -/
structure Sendable (n : Note) : Prop where
  fits : (bodyOfNote n).length < 2 ^ 64
  decoded : decoded (bodyOfNote n) = .ok n.toMessage

theorem serverRound_note {v : Serving} {n : Note} {rest : List UInt8} (hn : Sendable n)
    (h : v.unread = Frame.write (bodyOfNote n) ++ rest) :
    serverRound (fun _ => []) v = .inr ((v.behind [] rest).hear n.toMessage) := by
  have hread : Frame.readMessage? v.unread = some (.ok n.toMessage, rest) := by
    rw [h, Frame.readMessage?_write hn.fits, hn.decoded]
  rw [serverRound_of_ok _ hread]
  cases n <;> rfl

/-- A server that hears notifications only, and runs no cycle in between, has said nothing when its
input ends. -/
theorem loop_notes {ns : List Note} (hns : ∀ n ∈ ns, Sendable n) {v : Serving}
    (h : v.unread = stream (ns.map bodyOfNote)) :
    ∃ last,
      (∀ more, loop (serverRound fun _ => []) (ns.length + 1 + more) v = some (.closed, last)) ∧
      last.session = v.session.afterAll (ns.map fun n => .message n.toMessage) ∧
      last.said = v.said := by
  induction ns generalizing v with
  | nil =>
    have hnone : Frame.readMessage? v.unread = none := by
      rw [h]
      rfl
    exact ⟨_, loop_of_inl (serverRound_of_none hnone) 0, rfl, List.append_nil _⟩
  | cons n ns ih =>
    obtain ⟨hn, hns⟩ := List.forall_mem_cons.mp hns
    have hround : serverRound (fun _ => []) v =
        .inr ((v.behind [] (stream (ns.map bodyOfNote))).hear n.toMessage) :=
      serverRound_note hn h
    obtain ⟨last, hloop, hsession, hsaid⟩ :=
      ih hns (v := (v.behind [] (stream (ns.map bodyOfNote))).hear n.toMessage) rfl
    have hquiet : (v.session.handle n.toMessage).2.1 = [] := by cases n <;> rfl
    refine ⟨last, loop_of_inr hround (Nat.lt_succ_self ns.length) hloop, hsession,
      hsaid.trans ?_⟩
    simp [Serving.hear, Serving.behind, Session.fireAll, hquiet]

/-- A document is opened and saved, and nothing more is said. -/
def savedAtTheEnd : List Note := [.opened sampleUri "dev 1 x", .saved sampleUri none]

theorem sendable_savedAtTheEnd : ∀ n ∈ savedAtTheEnd, Sendable n := by
  intro n hn
  simp only [savedAtTheEnd, List.mem_cons, List.not_mem_nil, or_false] at hn
  rcases hn with rfl | rfl
  · exact ⟨by decide +kernel, by rfl⟩
  · exact ⟨by decide +kernel, by rfl⟩

/-- The input ends while the cycle of a save waits. Nothing is recorded yet; then the text is
recorded as saved, and found to be without problems. -/
theorem read_loop_ends_savedAtTheEnd :
    let bytes := stream (savedAtTheEnd.map bodyOfNote)
    let work : Entry :=
      { category := "dev", hours := 1, minutes := 0, task := none, comment := "x" }
    ∃ last,
      loop (serverRound fun _ => []) (bytes.length + 1 + 2)
        { session := sample, unread := bytes } = some (.closed, last) ∧
      last.session.debouncer.actions = [⟨sampleUri, .save⟩] ∧
      last.session.journal.dayEntries sampleDay = [] ∧ last.said = [] ∧
      last.finish.1.journal.dayEntries sampleDay = [⟨work, false⟩, ⟨work, true⟩] ∧
      last.finish.2 = [.diagnostics sampleUri []] := by
  intro bytes work
  obtain ⟨_, _, _, _, _, hserver, _⟩ := read_loop_ends
  obtain ⟨ending, last, hends, _, _, hrecorded, hpublished, _⟩ :=
    hserver (fun _ => []) sample bytes
  obtain ⟨last', hloop, hsession, hsaid⟩ := loop_notes sendable_savedAtTheEnd
    (v := { session := sample, unread := bytes }) rfl
  have hfuel : bytes.length + 1 + 2 = 2 + 1 + bytes.length := by omega
  have hlast := hends 2
  rw [hfuel] at hlast
  obtain ⟨rfl, rfl⟩ := Prod.mk.inj (Option.some.inj (hlast.symm.trans (hloop bytes.length)))
  have hjournal : last.session.journal = sample.journal := by
    rw [hsession]
    rfl
  have hactions : last.session.debouncer.actions = [⟨sampleUri, .save⟩] := by
    rw [hsession]
    rfl
  have hday : last.session.dayOf? sampleUri = some sampleDay := by
    rw [hsession]
    rfl
  have htext : last.session.documents.get? sampleUri = some "dev 1 x" := by
    rw [hsession]
    rfl
  have hproblems : (analyze (sample.journal.reader sampleDay) "dev 1 x").problems = [] := by
    decide +kernel
  refine ⟨last, hends 2, hactions, ?_, hsaid, ?_, ?_⟩
  · rw [hjournal]
    rfl
  · rw [hrecorded, hactions, hjournal]
    simp only [List.filterMap_cons, List.filterMap_nil, Session.recording?, hday, htext]
    decide +kernel
  · rw [hpublished, hsaid, hactions, List.flatMap_singleton]
    simp only [Session.runCycle, hday, htext, hjournal, Journal.snd_record, hproblems]
    rfl

end Notes

end Server

end Daybook.Editor
