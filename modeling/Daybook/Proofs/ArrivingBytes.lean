/-
Daybook.Proofs.ArrivingBytes — a stream that arrives in pieces is the stream.

A server on a machine does not have its input at once: it handles what has
arrived, keeps the rest, and lets time pass in between. A reading that took a
message, or left something unread, is the same whatever arrives behind it (§1);
all others wait, and so what is ready of a beginning is ready of the whole (§2).
The server holds the conversation of what it hears (§3), which is the messages
of the whole stream and the time between them (§4). Main statement (§5):
`serve_eq_converse`.
-/
import Daybook.Proofs.ReadLoop

namespace Daybook.Editor

/-! ## §1 Readings that stand -/

namespace Frame

theorem ne_nil_of_suffix {bytes rest : List UInt8} (h : rest <:+ bytes) (hrest : rest ≠ []) :
    bytes ≠ [] := by
  rintro rfl
  exact hrest (List.suffix_nil.mp h)

/-- A header goes by its first line, whatever arrives, once there is something behind that line. -/
theorem Takes.takeHeader_append {line rest : List UInt8} (h : Takes line rest) (hrest : rest ≠ [])
    (known : Option Nat) (more : List UInt8) :
    takeHeader known (line ++ rest ++ more) =
      (behindLine known (rest ++ more) (HeaderLine.ofBytes line)).elim id
        fun state => takeHeader state.1 state.2 := by
  have hline : IsLine line := h.cases.resolve_right fun hlast => hrest hlast.2
  rw [List.append_assoc, hline.takeHeader]

/-- A header that something is left behind is taken alike when more arrives. -/
theorem takeHeader_append {known : Option Nat} {bytes rest : List UInt8} {e : HeaderEnd}
    (h : takeHeader known bytes = (e, rest)) (hrest : rest ≠ []) (more : List UInt8) :
    takeHeader known (bytes ++ more) = (e, rest ++ more) := by
  fun_induction takeHeader known bytes with
  | case1 known bytes r hround =>
    subst h
    have spec := headerRound_spec known bytes
    rw [hround] at spec
    cases spec with
    | cutOff => exact absurd rfl hrest
    | spoilt taken hline =>
      rw [taken.takeHeader_append hrest, hline]
      rfl
    | left taken hline =>
      rw [taken.takeHeader_append hrest, hline]
      rfl
  | case2 known bytes known' behind hround ih =>
    have hbehind : behind ≠ [] := by
      have hsuffix := takeHeader_suffix known' behind
      rw [h] at hsuffix
      exact ne_nil_of_suffix hsuffix hrest
    have spec := headerRound_spec known bytes
    rw [hround] at spec
    cases spec with
    | early taken hline =>
      rw [taken.takeHeader_append hbehind, hline]
      exact ih h
    | length taken hline =>
      rw [taken.takeHeader_append hbehind, hline]
      exact ih h
    | other taken hline =>
      rw [taken.takeHeader_append hbehind, hline]
      exact ih h

/-- What a call came to stands: it has found a message, or it has left something unread. -/
def Outcome.Stands (outcome : Outcome) (rest : List UInt8) : Prop :=
  (∃ m, outcome = .message m) ∨ rest ≠ []

/-- What stands behind a header is read alike, whatever arrives behind it. -/
theorem afterHeader_append {e : HeaderEnd} {bytes rest : List UInt8} {outcome : Outcome}
    (h : afterHeader e bytes = (outcome, rest)) (hstands : outcome.Stands rest)
    (more : List UInt8) : afterHeader e (bytes ++ more) = (outcome, rest ++ more) := by
  match e, h with
  | .cutOff, h =>
    cases h
    rfl
  | .spoilt _, h =>
    cases h
    rfl
  | .left none, h =>
    cases h
    rfl
  | .left (some n), h =>
    simp only [afterHeader, takeBody] at h ⊢
    by_cases hshort : bytes.length < n
    · -- a body that is cut short is no message, and leaves nothing
      rw [if_pos hshort] at h
      cases h
      rcases hstands with ⟨m, hm⟩ | hrest
      · cases hm
      · exact absurd rfl hrest
    · have hfits : n ≤ bytes.length := Nat.not_lt.mp hshort
      rw [if_neg hshort] at h
      rw [if_neg (by rw [List.length_append]; omega), List.take_append_of_le_length hfits,
        List.drop_append_of_le_length hfits]
      cases hbody : Message.ofBytes? (bytes.take n) with
      | none =>
        simp only [hbody] at h ⊢
        cases h
        rfl
      | some m =>
        simp only [hbody] at h ⊢
        cases h
        rfl

/-- **A call that stands** comes to the same when more arrives. -/
theorem call_append {bytes rest : List UInt8} {outcome : Outcome}
    (h : call bytes = (outcome, rest)) (hstands : outcome.Stands rest) (more : List UInt8) :
    call (bytes ++ more) = (outcome, rest ++ more) := by
  have hbehind : (takeHeader none bytes).2 ≠ [] := by
    rcases hstands with ⟨m, rfl⟩ | hrest
    · obtain ⟨body, _, hbody, hbytes⟩ := afterHeader_eq_message_iff.mp h
      rintro hnil
      rw [hnil] at hbytes
      rw [(List.append_eq_nil_iff.mp hbytes.symm).1] at hbody
      cases hbody
    · have hleft : (call bytes).2 ≠ [] := by rwa [h]
      exact ne_nil_of_suffix (afterHeader_suffix _ _) hleft
  rw [call, takeHeader_append (Prod.ext rfl rfl) hbehind more]
  exact afterHeader_append h hstands more

theorem Outcome.ofReading_injective : Function.Injective Outcome.ofReading := by
  rintro (_ | ⟨_ | _, _⟩) (_ | ⟨_ | _, _⟩) h <;> simp_all [ofReading]

/-- A message that is read is read, whatever arrives behind it. -/
theorem readMessage?_append_of_ok {bytes rest : List UInt8} {m : Message}
    (h : readMessage? bytes = some (.ok m, rest)) (more : List UInt8) :
    readMessage? (bytes ++ more) = some (.ok m, rest ++ more) := by
  have hcall : call bytes = (.message m, rest) := by rw [call_eq, h]; rfl
  refine Outcome.ofReading_injective ?_
  rw [← call_eq, call_append hcall (.inl ⟨m, rfl⟩)]
  rfl

/-- So is a fault, if something is left behind it. -/
theorem readMessage?_append_of_error {bytes rest : List UInt8} {fault : Fault}
    (h : readMessage? bytes = some (.error fault, rest)) (hrest : rest ≠ []) (more : List UInt8) :
    readMessage? (bytes ++ more) = some (.error fault, rest ++ more) := by
  have hcall : call bytes = (.failed (.fault fault), rest) := by rw [call_eq, h]; rfl
  refine Outcome.ofReading_injective ?_
  rw [← call_eq, call_append hcall (.inr hrest)]
  rfl

end Frame

namespace Server

/-! ## §2 What is ready -/

/-- The messages that have arrived, and the bytes that have to wait for more. -/
def ready (bytes : List UInt8) : List Event × List UInt8 :=
  match _h : Frame.readMessage? bytes with
  | none => ([], bytes)
  | some (.error _, []) => ([], bytes)
  | some (.error _, b :: rest) => ready (b :: rest)
  | some (.ok m, rest) => (.message m :: (ready rest).1, (ready rest).2)
termination_by bytes.length
decreasing_by all_goals exact Frame.length_lt_of_readMessage? _h

section Readings

variable {bytes rest : List UInt8} {fault : Frame.Fault} {m : Message}

theorem ready_of_none (h : Frame.readMessage? bytes = none) : ready bytes = ([], bytes) := by
  rw [ready]
  split <;> simp_all

theorem ready_of_last_error (h : Frame.readMessage? bytes = some (.error fault, [])) :
    ready bytes = ([], bytes) := by
  rw [ready]
  split <;> simp_all

theorem ready_of_error (h : Frame.readMessage? bytes = some (.error fault, rest))
    (hrest : rest ≠ []) : ready bytes = ready rest := by
  rw [ready]
  split <;> simp_all

theorem ready_of_ok (h : Frame.readMessage? bytes = some (.ok m, rest)) :
    ready bytes = (.message m :: (ready rest).1, (ready rest).2) := by
  rw [ready]
  split <;> simp_all

end Readings

theorem ready_nil : ready [] = ([], []) := ready_of_none rfl

/-- What waits has to wait until more arrives. -/
theorem ready_ready (bytes : List UInt8) : ready (ready bytes).2 = ([], (ready bytes).2) := by
  fun_induction ready bytes with
  | case1 bytes h => exact ready_of_none h
  | case2 bytes fault h => exact ready_of_last_error h
  | case3 bytes fault b rest h ih => exact ih
  | case4 bytes m rest h ih => exact ih

/-- **What is ready of a beginning** is ready of the whole, and the rest of the whole is read from
what waits. -/
theorem ready_append (bytes more : List UInt8) :
    ready (bytes ++ more) = ((ready bytes).1 ++ (ready ((ready bytes).2 ++ more)).1,
      (ready ((ready bytes).2 ++ more)).2) := by
  fun_induction ready bytes with
  | case1 bytes h => rfl
  | case2 bytes fault h => rfl
  | case3 bytes fault b rest h ih =>
    have hstands := Frame.readMessage?_append_of_error h (List.cons_ne_nil b rest) more
    rw [ready_of_error hstands (List.cons_ne_nil b _), ih]
  | case4 bytes m rest h ih =>
    rw [ready_of_ok (Frame.readMessage?_append_of_ok h more), ih]
    rfl

/-- The messages that have arrived are the first of those of the whole stream;
the others are read off what waits and what follows. -/
theorem events_append (bytes more : List UInt8) :
    events (bytes ++ more) = (ready bytes).1 ++ events ((ready bytes).2 ++ more) := by
  fun_induction ready bytes with
  | case1 bytes h => rfl
  | case2 bytes fault h => rfl
  | case3 bytes fault b rest h ih =>
    have hstands := Frame.readMessage?_append_of_error h (List.cons_ne_nil b rest) more
    rw [events_of_error hstands, ih]
  | case4 bytes m rest h ih =>
    rw [events_of_ok (Frame.readMessage?_append_of_ok h more), ih]
    rfl

/-- A frame with a message in it is ready as soon as its last byte has arrived. -/
theorem ready_stream {bodies : List (List UInt8)} {ms : List Message}
    (hfits : ∀ b ∈ bodies, b.length < 2 ^ 64) (hms : bodies.map Frame.decoded = ms.map .ok) :
    ready (Frame.stream bodies) = (ms.map .message, []) := by
  induction bodies generalizing ms with
  | nil =>
    obtain rfl : ms = [] := by simpa using hms
    exact ready_nil
  | cons b bodies ih =>
    cases ms with
    | nil => cases hms
    | cons m ms =>
      obtain ⟨hm, hms⟩ := List.cons.inj hms
      have hfirst := Frame.readMessage?_write (hfits b List.mem_cons_self) (Frame.stream bodies)
      rw [hm] at hfirst
      rw [Frame.stream_cons, ready_of_ok hfirst,
        ih (fun x hx => hfits x (List.mem_cons_of_mem b hx)) hms, List.map_cons]

/-! ## §3 A server whose input arrives -/

/-- Where a server stands in the middle of a conversation: its session, what it has said, whether
the conversation goes on, and what it has not read yet. -/
abbrev Midway := Session × List Outgoing × Session.Flow × List UInt8

/-- What a conversation comes to from there, if these moves follow. -/
def Midway.resume : Midway → List Move → Session × List Outgoing
  | (s, out, .exit, _), _ => (s.flush.1, out ++ s.flush.2)
  | (s, out, .goOn, _), moves => ((s.converse moves).1, out ++ (s.converse moves).2)

theorem Midway.resume_append (s : Session) (out more : List Outgoing) (flow : Session.Flow)
    (unread : List UInt8) (moves : List Move) :
    resume (s, out ++ more, flow, unread) moves =
      ((resume (s, more, flow, unread) moves).1,
        out ++ (resume (s, more, flow, unread) moves).2) := by
  cases flow <;> simp only [resume, List.append_assoc]

/-- Handling what has arrived is hearing what is ready. -/
theorem converse_ready (s : Session) (bytes : List UInt8) (moves : List Move) :
    s.converse ((ready bytes).1.map .event ++ moves) =
      Midway.resume (handleReady s bytes) moves := by
  fun_induction handleReady s bytes with
  | case1 s bytes h =>
    rw [ready_of_none h]
    rfl
  | case2 s bytes fault h =>
    rw [ready_of_last_error h]
    rfl
  | case3 s bytes fault b rest h ih =>
    rw [ready_of_error h (List.cons_ne_nil b rest), ih]
  | case4 s bytes m rest h s' out hhandle =>
    have hplay : s.play (.event (.message m)) = (s', out, .exit) := hhandle
    rw [ready_of_ok h, List.map_cons, List.cons_append, Session.converse, hplay]
    rfl
  | case5 s bytes m rest h s' out hhandle s'' more flow waiting hrest ih =>
    have hplay : s.play (.event (.message m)) = (s', out, .goOn) := hhandle
    rw [hrest] at ih
    rw [Midway.resume_append, ← ih, ready_of_ok h, List.map_cons, List.cons_append,
      Session.converse, hplay]

/-- What has not been read waits. -/
theorem unread_handleReady {s : Session} {bytes : List UInt8}
    (h : (handleReady s bytes).2.2.1 = .goOn) :
    (handleReady s bytes).2.2.2 = (ready bytes).2 := by
  fun_induction handleReady s bytes with
  | case1 s bytes hread => rw [ready_of_none hread]
  | case2 s bytes fault hread => rw [ready_of_last_error hread]
  | case3 s bytes fault b rest hread ih => rw [ready_of_error hread (List.cons_ne_nil b rest), ih h]
  | case4 s bytes m rest hread s' out hhandle => cases h
  | case5 s bytes m rest hread s' out hhandle s'' more flow waiting hrest ih =>
    rw [hrest] at ih
    rw [ready_of_ok hread]
    exact ih h

/-- Takes in one arrival after the other, up to the message that ends the conversation. -/
def takeAll (s : Session) (unread : List UInt8) : List Arrival → Midway
  | [] => (s, [], .goOn, unread)
  | a :: as =>
    match takeIn s unread a with
    | (s, out, .exit, unread) => (s, out, .exit, unread)
    | (s, out, .goOn, unread) =>
      let (s, more, flow, unread) := takeAll s unread as
      (s, out ++ more, flow, unread)

/-- Holds a conversation whose input arrives, as `Main.Talk.run` does. In the end what has not been
read is read, unless nothing more is heard, and the cycles that wait are run. -/
def serve (s : Session) (arrivals : List Arrival) : Session × List Outgoing :=
  match takeAll s [] arrivals with
  | (s, out, .exit, _) => ((run s []).1, out ++ (run s []).2)
  | (s, out, .goOn, unread) => ((run s unread).1, out ++ (run s unread).2)

/-- The bytes of an arrival. -/
def Arrival.piece : Arrival → List UInt8
  | bytes piece => piece
  | time _ => []

/-- What is heard when bytes or time arrive, and what waits then. -/
def Arrival.hear (unread : List UInt8) : Arrival → List Event × List UInt8
  | bytes piece => ready (unread ++ piece)
  | time ms => ([.wait ms], unread)

/-- What is heard of several arrivals, and what waits behind the last one. -/
def hearAll (unread : List UInt8) : List Arrival → List Event × List UInt8
  | [] => ([], unread)
  | a :: as =>
    ((a.hear unread).1 ++ (hearAll (a.hear unread).2 as).1, (hearAll (a.hear unread).2 as).2)

/-- The events of a conversation whose input arrives. -/
def heard (arrivals : List Arrival) : List Event :=
  (hearAll [] arrivals).1 ++ events (hearAll [] arrivals).2

/-- To hear an arrival, and then the moves that follow, is to go on from where
taking it in leads. -/
theorem converse_hear (s : Session) (unread : List UInt8) (a : Arrival) (moves : List Move) :
    s.converse ((a.hear unread).1.map .event ++ moves) =
      Midway.resume (takeIn s unread a) moves := by
  cases a with
  | bytes piece => exact converse_ready s (unread ++ piece) moves
  | time ms => rfl

/-- Taking in an arrival leaves unread what hearing it leaves. -/
theorem unread_takeIn {s : Session} {unread : List UInt8} {a : Arrival}
    (h : (takeIn s unread a).2.2.1 = .goOn) : (takeIn s unread a).2.2.2 = (a.hear unread).2 := by
  cases a with
  | bytes piece => exact unread_handleReady h
  | time ms => rfl

/-- Taking in what arrives is hearing its events; if the conversation goes on, what waits is what
has not been read. -/
theorem converse_hearAll (s : Session) (unread : List UInt8) (arrivals : List Arrival)
    (moves : List Move) :
    s.converse ((hearAll unread arrivals).1.map .event ++ moves) =
        Midway.resume (takeAll s unread arrivals) moves ∧
      ((takeAll s unread arrivals).2.2.1 = .goOn →
        (takeAll s unread arrivals).2.2.2 = (hearAll unread arrivals).2) := by
  induction arrivals generalizing s unread with
  | nil => exact ⟨rfl, fun _ => rfl⟩
  | cons a as ih =>
    have hfirst := converse_hear s unread a
    have hunread := @unread_takeIn s unread a
    rw [hearAll, takeAll, List.map_append, List.append_assoc, hfirst]
    generalize takeIn s unread a = midway at hunread
    obtain ⟨s', out, flow, rest⟩ := midway
    cases flow with
    | exit => exact ⟨rfl, fun h => by cases h⟩
    | goOn =>
      obtain rfl : rest = (a.hear unread).2 := hunread rfl
      obtain ⟨hconverse, hwaits⟩ := ih s' (a.hear unread).2
      refine ⟨?_, hwaits⟩
      rw [Midway.resume_append, ← hconverse]
      rfl

/-- **A server whose input arrives** holds the conversation of what it hears. -/
theorem serve_eq (s : Session) (arrivals : List Arrival) :
    serve s arrivals = s.converse ((heard arrivals).map .event) := by
  obtain ⟨hconverse, hwaits⟩ :=
    converse_hearAll s [] arrivals ((events (hearAll [] arrivals).2).map .event)
  rw [heard, List.map_append, hconverse, serve]
  generalize takeAll s [] arrivals = midway at hwaits
  obtain ⟨s', out, flow, unread⟩ := midway
  cases flow with
  | exit =>
    have hnone : events [] = [] := events_of_none rfl
    simp only [run_eq_converse, hnone]
    rfl
  | goOn =>
    obtain rfl : unread = _ := hwaits rfl
    simp only [run_eq_converse]
    rfl

end Server

/-! ## §4 What is heard -/

namespace Event

def isMessage : Event → Bool
  | message _ => true
  | _ => false

def elapsed? : Event → Option Nat
  | wait ms => some ms
  | _ => none

end Event

namespace Server

def Arrival.elapsed? : Arrival → Option Nat
  | bytes _ => none
  | time ms => some ms

/-- All the bytes that arrive. -/
def arrivedBytes (arrivals : List Arrival) : List UInt8 := arrivals.flatMap Arrival.piece

theorem isMessage_of_mem_events {bytes : List UInt8} {e : Event} (h : e ∈ events bytes) :
    e.isMessage = true := by
  fun_induction events bytes with
  | case1 bytes hread => cases h
  | case2 bytes fault rest hread ih => exact ih h
  | case3 bytes m rest hread ih =>
    rcases List.mem_cons.mp h with rfl | h
    · rfl
    · exact ih h

theorem isMessage_of_mem_ready {bytes : List UInt8} {e : Event} (h : e ∈ (ready bytes).1) :
    e.isMessage = true := by
  have hall := events_append bytes []
  exact isMessage_of_mem_events (hall ▸ List.mem_append_left _ h)

theorem elapsed?_of_isMessage {e : Event} (h : e.isMessage = true) : e.elapsed? = none := by
  cases e with
  | message m => rfl
  | wait ms => cases h
  | finish => rfl

/-- The messages that are heard are those that are ready of all that has arrived. -/
theorem filter_hearAll {unread : List UInt8} (h : ready unread = ([], unread))
    (arrivals : List Arrival) :
    (hearAll unread arrivals).1.filter (·.isMessage) =
        (ready (unread ++ arrivedBytes arrivals)).1 ∧
      (hearAll unread arrivals).2 = (ready (unread ++ arrivedBytes arrivals)).2 := by
  induction arrivals generalizing unread with
  | nil => simp [hearAll, arrivedBytes, h]
  | cons a as ih =>
    cases a with
    | bytes piece =>
      obtain ⟨hmessages, hwaits⟩ := ih (ready_ready (unread ++ piece))
      have hall : (ready (unread ++ piece)).1.filter (·.isMessage) =
          (ready (unread ++ piece)).1 :=
        List.filter_eq_self.mpr fun e he => isMessage_of_mem_ready he
      have hbytes : unread ++ arrivedBytes (.bytes piece :: as) =
          (unread ++ piece) ++ arrivedBytes as := by
        simp [arrivedBytes, Arrival.piece]
      rw [hbytes, ready_append]
      refine ⟨?_, hwaits⟩
      rw [hearAll, List.filter_append, Arrival.hear, hall, hmessages]
    | time ms => exact ih h

theorem elapsed?_hearAll (unread : List UInt8) (arrivals : List Arrival) :
    (hearAll unread arrivals).1.filterMap (·.elapsed?) = arrivals.filterMap (·.elapsed?) := by
  induction arrivals generalizing unread with
  | nil => rfl
  | cons a as ih =>
    rw [hearAll, List.filterMap_append, ih]
    cases a with
    | bytes piece =>
      have hnone : (ready (unread ++ piece)).1.filterMap (·.elapsed?) = [] :=
        List.filterMap_eq_nil_iff.mpr fun e he => elapsed?_of_isMessage (isMessage_of_mem_ready he)
      rw [Arrival.hear, hnone]
      rfl
    | time ms => rfl

theorem isMessage_of_elapsed?_hearAll {unread : List UInt8} {arrivals : List Arrival}
    {e : Event} (h : e ∈ (hearAll unread arrivals).1) (hnone : e.elapsed? = none) :
    e.isMessage = true := by
  induction arrivals generalizing unread with
  | nil => cases h
  | cons a as ih =>
    rcases List.mem_append.mp h with h | h
    · cases a with
      | bytes piece => exact isMessage_of_mem_ready h
      | time ms =>
        obtain rfl := List.mem_singleton.mp h
        cases hnone
    · exact ih h

/-- The messages that are heard in the end are those of the whole stream. -/
theorem filter_heard (arrivals : List Arrival) :
    (heard arrivals).filter (·.isMessage) = events (arrivedBytes arrivals) := by
  obtain ⟨hmessages, hwaits⟩ := filter_hearAll ready_nil arrivals
  have hrest : (events (hearAll [] arrivals).2).filter (·.isMessage) =
      events (hearAll [] arrivals).2 :=
    List.filter_eq_self.mpr fun e he => isMessage_of_mem_events he
  have hall := events_append (arrivedBytes arrivals) []
  rw [List.append_nil, List.append_nil] at hall
  rw [heard, List.filter_append, hrest, hmessages, hwaits, List.nil_append, ← hall]

/-- The time that passes is the time that arrives. -/
theorem elapsed?_heard (arrivals : List Arrival) :
    (heard arrivals).filterMap (·.elapsed?) = arrivals.filterMap (·.elapsed?) := by
  have hrest : (events (hearAll [] arrivals).2).filterMap (·.elapsed?) = [] :=
    List.filterMap_eq_nil_iff.mpr fun e he => elapsed?_of_isMessage (isMessage_of_mem_events he)
  rw [heard, List.filterMap_append, elapsed?_hearAll, hrest, List.append_nil]

/-- If no time passes, nothing but messages is heard. -/
theorem heard_of_quiet {arrivals : List Arrival} (h : ∀ a ∈ arrivals, a.elapsed? = none) :
    heard arrivals = events (arrivedBytes arrivals) := by
  rw [← filter_heard, eq_comm, List.filter_eq_self]
  intro e he
  have hquiet : (heard arrivals).filterMap (·.elapsed?) = [] := by
    rw [elapsed?_heard]
    exact List.filterMap_eq_nil_iff.mpr h
  rcases List.mem_append.mp he with hfirst | hlast
  · exact isMessage_of_elapsed?_hearAll hfirst (List.filterMap_eq_nil_iff.mp hquiet e he)
  · exact isMessage_of_mem_events hlast

theorem hearAll_append (unread : List UInt8) (before after : List Arrival) :
    hearAll unread (before ++ after) =
      ((hearAll unread before).1 ++ (hearAll (hearAll unread before).2 after).1,
        (hearAll (hearAll unread before).2 after).2) := by
  induction before generalizing unread with
  | nil => rfl
  | cons a before ih => simp only [List.cons_append, hearAll, ih, List.append_assoc]

/-- **Nothing that has arrived is kept waiting.** Where the frames of some messages have arrived in
full, however they were cut into pieces, these messages have been heard before anything else
arrives. -/
theorem heard_append_of_stream {before : List Arrival} {bodies : List (List UInt8)}
    {ms : List Message} (hfits : ∀ b ∈ bodies, b.length < 2 ^ 64)
    (hms : bodies.map Frame.decoded = ms.map .ok)
    (hbytes : arrivedBytes before = Frame.stream bodies) (after : List Arrival) :
    (hearAll [] before).1.filter (·.isMessage) = ms.map .message ∧
      heard (before ++ after) = (hearAll [] before).1 ++ heard after := by
  obtain ⟨hmessages, hwaits⟩ := filter_hearAll ready_nil before
  rw [List.nil_append, hbytes, ready_stream hfits hms] at hmessages hwaits
  refine ⟨hmessages, ?_⟩
  rw [heard, hearAll_append, hwaits, List.append_assoc]
  rfl

/-! ## §5 The main statement -/

/-- **A stream that arrives in pieces is the stream.** A server that handles what has arrived, and
lets time pass in between, holds a conversation of messages and time. The messages are those of all
the bytes together, wherever these were cut, and the time is the time that passed. If none did, the
server does what it does with the whole stream at once. -/
theorem serve_eq_converse (s : Session) (arrivals : List Arrival) :
    serve s arrivals = s.converse ((heard arrivals).map .event) ∧
    (heard arrivals).filter (·.isMessage) = events (arrivedBytes arrivals) ∧
    (heard arrivals).filterMap (·.elapsed?) = arrivals.filterMap (·.elapsed?) ∧
    ((∀ a ∈ arrivals, a.elapsed? = none) →
      serve s arrivals = run s (arrivedBytes arrivals)) := by
  refine ⟨serve_eq s arrivals, filter_heard arrivals, elapsed?_heard arrivals, fun hquiet => ?_⟩
  rw [serve_eq, heard_of_quiet hquiet, run_eq_converse]

end Server

end Daybook.Editor
