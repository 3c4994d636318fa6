/-
Daybook.Editor.Server — a conversation over a stream of bytes.

The server reads one message after the other until the editor says `exit` or
the stream ends; what cannot be read is passed over. At the end every cycle
that still waits is run, so that no edit is lost.

§1 a whole stream, §2 a stream that is still arriving, §3 sending.
-/
import Daybook.Editor.Frame
import Daybook.Editor.Session

namespace Daybook.Editor.Server

/-! ## §1 A whole stream -/

/-- Handles the messages of a stream. -/
def handleAll (s : Session) (bytes : List UInt8) : Session × List Outgoing :=
  match _h : Frame.readMessage? bytes with
  | none => (s, [])
  | some (.error _, rest) => handleAll s rest
  | some (.ok message, rest) =>
    match s.handle message with
    | (s, out, .exit) => (s, out)
    | (s, out, .goOn) =>
      let (s, more) := handleAll s rest
      (s, out ++ more)
termination_by bytes.length
decreasing_by all_goals exact Frame.length_lt_of_readMessage? _h

/-- Holds a conversation. -/
def run (s : Session) (bytes : List UInt8) : Session × List Outgoing :=
  let (s, out) := handleAll s bytes
  let (s, published) := s.flush
  (s, out ++ published)

/-! ## §2 A stream that is still arriving -/

/-- Handles the messages that have arrived, and hands back the bytes of the one
that has not arrived in full. A fault at the very end may be no fault once more
has arrived, so it waits. -/
def handleReady (s : Session) (bytes : List UInt8) :
    Session × List Outgoing × Session.Flow × List UInt8 :=
  match _h : Frame.readMessage? bytes with
  | none => (s, [], .goOn, bytes)
  | some (.error _, []) => (s, [], .goOn, bytes)
  | some (.error _, b :: rest) => handleReady s (b :: rest)
  | some (.ok message, rest) =>
    match s.handle message with
    | (s, out, .exit) => (s, out, .exit, rest)
    | (s, out, .goOn) =>
      let (s, more, flow, rest) := handleReady s rest
      (s, out ++ more, flow, rest)
termination_by bytes.length
decreasing_by all_goals exact Frame.length_lt_of_readMessage? _h

/-- What reaches a server: bytes, in pieces of any size, and the passing of time. -/
inductive Arrival where
  | bytes (piece : List UInt8)
  | time (ms : Nat)
deriving DecidableEq, Repr

/-- Takes in what arrives behind bytes that are still unread. -/
def takeIn (s : Session) (unread : List UInt8) :
    Arrival → Session × List Outgoing × Session.Flow × List UInt8
  | .bytes piece => handleReady s (unread ++ piece)
  | .time ms =>
    let (s, published) := s.advance ms
    (s, published, .goOn, unread)

/-! ## §3 Sending -/

/-- The bytes that are sent for messages. -/
def sendAll {m : Type → Type} [Monad m] (files : Files m) : List Outgoing → m (List UInt8)
  | [] => pure []
  | out :: outs => do
    let first := Frame.ofJson (← out.send files)
    pure (first ++ (← sendAll files outs))

end Daybook.Editor.Server
