/-
Daybook.Proofs.Framing — frames are transparent.

What a frame holds may be anything: line breaks, text that looks like a
header, nothing at all. The reader finds the blank line behind the header and
counts the body off, so it takes one frame and no more, whether the body is a
message or not. Main statement: `frames_transparent`. A body is as long as a
word of 64 bits can say, as every body in memory is.

§1 header lines, §2 one frame, §3 successive readings, §4 a conversation of
framed messages, §5 values in frames, §6 the main statement.
-/
import Daybook.Proofs.DayText
import Daybook.Proofs.SessionRuns
import Daybook.Proofs.Trimming
import Daybook.Proofs.Utf8RoundTrip
import Mathlib.Data.List.Basic

namespace Daybook.Editor

namespace Frame

open Text (numeral)
open Text.Utf8 (encode)

/-! ## §1 Header lines -/

/-- The reader collects a line up to its line break. -/
theorem readFrom_line (length : Option Nat) (line xs bytes : List UInt8) (h : 0x0A ∉ xs) :
    readFrom length line (xs ++ 0x0A :: bytes) =
      (afterLine length (line.reverse ++ (xs ++ [0x0A])) bytes).elim some
        fun length => readFrom length [] bytes := by
  induction xs generalizing line with
  | nil =>
    rw [List.nil_append, readFrom, if_pos rfl, List.reverse_cons, List.nil_append]
    cases afterLine length (line.reverse ++ [0x0A]) bytes <;> rfl
  | cons x xs ih =>
    have hx : x ≠ 0x0A := fun heq => h (by simp [heq])
    have hrest := ih (x :: line) fun hmem => h (List.mem_cons_of_mem _ hmem)
    rw [List.cons_append, readFrom, if_neg hx, hrest]
    simp

theorem faultFrom_chars (offset : Nat) (cs : List Char) :
    Text.Utf8.faultFrom offset (cs.map .char) = none := by
  induction cs generalizing offset with
  | nil => rfl
  | cons c cs ih => exact ih _

/-- A header line that is written as text is read as that text. -/
theorem ofBytes_encode (cs : List Char) :
    HeaderLine.ofBytes (encode cs) = HeaderLine.ofChars cs := by
  have hfault : Text.Utf8.fault? (encode cs) = none := by
    rw [Text.Utf8.fault?, Text.Utf8.chunks_encode, faultFrom_chars]
  have hdecode : Text.Utf8.decodeLossy (encode cs) = cs := by
    rw [Text.Utf8.decodeLossy, Text.Utf8.chunks_encode, List.map_map]
    exact List.map_id' _
  simp only [HeaderLine.ofBytes, hfault, hdecode]

/-- White space is dropped up to the last digit of a numeral, and no further. -/
theorem trimEnd_append_numeral (cs : List Char) (n : Nat) (tail : List Char)
    (htail : ∀ c ∈ tail, Text.isBlank c = true) :
    Text.trimEnd (cs ++ numeral n ++ tail) = cs ++ numeral n := by
  have hnumeral := Text.isNumeral_numeral n
  obtain ⟨ds, d, hlast⟩ : ∃ ds d, numeral n = ds ++ [d] :=
    ⟨_, _, (List.dropLast_append_getLast hnumeral.nonempty).symm⟩
  have hd : Text.isBlank d = false := by
    refine Text.isBlank_of_isDigit (List.all_eq_true.mp hnumeral.digits d ?_)
    simp [hlast]
  have htail' : ∀ c ∈ tail.reverse, Text.isBlank c = true := fun c hc =>
    htail c (List.mem_reverse.mp hc)
  rw [hlast, Text.trimEnd, Text.dropEndWhile, List.reverse_append,
    List.dropWhile_append_of_pos htail']
  simp [hd]

theorem trim_numeral (n : Nat) : Text.trim (' ' :: numeral n) = numeral n := by
  have hstart := Text.trimStart_numeral_append (Text.isNumeral_numeral n) []
  have hend := trimEnd_append_numeral [] n [] (by simp)
  simp only [List.append_nil, List.nil_append] at hstart hend
  rw [Text.trim, Text.trimStart, List.dropWhile_cons_of_pos Text.isBlank_space]
  rw [Text.trimStart] at hstart
  rw [hstart, hend]

theorem length?_of_not_plus {d : Char} (h : d ≠ '+') (ds : List Char) :
    length? (d :: ds) =
      if Text.allDigits (d :: ds) ∧ Text.decimalValue (d :: ds) < 2 ^ 64 then
        some (Text.decimalValue (d :: ds)) else none := by
  simp [length?, h]

/-- A length is read back from its numeral. -/
theorem length?_numeral {n : Nat} (h : n < 2 ^ 64) : length? (numeral n) = some n := by
  have hnumeral := Text.isNumeral_numeral n
  have hvalue := Text.decimalValue_numeral n
  obtain ⟨d, ds, hcons⟩ := List.exists_cons_of_ne_nil hnumeral.nonempty
  have hplus : d ≠ '+' := by
    rintro rfl
    have := List.all_eq_true.mp hnumeral.digits '+' (by simp [hcons])
    cases this
  have hdigits := hnumeral.digits
  rw [hcons] at hvalue hdigits ⊢
  rw [length?_of_not_plus hplus, hvalue, if_pos ⟨hdigits, h⟩]

/-- The header says how long the body is. -/
theorem ofChars_length {n : Nat} (h : n < 2 ^ 64) :
    HeaderLine.ofChars ("Content-Length: ".toList ++ numeral n ++ ['\r', '\n']) =
      .ok (.length n) := by
  have hname : ∀ c ∈ "Content-Length".toList, (decide (c ≠ ':')) = true := by simp
  have hcolon : ∀ c ∈ (':' :: ' ' :: numeral n).head?, decide (c ≠ ':') = false := by simp
  have hline : "Content-Length: ".toList ++ numeral n =
      "Content-Length".toList ++ ':' :: ' ' :: numeral n := rfl
  have hfront := Text.takeWhile_exact hname hcolon
  have hback := Text.dropWhile_exact hname hcolon
  rw [HeaderLine.ofChars, trimEnd_append_numeral _ n _ (by simp), hline]
  simp only [hfront, hback, trim_numeral, length?_numeral h]
  rfl

/-! ## §2 One frame -/

/-- Only a line break is written as the byte of a line break. -/
theorem break_not_mem_encode {cs : List Char} (h : '\n' ∉ cs) : 0x0A ∉ encode cs := by
  intro hmem
  obtain ⟨c, hc, hb⟩ := List.mem_flatMap.mp hmem
  by_cases hascii : c.toNat < 0x80
  · rw [Text.Utf8.encodeChar_ascii hascii, List.mem_singleton] at hb
    have hself := Text.Utf8.toNat_toUInt8 (show c.toNat < 256 by omega)
    rw [← hb] at hself
    have hbreak : c = '\n' := Char.toNat_inj.mp hself.symm
    exact h (hbreak ▸ hc)
  · have hlarge := Text.Utf8.le_of_mem_encodeChar (Nat.not_lt.mp hascii) _ hb
    exact absurd hlarge (by decide)

theorem break_not_mem_numeral (n : Nat) : '\n' ∉ numeral n := by
  intro hmem
  have hdigit := List.all_eq_true.mp (Text.isNumeral_numeral n).digits _ hmem
  cases hdigit

/-- The two lines of a header: the one that says the length, and the blank one. -/
theorem encode_header (n : Nat) :
    encode (header n) = encode ("Content-Length: ".toList ++ numeral n ++ ['\r']) ++
      0x0A :: (encode ['\r'] ++ [0x0A]) := by
  have hlines : header n =
      "Content-Length: ".toList ++ numeral n ++ (['\r'] ++ ['\n', '\r', '\n']) := rfl
  have hend : encode ['\n', '\r', '\n'] = 0x0A :: (encode ['\r'] ++ [0x0A]) := by decide
  rw [hlines]
  generalize "Content-Length: ".toList ++ numeral n = line
  rw [← List.append_assoc, Text.Utf8.encode_append, hend]

/-- What the first line of a frame says. -/
theorem afterLine_length {n : Nat} (h : n < 2 ^ 64) (bytes : List UInt8) :
    afterLine none (encode ("Content-Length: ".toList ++ numeral n ++ ['\r']) ++ [0x0A]) bytes =
      .inr (some n) := by
  have hbreak : [0x0A] = encode ['\n'] := by decide
  have hchars : "Content-Length: ".toList ++ numeral n ++ ['\r'] ++ ['\n'] =
      "Content-Length: ".toList ++ numeral n ++ ['\r', '\n'] := List.append_assoc ..
  rw [afterLine, hbreak, ← Text.Utf8.encode_append, ofBytes_encode, hchars, ofChars_length h]

/-- The blank line leads to the body. -/
theorem afterLine_blank (body rest : List UInt8) :
    afterLine (some body.length) (encode ['\r'] ++ [0x0A]) (body ++ rest) =
      .inl (.ok body, rest) := by
  have hblank : HeaderLine.ofBytes (encode ['\r'] ++ [0x0A]) = .ok .blank := by decide
  have hbody : takeBody body.length (body ++ rest) = (.ok body, rest) := by simp [takeBody]
  rw [afterLine, hblank]
  simp only [hbody]

/-- The reader takes one frame off the front, whatever it holds and whatever follows it. -/
theorem read?_write {body : List UInt8} (hfits : body.length < 2 ^ 64) (rest : List UInt8) :
    read? (write body ++ rest) = some (.ok body, rest) := by
  have hfirst : 0x0A ∉ encode ("Content-Length: ".toList ++ numeral body.length ++ ['\r']) := by
    refine break_not_mem_encode ?_
    have hname : '\n' ∉ "Content-Length: ".toList := by decide
    simp only [List.mem_append, hname, break_not_mem_numeral, false_or]
    decide
  have hsecond : 0x0A ∉ encode ['\r'] := by decide
  have hbytes : write body ++ rest =
      encode ("Content-Length: ".toList ++ numeral body.length ++ ['\r']) ++
        0x0A :: (encode ['\r'] ++ 0x0A :: (body ++ rest)) := by
    rw [write, encode_header]
    simp only [List.append_assoc, List.cons_append, List.nil_append]
  rw [read?, hbytes, readFrom_line none [] _ _ hfirst, List.reverse_nil, List.nil_append,
    afterLine_length hfits, Sum.elim_inr, readFrom_line (some body.length) [] _ _ hsecond,
    List.reverse_nil, List.nil_append, afterLine_blank, Sum.elim_inl]

/-! ## §3 Successive readings -/

/-- What a body is read as. -/
def decoded (body : List UInt8) : Except Fault Message :=
  match Message.ofBytes? body with
  | some m => .ok m
  | none => .error .badBody

/-- A framed body is read as what it is, and nothing behind it is touched. -/
theorem readMessage?_write {body : List UInt8} (hfits : body.length < 2 ^ 64)
    (rest : List UInt8) : readMessage? (write body ++ rest) = some (decoded body, rest) := by
  rw [readMessage?, read?_write hfits]
  rfl

/-- What is read from a stream, one message or fault after the other until there is nothing left
to read, each with the bytes that are left behind it. -/
def readings (bytes : List UInt8) : List (Except Fault Message × List UInt8) :=
  match _h : readMessage? bytes with
  | none => []
  | some (outcome, rest) => (outcome, rest) :: readings rest
termination_by bytes.length
decreasing_by exact length_lt_of_readMessage? _h

/-- The readings of a stream, first one first. -/
theorem readings_cons {bytes rest : List UInt8} {outcome : Except Fault Message}
    (h : readMessage? bytes = some (outcome, rest)) :
    readings bytes = (outcome, rest) :: readings rest := by
  rw [readings]
  split <;> simp_all

@[simp] theorem readings_nil : readings [] = [] := by
  rw [readings]
  rfl

def stream (bodies : List (List UInt8)) : List UInt8 := bodies.flatMap write

@[simp] theorem stream_nil : stream [] = [] := rfl

@[simp] theorem stream_cons (b : List UInt8) (bodies : List (List UInt8)) :
    stream (b :: bodies) = write b ++ stream bodies := rfl

/-- In front of each frame the reader finds its body, and behind the last one it finds nothing. -/
theorem read?_stream {bodies : List (List UInt8)} (hfits : ∀ b ∈ bodies, b.length < 2 ^ 64)
    (i : Nat) : read? (stream (bodies.drop i)) =
      (bodies[i]?).map fun b => (.ok b, stream (bodies.drop (i + 1))) := by
  cases hbody : bodies[i]? with
  | none =>
    rw [List.drop_eq_nil_of_le (List.getElem?_eq_none_iff.mp hbody)]
    rfl
  | some b =>
    obtain ⟨hi, rfl⟩ := List.getElem?_eq_some_iff.mp hbody
    rw [List.drop_eq_getElem_cons hi, stream_cons, read?_write (hfits _ (List.getElem_mem hi)),
      Option.map_some]

/-- Each reading takes one body, and leaves the frames behind it. -/
theorem readings_stream {bodies : List (List UInt8)} (hfits : ∀ b ∈ bodies, b.length < 2 ^ 64)
    (i : Nat) : (readings (stream bodies))[i]? =
      (bodies[i]?).map fun b => (decoded b, stream (bodies.drop (i + 1))) := by
  induction bodies generalizing i with
  | nil => simp
  | cons b bodies ih =>
    have hfirst := readMessage?_write (hfits b List.mem_cons_self) (stream bodies)
    have hrest := ih fun x hx => hfits x (List.mem_cons_of_mem b hx)
    rw [stream_cons, readings_cons hfirst]
    cases i with
    | zero => simp
    | succ i => simp [hrest]

end Frame

/-! ## §4 A conversation of framed messages -/

def Session.handleEach (s : Session) : List Message → Session × List Outgoing
  | [] => (s, [])
  | m :: ms =>
    let (s, out, _) := s.handle m
    let (s, more) := s.handleEach ms
    (s, out ++ more)

/-- The messages before the one that ends the conversation. -/
def untilExit (ms : List Message) : List Message := ms.takeWhile fun m => !Event.isExit (.message m)

theorem Session.handle_of_isExit (s : Session) {m : Message}
    (h : Event.isExit (.message m) = true) : s.handle m = (s, [], .exit) := by
  obtain ⟨id, method, params⟩ := m
  simp only [Event.isExit, Bool.and_eq_true, Option.isNone_iff_eq_none, beq_iff_eq] at h
  obtain ⟨rfl, rfl⟩ := h
  rfl

namespace Server

/-- What cannot be read is passed over. -/
theorem handleAll_error {s : Session} {bytes rest : List UInt8} {fault : Frame.Fault}
    (h : Frame.readMessage? bytes = some (.error fault, rest)) :
    handleAll s bytes = handleAll s rest := by
  rw [handleAll]
  split <;> simp_all

/-- A message is handled, and the others after it unless it ends the
conversation. -/
theorem handleAll_ok {s : Session} {bytes rest : List UInt8} {m : Message}
    (h : Frame.readMessage? bytes = some (.ok m, rest)) :
    handleAll s bytes =
      if Event.isExit (.message m) then (s, [])
      else ((handleAll (s.handle m).1 rest).1,
        (s.handle m).2.1 ++ (handleAll (s.handle m).1 rest).2) := by
  rw [handleAll]
  split
  · simp_all
  · simp_all
  · next m' rest' h' =>
    rw [h] at h'
    cases h'
    have hflow := flow_handle s m
    cases hexit : Event.isExit (.message m) with
    | true => simp [s.handle_of_isExit hexit]
    | false =>
      rw [hexit, if_neg Bool.false_ne_true] at hflow
      split
      · next hhandle =>
        rw [hhandle] at hflow
        cases hflow
      · next hhandle => simp [hhandle]

/-- The messages that are handled are those of the bodies that are messages. -/
theorem handleAll_stream (s : Session) {bodies : List (List UInt8)}
    (hfits : ∀ b ∈ bodies, b.length < 2 ^ 64) :
    handleAll s (Frame.stream bodies) =
      s.handleEach (untilExit (bodies.filterMap Message.ofBytes?)) := by
  induction bodies generalizing s with
  | nil =>
    rw [handleAll]
    rfl
  | cons b bodies ih =>
    have hfirst := Frame.readMessage?_write (hfits b List.mem_cons_self) (Frame.stream bodies)
    have hrest := fun s => ih s fun x hx => hfits x (List.mem_cons_of_mem b hx)
    rw [Frame.stream_cons]
    cases hbody : Message.ofBytes? b with
    | none =>
      simp only [Frame.decoded, hbody] at hfirst
      rw [handleAll_error hfirst, hrest, List.filterMap_cons_none hbody]
    | some m =>
      simp only [Frame.decoded, hbody] at hfirst
      rw [handleAll_ok hfirst, List.filterMap_cons_some hbody, untilExit, List.takeWhile_cons]
      cases hexit : Event.isExit (.message m) with
      | true => rfl
      | false =>
        simp only [hrest]
        rfl

end Server

namespace Frame

open Text.Utf8 (encode)

/-! ## §5 Values in frames -/

/-- It makes no difference whether a frame is put together as bytes or as text. -/
theorem ofJsonText_eq (j : Json) : ofJsonText j = ofJson j := by
  rw [ofJsonText, ofJson, write, bodyOf, Text.Utf8.encode_append, Text.Utf8.length_encode]

theorem stream_map_bodyOf (js : List Json) : stream (js.map bodyOf) = js.flatMap ofJson := by
  rw [stream, List.flatMap_map]
  rfl

/-- The printed form of a value is read as the message that the value is. -/
def IsReadBack (j : Json) : Prop := Message.ofBytes? (bodyOf j) = Message.ofJson? j

/-- Messages that are printed in a form that is read back are read back from their frames. -/
theorem outcomes_stream {js : List Json} {ms : List Message}
    (hfits : ∀ j ∈ js, (bodyOf j).length < 2 ^ 64) (hprinted : ∀ j ∈ js, IsReadBack j)
    (hmessages : js.mapM Message.ofJson? = some ms) :
    (readings (stream (js.map bodyOf))).map Prod.fst = ms.map .ok := by
  induction js generalizing ms with
  | nil =>
    cases hmessages
    simp
  | cons j js ih =>
    simp only [List.mapM_cons, bind, Option.bind_eq_some_iff] at hmessages
    obtain ⟨m, hj, ms', hmore, hms⟩ := hmessages
    cases hms
    have hbody : decoded (bodyOf j) = .ok m := by
      rw [decoded, hprinted j List.mem_cons_self, hj]
    have hfirst := readMessage?_write (hfits j List.mem_cons_self) (stream (js.map bodyOf))
    have hrest := ih (fun k hk => hfits k (List.mem_cons_of_mem j hk))
      (fun k hk => hprinted k (List.mem_cons_of_mem j hk)) hmore
    rw [List.map_cons, stream_cons, readings_cons hfirst, List.map_cons, hrest, hbody,
      List.map_cons]

/-! ## §6 The main statement -/

/-- From a stream of frames one body after the other is taken and read, and then there is nothing
left. So the messages that are handled are those of the bodies that are messages, in their order
and up to the one that ends the conversation. Values that are printed in a form that is read back
come out of their frames as the messages that went in. -/
theorem frames_transparent (bodies : List (List UInt8))
    (hfits : ∀ b ∈ bodies, b.length < 2 ^ 64) :
    (∀ i, read? (stream (bodies.drop i)) =
      (bodies[i]?).map fun b => (.ok b, stream (bodies.drop (i + 1)))) ∧
    (∀ i, (readings (stream bodies))[i]? =
      (bodies[i]?).map fun b => (decoded b, stream (bodies.drop (i + 1)))) ∧
    (∀ s : Session, Server.handleAll s (stream bodies) =
      s.handleEach (untilExit (bodies.filterMap Message.ofBytes?))) ∧
    ∀ js : List Json, bodies = js.map bodyOf →
      stream bodies = js.flatMap ofJson ∧ stream bodies = js.flatMap ofJsonText ∧
      ∀ ms, (∀ j ∈ js, IsReadBack j) → js.mapM Message.ofJson? = some ms →
        (readings (stream bodies)).map Prod.fst = ms.map .ok := by
  refine ⟨read?_stream hfits, readings_stream hfits, fun s => Server.handleAll_stream s hfits, ?_⟩
  rintro js rfl
  have hbytes := stream_map_bodyOf js
  have htext : js.flatMap ofJsonText = js.flatMap ofJson := by
    rw [funext ofJsonText_eq]
  refine ⟨hbytes, hbytes.trans htext.symm, fun ms hprinted hmessages => ?_⟩
  refine outcomes_stream (fun j hj => hfits _ ?_) hprinted hmessages
  exact List.mem_map_of_mem hj

/-- Two messages, of which the second ends the conversation. -/
def sampleMessages : List Json :=
  [.obj [("id", .int 7), ("method", .str "shut\r\n\r\ndown")], .obj [("method", .str "exit")]]

/-- Three bodies that are no messages stand before the messages. -/
theorem frames_transparent_spoiltBodies :
    let spoilt := [encode "Content-Length: 3\r\n\r\n\x7b\x7d".toList, [], encode "\x7boops".toList]
    let shutdown : Message := { id := some (.int 7), method := "shut\r\n\r\ndown" }
    (∀ s : Session, Server.handleAll s (stream (spoilt ++ sampleMessages.map bodyOf)) =
      s.handleEach [shutdown]) ∧
    (readings (stream (sampleMessages.map bodyOf))).map Prod.fst =
      [.ok shutdown, .ok { method := "exit" }] := by
  intro spoilt shutdown
  have hfits : ∀ b ∈ spoilt ++ sampleMessages.map bodyOf, b.length < 2 ^ 64 := by decide +kernel
  have hprinted : ∀ b ∈ sampleMessages.map bodyOf, b.length < 2 ^ 64 := by decide +kernel
  have hmessages : (spoilt ++ sampleMessages.map bodyOf).filterMap Message.ofBytes? =
    [shutdown, { method := "exit" }] := rfl
  obtain ⟨_, _, hhandled, _⟩ := frames_transparent _ hfits
  obtain ⟨_, _, _, hvalues⟩ := frames_transparent _ hprinted
  obtain ⟨_, _, hback⟩ := hvalues sampleMessages rfl
  refine ⟨fun s => ?_, ?_⟩
  · rw [hhandled, hmessages]
    rfl
  · refine hback [shutdown, { method := "exit" }] ?_ rfl
    intro j hj
    simp only [sampleMessages, List.mem_cons, List.not_mem_nil, or_false] at hj
    obtain rfl | rfl := hj <;> rfl

end Frame

end Daybook.Editor
