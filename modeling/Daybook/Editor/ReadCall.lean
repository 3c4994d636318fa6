/-
Daybook.Editor.ReadCall — one call for a message, line by line.

`Editor.Frame` says what a frame is read as. The call that reads it is a loop
over header lines, with a body behind it. The loop goes round for every line,
skips those that are blank too early or say nothing of the length, and breaks
off at the first blank line once it knows the length; only the stream bounds
it. Behind it the length is asked for once more, in case there is none.

§1 loops, §2 lines, §3 headers, §4 calls.
-/
import Daybook.Editor.Frame

namespace Daybook.Editor

/-! ## §1 Loops -/

/-- Goes round until the body of a loop breaks off with a result; there is none if it does not
within so many rounds. -/
def loop {σ ρ : Type} (body : σ → ρ ⊕ σ) : Nat → σ → Option ρ
  | 0, _ => none
  | rounds + 1, state =>
    match body state with
    | .inl result => some result
    | .inr state => loop body rounds state

namespace Frame

/-! ## §2 Lines -/

/-- Takes a line off the front, with its line break if it has one, and nothing at the end. -/
def takeLine : List UInt8 → List UInt8 × List UInt8
  | [] => ([], [])
  | b :: bytes =>
    if b = 0x0A then ([b], bytes)
    else
      let (line, rest) := takeLine bytes
      (b :: line, rest)

/-- The line `line` stands in front of `rest`. -/
structure Takes (line rest : List UInt8) : Prop where
  nonempty : line ≠ []
  eq : takeLine (line ++ rest) = (line, rest)

/-- A line and what is left behind it are the bytes. -/
theorem takeLine_append (bytes : List UInt8) :
    (takeLine bytes).1 ++ (takeLine bytes).2 = bytes := by
  induction bytes with
  | nil => rfl
  | cons b bytes ih =>
    rw [takeLine]
    split
    · rfl
    · exact congrArg (b :: ·) ih

/-- There is a line wherever there is a byte. -/
theorem exists_takes {bytes : List UInt8} (h : bytes ≠ []) :
    ∃ line rest, Takes line rest ∧ bytes = line ++ rest := by
  have hne : (takeLine bytes).1 ≠ [] := by
    obtain ⟨b, bytes, rfl⟩ := List.exists_cons_of_ne_nil h
    rw [takeLine]
    split <;> simp
  have hall := takeLine_append bytes
  exact ⟨_, _, ⟨hne, by rw [hall]⟩, hall.symm⟩

theorem Takes.length_lt {line rest : List UInt8} (h : Takes line rest) :
    rest.length < (line ++ rest).length := by
  have := List.length_pos_iff.mpr h.nonempty
  rw [List.length_append]
  omega

/-! ## §3 Headers -/

/-- How the lines of a header come to an end. -/
inductive HeaderEnd where
  /-- The stream ends. -/
  | cutOff
  /-- A line is at fault. -/
  | spoilt (fault : Fault)
  /-- The loop over the lines is left, with the length as far as it is known. -/
  | left (length : Option Nat)
deriving DecidableEq, Repr

/-- Where the loop goes behind a line, by what the line says and by the last length before it. -/
def behindLine (length : Option Nat) (rest : List UInt8) :
    Except Fault HeaderLine → (HeaderEnd × List UInt8) ⊕ (Option Nat × List UInt8)
  | .error fault => .inl (.spoilt fault, rest)
  | .ok .blank => if length.isSome then .inl (.left length, rest) else .inr (length, rest)
  | .ok (.length n) => .inr (some n, rest)
  | .ok .other => .inr (length, rest)

/-- One round of the loop over the lines of a header. -/
def headerRound : Option Nat × List UInt8 →
    (HeaderEnd × List UInt8) ⊕ (Option Nat × List UInt8)
  | (length, bytes) =>
    match takeLine bytes with
    | ([], rest) => .inl (.cutOff, rest)
    | (line, rest) => behindLine length rest (HeaderLine.ofBytes line)

theorem Takes.headerRound {line rest : List UInt8} (h : Takes line rest) (length : Option Nat) :
    headerRound (length, line ++ rest) = behindLine length rest (HeaderLine.ofBytes line) := by
  rw [Frame.headerRound, h.eq]
  split
  · next heq =>
    cases heq
    exact absurd rfl h.nonempty
  · next heq =>
    cases heq
    rfl

/-- What a round can come to. It finds the end of the stream, or it takes a line and goes by what
that line says. -/
inductive Rounds : Option Nat → List UInt8 →
    (HeaderEnd × List UInt8) ⊕ (Option Nat × List UInt8) → Prop
  | cutOff {length : Option Nat} : Rounds length [] (.inl (.cutOff, []))
  | spoilt {length : Option Nat} {line rest : List UInt8} {fault : Fault}
    (taken : Takes line rest) (hline : HeaderLine.ofBytes line = .error fault) :
    Rounds length (line ++ rest) (.inl (.spoilt fault, rest))
  | left {n : Nat} {line rest : List UInt8} (taken : Takes line rest)
    (hline : HeaderLine.ofBytes line = .ok .blank) :
    Rounds (some n) (line ++ rest) (.inl (.left (some n), rest))
  | early {line rest : List UInt8} (taken : Takes line rest)
    (hline : HeaderLine.ofBytes line = .ok .blank) :
    Rounds none (line ++ rest) (.inr (none, rest))
  | length {length : Option Nat} {n : Nat} {line rest : List UInt8} (taken : Takes line rest)
    (hline : HeaderLine.ofBytes line = .ok (.length n)) :
    Rounds length (line ++ rest) (.inr (some n, rest))
  | other {length : Option Nat} {line rest : List UInt8} (taken : Takes line rest)
    (hline : HeaderLine.ofBytes line = .ok .other) :
    Rounds length (line ++ rest) (.inr (length, rest))

/-- One round of the loop over a header does one of the things that `Rounds`
lists. -/
theorem headerRound_spec (length : Option Nat) (bytes : List UInt8) :
    Rounds length bytes (headerRound (length, bytes)) := by
  by_cases hbytes : bytes = []
  · subst hbytes
    exact .cutOff
  · obtain ⟨line, rest, taken, rfl⟩ := exists_takes hbytes
    rw [taken.headerRound]
    match hline : HeaderLine.ofBytes line with
    | .error fault => exact .spoilt taken hline
    | .ok .blank =>
      cases length with
      | none => exact .early taken hline
      | some n => exact .left taken hline
    | .ok (.length n) => exact .length taken hline
    | .ok .other => exact .other taken hline

/-- The loop goes round again only if it has taken a line. -/
theorem length_lt_of_headerRound {length length' : Option Nat} {bytes rest : List UInt8}
    (h : headerRound (length, bytes) = .inr (length', rest)) : rest.length < bytes.length := by
  have spec := headerRound_spec length bytes
  rw [h] at spec
  cases spec with
  | early taken => exact taken.length_lt
  | length taken => exact taken.length_lt
  | other taken => exact taken.length_lt

def takeHeader (length : Option Nat) (bytes : List UInt8) : HeaderEnd × List UInt8 :=
  match _h : headerRound (length, bytes) with
  | .inl result => result
  | .inr (length, rest) => takeHeader length rest
termination_by bytes.length
decreasing_by exact length_lt_of_headerRound _h

/-! ## §4 Calls -/

/-- Why a call fails. -/
inductive Failure where
  | fault (fault : Fault)
  /-- The header was left without a length. -/
  | noLength
deriving DecidableEq, Repr

def Failure.message : Failure → String
  | fault f => f.message
  | noLength => "message without Content-Length"

/-- What comes of a call. -/
inductive Outcome where
  | message (message : Message)
  | failed (failure : Failure)
  /-- The stream has ended. -/
  | closed

/-- Goes on behind a header. -/
def afterHeader : HeaderEnd → List UInt8 → Outcome × List UInt8
  | .cutOff, bytes => (.closed, bytes)
  | .spoilt fault, bytes => (.failed (.fault fault), bytes)
  | .left none, bytes => (.failed .noLength, bytes)
  | .left (some n), bytes =>
    match takeBody n bytes with
    | (.error fault, rest) => (.failed (.fault fault), rest)
    | (.ok body, rest) =>
      match Message.ofBytes? body with
      | some message => (.message message, rest)
      | none => (.failed (.fault .badBody), rest)

/-- Calls for a message: what comes of it, and the bytes that are left unread. -/
def call (bytes : List UInt8) : Outcome × List UInt8 :=
  let (header, rest) := takeHeader none bytes
  afterHeader header rest

end Frame

end Daybook.Editor
