/-
Daybook.Proofs.ReadCalls — what a call for a message takes.

The loop over the lines of a header skips what it does not know, so it could go
round forever; it does not, since each round takes a line (§1). A call is
exactly one reading of `Frame.readMessage?`, so it never finds itself without a
length (§2). Where it succeeds it has taken a header and the body that this
header announces; where it fails it has taken at least one byte (§3). All this
holds for every stream, however malformed.
-/
import Daybook.Editor.ReadCall
import Daybook.Proofs.Framing

namespace Daybook.Editor

/-! ## §1 Loops and headers -/

section Loop

variable {σ ρ : Type} {body : σ → ρ ⊕ σ} {state next : σ} {result : ρ}

theorem loop_of_inl (h : body state = .inl result) (n more : Nat) :
    loop body (n + 1 + more) state = some result := by
  rw [Nat.add_right_comm, loop, h]

/-- A loop that goes round with less than it had ends, if it ends from there. -/
theorem loop_of_inr {m n : Nat} (h : body state = .inr next) (hless : m < n)
    (hrest : ∀ more, loop body (m + 1 + more) next = some result) (more : Nat) :
    loop body (n + 1 + more) state = some result := by
  obtain ⟨spare, hspare⟩ := Nat.exists_eq_add_of_lt hless
  have hrounds : n + 1 + more = m + 1 + (spare + more) + 1 := by omega
  rw [hrounds, loop, h]
  exact hrest _

end Loop

namespace Frame

/-- A header is taken round by round. -/
theorem takeHeader_eq (known : Option Nat) (bytes : List UInt8) :
    takeHeader known bytes = (headerRound (known, bytes)).elim id
      fun state => takeHeader state.1 state.2 := by
  rw [takeHeader]
  split
  · next h => rw [h]; rfl
  · next h => rw [h]; rfl

/-- **The loop over the lines of a header ends**, with the same result however many rounds it is
given beyond the number of bytes. -/
theorem loop_headerRound (known : Option Nat) (bytes : List UInt8) (more : Nat) :
    loop headerRound (bytes.length + 1 + more) (known, bytes) = some (takeHeader known bytes) := by
  fun_induction takeHeader known bytes generalizing more with
  | case1 known bytes r h => exact loop_of_inl h _ more
  | case2 known bytes known' rest h ih => exact loop_of_inr h (length_lt_of_headerRound h) ih more

/-- A header is taken off the front of the bytes. -/
theorem takeHeader_suffix (known : Option Nat) (bytes : List UInt8) :
    (takeHeader known bytes).2 <:+ bytes := by
  fun_induction takeHeader known bytes with
  | case1 known bytes r h =>
    have spec := headerRound_spec known bytes
    rw [h] at spec
    cases spec with
    | cutOff => exact List.suffix_refl _
    | spoilt => exact List.suffix_append _ _
    | left => exact List.suffix_append _ _
  | case2 known bytes known' rest h ih =>
    have spec := headerRound_spec known bytes
    rw [h] at spec
    refine ih.trans ?_
    cases spec <;> exact List.suffix_append _ _

/-- The loop is never left without a length, and the stream ends only where nothing is left. -/
theorem fst_takeHeader (known : Option Nat) (bytes : List UInt8) :
    (takeHeader known bytes).1 ≠ .left none ∧
      ((takeHeader known bytes).1 = .cutOff → (takeHeader known bytes).2 = []) := by
  fun_induction takeHeader known bytes with
  | case1 known bytes r h =>
    have spec := headerRound_spec known bytes
    rw [h] at spec
    cases spec <;> simp
  | case2 known bytes known' rest h ih => exact ih

/-! ## §2 Calls are readings -/

/-- The last line of a stream, where it has no line break, leads to a frame or to nothing. -/
theorem readFrom_lastLine (length : Option Nat) (line : List UInt8) {xs : List UInt8}
    (h : 0x0A ∉ xs) (hne : line.reverse ++ xs ≠ []) :
    readFrom length line xs =
      (afterLine length (line.reverse ++ xs) []).elim some fun _ => none := by
  induction xs generalizing line with
  | nil =>
    have hline : line ≠ [] := by simpa using hne
    rw [readFrom, if_neg hline, List.append_nil]
    cases afterLine length line.reverse [] <;> rfl
  | cons x xs ih =>
    have hx : x ≠ 0x0A := fun heq => h (by simp [heq])
    have hrest := ih (x :: line) fun hmem => h (List.mem_cons_of_mem x hmem)
    rw [List.reverse_cons, List.append_assoc, List.singleton_append] at hrest
    rw [readFrom, if_neg hx, hrest hne]

theorem takeLine_of_notMem {bytes : List UInt8} (h : 0x0A ∉ bytes) :
    takeLine bytes = (bytes, []) := by
  induction bytes with
  | nil => rfl
  | cons b bytes ih =>
    have hb : b ≠ 0x0A := fun heq => h (by simp [heq])
    rw [takeLine, if_neg hb, ih fun hmem => h (List.mem_cons_of_mem b hmem)]

/-- A line that has its line break. -/
def IsLine (line : List UInt8) : Prop := ∃ xs, 0x0A ∉ xs ∧ line = xs ++ [0x0A]

theorem IsLine.takes {line : List UInt8} (h : IsLine line) (rest : List UInt8) :
    Takes line rest := by
  obtain ⟨xs, hxs, rfl⟩ := h
  refine ⟨by simp, ?_⟩
  induction xs with
  | nil => rfl
  | cons x xs ih =>
    have hx : x ≠ 0x0A := fun heq => hxs (by simp [heq])
    have hmore := ih fun hmem => hxs (List.mem_cons_of_mem x hmem)
    rw [List.cons_append, List.cons_append, takeLine, if_neg hx, hmore]

/-- A line without its line break is the last one. -/
theorem Takes.cases {line rest : List UInt8} (h : Takes line rest) :
    IsLine line ∨ 0x0A ∉ line ∧ rest = [] := by
  by_cases hmem : 0x0A ∈ line ++ rest
  · obtain ⟨xs, behind, hbytes, hxs⟩ := List.eq_append_cons_of_mem hmem
    have hline : IsLine (xs ++ [0x0A]) := ⟨xs, hxs, rfl⟩
    have htaken := h.eq
    rw [hbytes, ← List.singleton_append, ← List.append_assoc, (hline.takes behind).eq] at htaken
    cases htaken
    exact .inl hline
  · have htaken := h.eq
    rw [takeLine_of_notMem hmem] at htaken
    exact .inr ⟨fun hline => hmem (List.mem_append_left _ hline), (congrArg Prod.snd htaken).symm⟩

def HeaderEnd.reading? : HeaderEnd → List UInt8 → Option Reading
  | .spoilt fault, rest => some (.error fault, rest)
  | .left (some n), rest => some (takeBody n rest)
  | _, _ => none

/-- Reading a header goes by its first line, as a round of the loop does. -/
theorem readFrom_round (known : Option Nat) (bytes : List UInt8) :
    readFrom known [] bytes = (headerRound (known, bytes)).elim (fun r => r.1.reading? r.2)
      fun state => readFrom state.1 [] state.2 := by
  by_cases hbytes : bytes = []
  · subst hbytes
    rfl
  · obtain ⟨line, rest, taken, rfl⟩ := exists_takes hbytes
    have hfirst : readFrom known [] (line ++ rest) =
        (afterLine known line rest).elim some fun known => readFrom known [] rest := by
      rcases taken.cases with ⟨xs, hxs, rfl⟩ | ⟨hnone, rfl⟩
      · rw [List.append_assoc, List.singleton_append, readFrom_line known [] xs rest hxs]
        rfl
      · rw [List.append_nil, readFrom_lastLine known [] hnone (by simpa using taken.nonempty)]
        rfl
    rw [hfirst, taken.headerRound, afterLine.eq_def]
    match HeaderLine.ofBytes line with
    | .error _ => rfl
    | .ok .blank => cases known <;> rfl
    | .ok (.length _) => rfl
    | .ok .other => rfl

/-- The loop over lines reads a frame as it is read in one go. -/
theorem readFrom_eq (known : Option Nat) (bytes : List UInt8) :
    readFrom known [] bytes = (takeHeader known bytes).1.reading? (takeHeader known bytes).2 := by
  fun_induction takeHeader known bytes with
  | case1 known bytes r h =>
    rw [readFrom_round, h]
    rfl
  | case2 known bytes known' rest h ih =>
    rw [readFrom_round, h]
    exact ih

/-- What comes of a call, given the reading; nothing is left where there is none. -/
def Outcome.ofReading : Option (Except Fault Message × List UInt8) → Outcome × List UInt8
  | none => (.closed, [])
  | some (.error fault, rest) => (.failed (.fault fault), rest)
  | some (.ok m, rest) => (.message m, rest)

/-- **A call is a reading.** -/
theorem call_eq (bytes : List UInt8) : call bytes = Outcome.ofReading (readMessage? bytes) := by
  rw [call, readMessage?, read?, readFrom_eq]
  obtain ⟨hleft, hend⟩ := fst_takeHeader none bytes
  generalize takeHeader none bytes = header at hleft hend
  obtain ⟨e, rest⟩ := header
  cases e with
  | cutOff =>
    obtain rfl : rest = [] := hend rfl
    rfl
  | spoilt fault => rfl
  | left length =>
    cases length with
    | none => exact absurd rfl hleft
    | some n =>
      simp only [afterHeader, HeaderEnd.reading?, Option.map_some]
      obtain ⟨outcome, rest⟩ := takeBody n rest
      cases outcome with
      | error fault => rfl
      | ok body =>
        simp only [Except.bind]
        cases Message.ofBytes? body <;> rfl

/-- No call comes to the failure of a header without a length: the loop over the
lines has seen to that before. -/
theorem call_ne_noLength (bytes : List UInt8) : (call bytes).1 ≠ .failed .noLength := by
  rw [call_eq]
  match readMessage? bytes with
  | none => simp [Outcome.ofReading]
  | some (.error _, _) => simp [Outcome.ofReading]
  | some (.ok _, _) => simp [Outcome.ofReading]

/-- A line that is no text is skipped, and what stands behind it is the next to be read. -/
example : call [0xFF, 0x0A, 0x41] =
    (.failed (.fault (.badText { offset := 0, length := some 1 })), [0x41]) := by
  rw [call_eq]
  rfl

/-! ## §3 What a call takes -/

/-- With `known` as the last length so far, what is left of a header announces a body of `n` bytes:
that is the last length it gives, and it ends at the first blank line behind a length. -/
inductive Announces : Option Nat → List UInt8 → Nat → Prop
  | blank {n : Nat} {line : List UInt8} (isLine : IsLine line)
    (hline : HeaderLine.ofBytes line = .ok .blank) : Announces (some n) line n
  | early {n : Nat} {line more : List UInt8} (isLine : IsLine line)
    (hline : HeaderLine.ofBytes line = .ok .blank) (h : Announces none more n) :
    Announces none (line ++ more) n
  | length {known : Option Nat} {k n : Nat} {line more : List UInt8} (isLine : IsLine line)
    (hline : HeaderLine.ofBytes line = .ok (.length k)) (h : Announces (some k) more n) :
    Announces known (line ++ more) n
  | other {known : Option Nat} {n : Nat} {line more : List UInt8} (isLine : IsLine line)
    (hline : HeaderLine.ofBytes line = .ok .other) (h : Announces known more n) :
    Announces known (line ++ more) n

/-- A header that is taken announces the length that it is left with, unless nothing follows. -/
theorem exists_announces {known : Option Nat} {bytes rest : List UInt8} {n : Nat}
    (h : takeHeader known bytes = (.left (some n), rest)) (hrest : rest ≠ []) :
    ∃ header, Announces known header n ∧ bytes = header ++ rest := by
  -- only the last line of a stream may have no line break, and something stands behind these
  have isLine {line more : List UInt8} (taken : Takes line more) (hmore : rest <:+ more) :
      IsLine line :=
    taken.cases.resolve_right fun hlast => hrest (List.suffix_nil.mp (hlast.2 ▸ hmore))
  fun_induction takeHeader known bytes with
  | case1 known bytes r hround =>
    subst h
    have spec := headerRound_spec known bytes
    rw [hround] at spec
    cases spec with
    | left taken hline => exact ⟨_, .blank (isLine taken (List.suffix_refl _)) hline, rfl⟩
  | case2 known bytes known' more hround ih =>
    obtain ⟨header, hheader, hbytes⟩ := ih h
    have hmore : rest <:+ more := hbytes ▸ List.suffix_append _ _
    have spec := headerRound_spec known bytes
    rw [hround] at spec
    subst hbytes
    cases spec with
    | early taken hline =>
      exact ⟨_, .early (isLine taken hmore) hline hheader, (List.append_assoc _ _ _).symm⟩
    | length taken hline =>
      exact ⟨_, .length (isLine taken hmore) hline hheader, (List.append_assoc _ _ _).symm⟩
    | other taken hline =>
      exact ⟨_, .other (isLine taken hmore) hline hheader, (List.append_assoc _ _ _).symm⟩

/-- A header goes by its first line, whatever follows that. -/
theorem IsLine.takeHeader {line : List UInt8} (h : IsLine line) (known : Option Nat)
    (more : List UInt8) :
    takeHeader known (line ++ more) = (behindLine known more (HeaderLine.ofBytes line)).elim id
      fun state => Frame.takeHeader state.1 state.2 := by
  rw [takeHeader_eq, (h.takes more).headerRound]

/-- A header is taken as a whole, whatever follows it. -/
theorem Announces.takeHeader {known : Option Nat} {header : List UInt8} {n : Nat}
    (h : Announces known header n) (rest : List UInt8) :
    takeHeader known (header ++ rest) = (.left (some n), rest) := by
  induction h with
  | blank isLine hline =>
    rw [isLine.takeHeader, hline]
    rfl
  | early isLine hline h ih =>
    rw [List.append_assoc, isLine.takeHeader, hline]
    exact ih
  | length isLine hline h ih =>
    rw [List.append_assoc, isLine.takeHeader, hline]
    exact ih
  | other isLine hline h ih =>
    rw [List.append_assoc, isLine.takeHeader, hline]
    exact ih

/-- Behind a header a message is read from as many bytes as its length says. -/
theorem afterHeader_eq_message_iff {e : HeaderEnd} {bytes rest : List UInt8} {m : Message} :
    afterHeader e bytes = (.message m, rest) ↔
      ∃ body, e = .left (some body.length) ∧ Message.ofBytes? body = some m ∧
        bytes = body ++ rest := by
  constructor
  · intro h
    match e, h with
    | .left (some n), h =>
      simp only [afterHeader, takeBody] at h
      by_cases hshort : bytes.length < n
      · rw [if_pos hshort] at h
        cases h
      · rw [if_neg hshort] at h
        have hlength : (bytes.take n).length = n := by simpa using Nat.not_lt.mp hshort
        cases hbody : Message.ofBytes? (bytes.take n) with
        | none => simp [hbody] at h
        | some m' =>
          simp only [hbody, Prod.mk.injEq, Outcome.message.injEq] at h
          obtain ⟨rfl, rfl⟩ := h
          exact ⟨bytes.take n, by rw [hlength], hbody, (List.take_append_drop n bytes).symm⟩
  · rintro ⟨body, rfl, hbody, rfl⟩
    have hall : takeBody body.length (body ++ rest) = (.ok body, rest) := by simp [takeBody]
    simp only [afterHeader, hall, hbody]

/-- **A call succeeds on a header, the body that it announces, and nothing else.** -/
theorem call_eq_message_iff {bytes rest : List UInt8} {m : Message} :
    call bytes = (.message m, rest) ↔
      ∃ header body, Announces none header body.length ∧ Message.ofBytes? body = some m ∧
        bytes = header ++ (body ++ rest) := by
  constructor
  · intro h
    obtain ⟨body, hleft, hbody, hbehind⟩ := afterHeader_eq_message_iff.mp h
    -- nothing at all is no message, so the header is not the end of the stream
    have hne : (takeHeader none bytes).2 ≠ [] := by
      intro hnil
      rw [hnil] at hbehind
      rw [(List.append_eq_nil_iff.mp hbehind.symm).1] at hbody
      cases hbody
    obtain ⟨header, hannounces, hbytes⟩ := exists_announces (Prod.ext hleft rfl) hne
    exact ⟨header, body, hannounces, hbody, hbytes.trans (congrArg (header ++ ·) hbehind)⟩
  · rintro ⟨header, body, hannounces, hbody, rfl⟩
    rw [call, hannounces.takeHeader]
    exact afterHeader_eq_message_iff.mpr ⟨body, rfl, hbody, rfl⟩

theorem takeBody_suffix (n : Nat) (bytes : List UInt8) : (takeBody n bytes).2 <:+ bytes := by
  unfold takeBody
  split
  · exact List.nil_suffix
  · exact List.drop_suffix n bytes

theorem afterHeader_suffix (e : HeaderEnd) (bytes : List UInt8) :
    (afterHeader e bytes).2 <:+ bytes := by
  match e with
  | .cutOff => exact List.suffix_refl _
  | .spoilt _ => exact List.suffix_refl _
  | .left none => exact List.suffix_refl _
  | .left (some n) =>
    have hbody := takeBody_suffix n bytes
    rw [afterHeader]
    split
    · next heq => rwa [heq] at hbody
    · next heq =>
      rw [heq] at hbody
      split <;> exact hbody

/-- A call takes at least one byte off the front, or there is nothing left. -/
theorem call_progress (bytes : List UInt8) :
    call bytes = (.closed, []) ∨ ∃ taken, taken ≠ [] ∧ bytes = taken ++ (call bytes).2 := by
  have hsuffix : (call bytes).2 <:+ bytes :=
    (afterHeader_suffix _ _).trans (takeHeader_suffix none bytes)
  obtain ⟨taken, htaken⟩ := hsuffix
  cases hreading : readMessage? bytes with
  | none =>
    rw [call_eq, hreading]
    exact .inl rfl
  | some reading =>
    obtain ⟨outcome, rest⟩ := reading
    have hunread : (call bytes).2 = rest := by
      rw [call_eq, hreading]
      cases outcome <;> rfl
    have hless := length_lt_of_readMessage? hreading
    refine .inr ⟨taken, ?_, htaken.symm⟩
    rintro rfl
    rw [hunread, List.nil_append] at htaken
    rw [htaken] at hless
    exact Nat.lt_irrefl _ hless

end Frame

end Daybook.Editor
