/-
Daybook.Proofs.DurationGrammar — the written forms of a duration.

`Written` lists them: whole hours, tenths and hundredths of an hour, and the
three literal forms. Decimal forms are recognised by the shape of their tokens
and literal ones character by character, the digits in front of a unit being
held back until it comes; both judge a number by its value, which the scanner
caps far above every bound. Main statement: a duration column is accepted
exactly when it is one of these forms, and then with the time that it denotes.

§1 the forms, §2 values under a cap, §3 the literal forms, §4 from forms to
tokens, §5 from tokens to forms, §6 fractions in machine words, §7 the main
statement.
-/
import Daybook.Proofs.LineGrammar
import Mathlib.Algebra.Group.Nat.Defs
import Mathlib.Data.List.Basic

namespace Daybook.WorkTime

open Text (IsNumeral decimalValue digitValue)

/-! ## §1 The forms -/

/-- The characters `cs` write the time `t`. Numerals may have any length. -/
inductive Written : List Char → WorkTime → Prop
  /-- `D`, whole hours. -/
  | whole {ds : List Char} (h : IsNumeral ds) (lt : decimalValue ds < 24) :
      Written ds ⟨decimalValue ds, 0⟩
  /-- `D.f`, tenths of an hour. -/
  | tenths {ds : List Char} {f : Char} (h : IsNumeral ds) (lt : decimalValue ds < 24)
      (hf : f.isDigit = true) :
      Written (ds ++ ['.', f]) ⟨decimalValue ds, 6 * digitValue f⟩
  /-- `D.ff`, hundredths of an hour, rounded down. -/
  | hundredths {ds : List Char} {f g : Char} (h : IsNumeral ds) (lt : decimalValue ds < 24)
      (hf : f.isDigit = true) (hg : g.isDigit = true) :
      Written (ds ++ ['.', f, g]) ⟨decimalValue ds, 3 * (10 * digitValue f + digitValue g) / 5⟩
  /-- `Dh`. -/
  | hours {ds : List Char} (h : IsNumeral ds) (lt : decimalValue ds < 24) :
      Written (ds ++ ['h']) ⟨decimalValue ds, 0⟩
  /-- `Dm`. -/
  | minutes {ds : List Char} (h : IsNumeral ds) (lt : decimalValue ds < 60) :
      Written (ds ++ ['m']) ⟨0, decimalValue ds⟩
  /-- `DhDm`. -/
  | both {ds es : List Char} (h : IsNumeral ds) (lt : decimalValue ds < 24) (h' : IsNumeral es)
      (lt' : decimalValue es < 60) :
      Written (ds ++ 'h' :: (es ++ ['m'])) ⟨decimalValue ds, decimalValue es⟩

/-- A written time keeps the bounds of hours and minutes. -/
theorem Written.bounds {cs : List Char} {t : WorkTime} (h : Written cs t) :
    t.hours < 24 ∧ t.minutes < 60 := by
  cases h with
  | whole _ lt => exact ⟨lt, Nat.zero_lt_succ _⟩
  | tenths _ lt hf =>
    have := Text.digitValue_le_nine hf
    exact ⟨lt, by dsimp only; omega⟩
  | hundredths _ lt hf hg =>
    have := Text.digitValue_le_nine hf
    have := Text.digitValue_le_nine hg
    exact ⟨lt, by dsimp only; omega⟩
  | hours _ lt => exact ⟨lt, Nat.zero_lt_succ _⟩
  | minutes _ lt => exact ⟨Nat.zero_lt_succ _, lt⟩
  | both _ lt _ lt' => exact ⟨lt, lt'⟩

/-! ## §2 Values under a cap -/

/-- The bound of hours lies below the cap, so it sees the true value. -/
theorem hours?_cappedValue (ds : List Char) :
    hours? (Text.cappedValue Token.maxValue ds) = hours? (decimalValue ds) := by
  rw [Text.cappedValue_eq, Token.maxValue]
  unfold hours?
  by_cases h : decimalValue ds < 24
  · rw [Nat.min_eq_right (by omega)]
  · rw [if_neg h, if_neg (by omega)]

theorem minutes?_cappedValue (ds : List Char) :
    minutes? (Text.cappedValue Token.maxValue ds) = minutes? (decimalValue ds) := by
  rw [Text.cappedValue_eq, Token.maxValue]
  unfold minutes?
  by_cases h : decimalValue ds < 60
  · rw [Nat.min_eq_right (by omega)]
  · rw [if_neg h, if_neg (by omega)]

theorem hours?_eq_some_iff {value hours : Nat} :
    hours? value = some hours ↔ value < 24 ∧ hours = value := by
  unfold hours?
  split <;> simp [*, eq_comm]

theorem minutes?_eq_some_iff {value minutes : Nat} :
    minutes? value = some minutes ↔ value < 60 ∧ minutes = value := by
  unfold minutes?
  split <;> simp [*, eq_comm]

/-! ## §3 The literal forms -/

namespace Literal

def read (l : Literal) (cs : List Char) : Option WorkTime := (cs.foldlM step l).bind finish

theorem read_cons (l : Literal) (c : Char) (cs : List Char) :
    l.read (c :: cs) = (l.step c).bind (read · cs) := by
  simp [read, List.foldlM_cons, Option.bind_assoc]

/-- Digits are held back. -/
theorem read_append (l : Literal) {ds : List Char} (h : Text.allDigits ds = true)
    (cs : List Char) : l.read (ds ++ cs) = read { l with pending := l.pending ++ ds } cs := by
  induction ds generalizing l with
  | nil => simp
  | cons d ds ih =>
    obtain ⟨hd, hds⟩ : d.isDigit = true ∧ Text.allDigits ds = true := by
      simpa [Text.allDigits] using h
    have hstep : l.step d = some { l with pending := l.pending ++ [d] } := by
      rw [step, if_pos hd]
    rw [List.cons_append, read_cons, hstep, Option.bind_some, ih _ hds]
    simp

/-- The unit of hours, behind a numeral. -/
theorem read_hours {l : Literal} (hl : l.pending = []) {ds : List Char} (h : IsNumeral ds)
    (lt : decimalValue ds < 24) (hhours : l.seenHours = false) (hminutes : l.seenMinutes = false)
    (cs : List Char) :
    l.read (ds ++ 'h' :: cs) =
      read { l with time.hours := decimalValue ds, seenHours := true } cs := by
  have hvalue : hours? (pendingValue { l with pending := l.pending ++ ds }) =
      some (decimalValue ds) := by
    rw [pendingValue, hl, List.nil_append, hours?_cappedValue]
    exact hours?_eq_some_iff.mpr ⟨lt, rfl⟩
  rw [read_append l h.digits, read_cons, step, if_neg (by decide),
    if_pos (by simp [hl, h.nonempty, hhours, hminutes]), hvalue]
  simp [hl]

/-- The unit of minutes, behind a numeral. -/
theorem read_minutes {l : Literal} (hl : l.pending = []) {ds : List Char} (h : IsNumeral ds)
    (lt : decimalValue ds < 60) (hminutes : l.seenMinutes = false) (cs : List Char) :
    l.read (ds ++ 'm' :: cs) =
      read { l with time.minutes := decimalValue ds, seenMinutes := true } cs := by
  have hvalue : minutes? (pendingValue { l with pending := l.pending ++ ds }) =
      some (decimalValue ds) := by
    rw [pendingValue, hl, List.nil_append, minutes?_cappedValue]
    exact minutes?_eq_some_iff.mpr ⟨lt, rfl⟩
  rw [read_append l h.digits, read_cons, step, if_neg (by decide), if_neg (by simp),
    if_pos (by simp [hl, h.nonempty, hminutes]), hvalue]
  simp [hl]

/-- How a word goes on that is read to its end: it is over, or a numeral and its unit come
next. -/
inductive Continues (l : Literal) (cs : List Char) (t : WorkTime) : Prop
  | ended (hcs : cs = []) (seen : l.seenHours = true ∨ l.seenMinutes = true) (ht : t = l.time)
  | hours (ds rest : List Char) (hcs : cs = ds ++ 'h' :: rest) (h : IsNumeral ds)
      (lt : decimalValue ds < 24) (first : l.seenHours = false ∧ l.seenMinutes = false)
      (hrest : read { l with time.hours := decimalValue ds, seenHours := true } rest = some t)
  | minutes (ds rest : List Char) (hcs : cs = ds ++ 'm' :: rest) (h : IsNumeral ds)
      (lt : decimalValue ds < 60) (first : l.seenMinutes = false)
      (hrest : read { l with time.minutes := decimalValue ds, seenMinutes := true } rest = some t)

/-- A word that is read on to its end continues as the notation allows. -/
theorem continues_of_read {l : Literal} (hl : l.pending = []) {cs : List Char} {t : WorkTime}
    (h : l.read cs = some t) : l.Continues cs t := by
  -- the word is cut behind the digits in front
  have hcut : cs = cs.takeWhile Char.isDigit ++ cs.dropWhile Char.isDigit :=
    List.takeWhile_append_dropWhile.symm
  have hdigits : Text.allDigits (cs.takeWhile Char.isDigit) = true := List.all_takeWhile
  have hstop := List.head?_dropWhile_not Char.isDigit cs
  generalize cs.takeWhile Char.isDigit = ds at hcut hdigits
  generalize cs.dropWhile Char.isDigit = behind at hcut hstop
  subst hcut
  rw [read_append l hdigits, hl, List.nil_append] at h
  cases behind with
  | nil =>
    simp only [read, List.foldlM_nil, pure, Option.bind_some, finish] at h
    split at h
    · next hfinish =>
      obtain ⟨hds, hseen⟩ := hfinish
      cases h
      exact .ended (by simp [hds]) hseen rfl
    · cases h
  | cons c rest =>
    have hc : c.isDigit = false := by simpa using hstop
    rw [read_cons, step, if_neg (by simp [hc])] at h
    split at h
    · next hhours =>
      obtain ⟨rfl, hds, hunits⟩ := hhours
      obtain ⟨l', hl', hread⟩ := Option.bind_eq_some_iff.mp h
      obtain ⟨value, hvalue, rfl⟩ := Option.map_eq_some_iff.mp hl'
      rw [pendingValue, hours?_cappedValue] at hvalue
      obtain ⟨lt, rfl⟩ := hours?_eq_some_iff.mp hvalue
      exact .hours ds rest rfl ⟨hds, hdigits⟩ lt (by simpa using hunits) (by simpa [hl] using hread)
    · split at h
      · next hminutes =>
        obtain ⟨rfl, hds, hunit⟩ := hminutes
        obtain ⟨l', hl', hread⟩ := Option.bind_eq_some_iff.mp h
        obtain ⟨value, hvalue, rfl⟩ := Option.map_eq_some_iff.mp hl'
        rw [pendingValue, minutes?_cappedValue] at hvalue
        obtain ⟨lt, rfl⟩ := minutes?_eq_some_iff.mp hvalue
        exact .minutes ds rest rfl ⟨hds, hdigits⟩ lt (by simpa using hunit)
          (by simpa [hl] using hread)
      · cases h

/-- Nothing follows the minutes. -/
theorem eq_of_read_of_seenMinutes {l : Literal} (hl : l.pending = [])
    (hminutes : l.seenMinutes = true) {cs : List Char} {t : WorkTime} (h : l.read cs = some t) :
    cs = [] ∧ t = l.time := by
  cases continues_of_read hl h with
  | ended hcs _ ht => exact ⟨hcs, ht⟩
  | hours _ _ _ _ _ first => simp [hminutes] at first
  | minutes _ _ _ _ _ first => simp [hminutes] at first

end Literal

/-- A word that is read is one of the literal forms. -/
theorem written_of_ofLiteral? {cs : List Char} {t : WorkTime} (h : ofLiteral? cs = some t) :
    Written cs t := by
  have hread : Literal.read {} cs = some t := h
  cases Literal.continues_of_read rfl hread with
  | ended _ seen => simp at seen
  | hours ds rest hcs hds lt _ hrest =>
    subst hcs
    -- behind the hours: the end of the word, or the minutes
    cases Literal.continues_of_read rfl hrest with
    | ended hcs _ ht =>
      subst hcs ht
      exact .hours hds lt
    | hours _ _ _ _ _ first => simp at first
    | minutes es rest hcs hes lt' _ hrest =>
      obtain ⟨rfl, rfl⟩ := Literal.eq_of_read_of_seenMinutes rfl rfl hrest
      subst hcs
      exact .both hds lt hes lt'
  | minutes ds rest hcs hds lt _ hrest =>
    obtain ⟨rfl, rfl⟩ := Literal.eq_of_read_of_seenMinutes rfl rfl hrest
    subst hcs
    exact .minutes hds lt

/-! ## §4 From forms to tokens -/

theorem isNumeral_pair {f g : Char} (hf : f.isDigit = true) (hg : g.isDigit = true) :
    IsNumeral [f, g] :=
  ⟨List.cons_ne_nil _ _, by simp [Text.allDigits, hf, hg]⟩

theorem isNumeral_single {f : Char} (hf : f.isDigit = true) : IsNumeral [f] :=
  ⟨List.cons_ne_nil _ _, by simp [Text.allDigits, hf]⟩

/-- What one digit denotes does not reach the cap. -/
theorem cappedValue_single {f : Char} (hf : f.isDigit = true) :
    Text.cappedValue Token.maxValue [f] = digitValue f := by
  have := Text.digitValue_le_nine hf
  have hvalue : decimalValue [f] = digitValue f := by
    simp [decimalValue, digitValue, Nat.ofDigitChars_cons]
  rw [Text.cappedValue_eq, hvalue, Token.maxValue]
  omega

theorem cappedValue_pair {f g : Char} (hf : f.isDigit = true) (hg : g.isDigit = true) :
    Text.cappedValue Token.maxValue [f, g] = 10 * digitValue f + digitValue g := by
  have := Text.digitValue_le_nine hf
  have := Text.digitValue_le_nine hg
  have hvalue : decimalValue [f, g] = 10 * digitValue f + digitValue g := by
    simp [decimalValue, digitValue, Nat.ofDigitChars_cons]
  rw [Text.cappedValue_eq, hvalue, Token.maxValue]
  omega

/-- A digit takes one byte, so the bytes of a numeral are its digits. -/
theorem size_eq_length {ds : List Char} (h : IsNumeral ds) : Text.Utf8.size ds = ds.length := by
  have hdigits := List.all_eq_true.mp h.digits
  clear h
  induction ds with
  | nil => rfl
  | cons d ds ih =>
    have hnine := (Text.isDigit_iff.mp (hdigits d List.mem_cons_self)).2
    have hwidth : Text.Utf8.width d = 1 := if_pos (Nat.lt_of_le_of_lt hnine (by decide))
    rw [Text.Utf8.size_cons, hwidth, ih fun c hc => hdigits c (List.mem_cons_of_mem _ hc),
      List.length_cons, Nat.add_comm]

/-- A tenth of an hour is six minutes. -/
theorem minutesOfFraction?_tenths {value : Nat} (h : value ≤ 9) :
    minutesOfFraction? value 1 = some (6 * value) := by
  have hproduct : (UInt64.ofNat value * 6).toNat = 6 * value := by
    simp
    omega
  rw [minutesOfFraction?, hproduct]
  exact Option.filter_some_pos (decide_eq_true (by omega))

/-- Hundredths of an hour, rounded down to minutes. -/
theorem minutesOfFraction?_hundredths {value : Nat} (h : value ≤ 99) :
    minutesOfFraction? value 2 = some (3 * value / 5) := by
  have hproduct : (UInt64.ofNat value * 3 / 5).toNat = 3 * value / 5 := by
    simp
    omega
  rw [minutesOfFraction?, hproduct]
  exact Option.filter_some_pos (decide_eq_true (by omega))

theorem minutesOfFraction?_pair {f g : Char} (hf : f.isDigit = true) (hg : g.isDigit = true) :
    minutesOfFraction? (10 * digitValue f + digitValue g) [f, g].length =
      some (3 * (10 * digitValue f + digitValue g) / 5) := by
  have := Text.digitValue_le_nine hf
  have := Text.digitValue_le_nine hg
  exact minutesOfFraction?_hundredths (by omega)

/-- A run that is no numeral is read in the literal notation. -/
theorem ofTokens?_scan_word {cs : List Char} (hrun : ∀ c ∈ cs, Token.inRun c = true) {c : Char}
    (hmem : c ∈ cs) (hc : c.isDigit = false) : ofTokens? (Token.scan cs) = ofLiteral? cs := by
  have hdigits : ¬ Text.allDigits cs = true := fun h => by
    simpa [hc] using List.all_eq_true.mp h c hmem
  rw [Token.scan_run (List.ne_nil_of_mem hmem) hrun, Token.ofRun, if_neg hdigits, ofTokens?,
    String.toList_ofList]

theorem inRun_of_mem_numeral {ds : List Char} (h : IsNumeral ds) :
    ∀ c ∈ ds, Token.inRun c = true := fun c hc =>
  Token.inRun_of_isDigit (List.all_eq_true.mp h.digits c hc)

/-- Whatever writes a time is read as that time. -/
theorem ofTokens?_of_written {cs : List Char} {t : WorkTime} (h : Written cs t) :
    ofTokens? (Token.scan cs) = some t := by
  cases h with
  | whole h lt =>
    rw [Token.scan_numeral h, ofTokens?, hours?_cappedValue, hours?_eq_some_iff.mpr ⟨lt, rfl⟩]
    rfl
  | @tenths ds f h lt hf =>
    have := Text.digitValue_le_nine hf
    rw [Token.scan_append_dot, Token.scan_numeral h, Token.scan_numeral (isNumeral_single hf),
      List.singleton_append, ofTokens?, hours?_cappedValue, hours?_eq_some_iff.mpr ⟨lt, rfl⟩,
      cappedValue_single hf, String.toList_ofList, size_eq_length (isNumeral_single hf),
      List.length_singleton, minutesOfFraction?_tenths this]
    rfl
  | @hundredths ds f g h lt hf hg =>
    rw [Token.scan_append_dot, Token.scan_numeral h, Token.scan_numeral (isNumeral_pair hf hg),
      List.singleton_append, ofTokens?, hours?_cappedValue, hours?_eq_some_iff.mpr ⟨lt, rfl⟩,
      cappedValue_pair hf hg, String.toList_ofList, size_eq_length (isNumeral_pair hf hg),
      minutesOfFraction?_pair hf hg]
    rfl
  | @hours ds h lt =>
    have hrun : ∀ c ∈ ds ++ ['h'], Token.inRun c = true := by
      simpa [or_imp, forall_and] using ⟨inRun_of_mem_numeral h, by decide⟩
    rw [ofTokens?_scan_word hrun (by simp) (c := 'h') (by decide)]
    exact (Literal.read_hours rfl h lt rfl rfl []).trans rfl
  | @minutes ds h lt =>
    have hrun : ∀ c ∈ ds ++ ['m'], Token.inRun c = true := by
      simpa [or_imp, forall_and] using ⟨inRun_of_mem_numeral h, by decide⟩
    rw [ofTokens?_scan_word hrun (by simp) (c := 'm') (by decide)]
    exact (Literal.read_minutes rfl h lt rfl []).trans rfl
  | @both ds es h lt h' lt' =>
    have hrun : ∀ c ∈ ds ++ 'h' :: (es ++ ['m']), Token.inRun c = true := by
      simpa [or_imp, forall_and] using
        ⟨inRun_of_mem_numeral h, by decide, inRun_of_mem_numeral h', by decide⟩
    rw [ofTokens?_scan_word hrun (by simp) (c := 'h') (by decide)]
    refine (Literal.read_hours rfl h lt rfl rfl _).trans ?_
    exact (Literal.read_minutes rfl h' lt' rfl []).trans rfl

/-! ## §5 From tokens to forms -/

/-- A fraction has tenths or hundredths, by the width of its numeral. -/
theorem width_of_minutesOfFraction? {value width minutes : Nat}
    (h : minutesOfFraction? value width = some minutes) : width = 1 ∨ width = 2 := by
  unfold minutesOfFraction? at h
  obtain ⟨h, _⟩ := Option.filter_eq_some_iff.mp h
  split at h
  · exact .inl rfl
  · exact .inr rfl
  · cases h

/-- Whatever is read as a time writes it. -/
theorem written_of_ofTokens? {cs : List Char} {t : WorkTime}
    (h : ofTokens? (Token.scan cs) = some t) : Written cs t := by
  -- the tokens, put together, are the characters again
  have hchars := Token.allChars_scan cs
  have hnumber := @Token.number_of_mem_scan cs
  generalize Token.scan cs = tokens at h hchars hnumber
  unfold ofTokens? at h
  split at h
  · next value text =>
    obtain ⟨hds, rfl⟩ := hnumber List.mem_cons_self
    obtain ⟨hours, hhours, hpure⟩ := Option.bind_eq_some_iff.mp h
    rw [hours?_cappedValue] at hhours
    obtain ⟨lt, rfl⟩ := hours?_eq_some_iff.mp hhours
    cases hpure
    simp only [Token.allChars_cons, Token.chars, Token.allChars_nil, List.append_nil] at hchars
    exact hchars ▸ .whole hds lt
  · next word =>
    simp only [Token.allChars_cons, Token.chars, Token.allChars_nil, List.append_nil] at hchars
    exact hchars ▸ written_of_ofLiteral? h
  · next whole text fraction text' =>
    obtain ⟨hds, rfl⟩ := hnumber List.mem_cons_self
    obtain ⟨hfs, rfl⟩ := hnumber (by simp : Token.number fraction text' ∈ _)
    obtain ⟨hours, hhours, h⟩ := Option.bind_eq_some_iff.mp h
    obtain ⟨minutes, hminutes, hpure⟩ := Option.bind_eq_some_iff.mp h
    rw [hours?_cappedValue] at hhours
    obtain ⟨lt, rfl⟩ := hours?_eq_some_iff.mp hhours
    cases hpure
    simp only [Token.allChars_cons, Token.chars, Token.allChars_nil, List.append_nil,
      List.singleton_append] at hchars
    subst hchars
    rw [size_eq_length hfs] at hminutes
    rcases width_of_minutesOfFraction? hminutes with hwidth | hwidth
    · obtain ⟨f, hf⟩ := List.length_eq_one_iff.mp hwidth
      rw [hf] at hfs hminutes ⊢
      have hdigit : f.isDigit = true := by simpa [Text.allDigits] using hfs.digits
      rw [cappedValue_single hdigit, List.length_singleton,
        minutesOfFraction?_tenths (Text.digitValue_le_nine hdigit)] at hminutes
      exact Option.some.inj hminutes ▸ .tenths hds lt hdigit
    · obtain ⟨f, g, hfg⟩ := List.length_eq_two.mp hwidth
      rw [hfg] at hfs hminutes ⊢
      have hdigits : f.isDigit = true ∧ g.isDigit = true := by
        simpa [Text.allDigits] using hfs.digits
      rw [cappedValue_pair hdigits.1 hdigits.2, minutesOfFraction?_pair hdigits.1 hdigits.2]
        at hminutes
      exact Option.some.inj hminutes ▸ .hundredths hds lt hdigits.1 hdigits.2
  · cases h

/-- A duration column is read as `t` exactly when it writes `t`. -/
theorem ofTokens?_scan_eq_some_iff {cs : List Char} {t : WorkTime} :
    ofTokens? (Token.scan cs) = some t ↔ Written cs t :=
  ⟨written_of_ofTokens?, ofTokens?_of_written⟩

/-! ## §6 Fractions in machine words -/

/-- What is computed of a fraction of `width` digits stays within 64 bits on the way and within a
byte in the end, so it is refused for its width only. -/
structure FitsWords (fraction width : Nat) : Prop where
  tenths : width = 1 → fraction * 6 < 2 ^ 64 ∧ fraction * 6 < 2 ^ 8
  hundredths : width = 2 → fraction * 3 < 2 ^ 64 ∧ fraction * 3 / 5 < 2 ^ 8
  accepted : (minutesOfFraction? fraction width).isSome ↔ width = 1 ∨ width = 2

/-- The width of a numeral, which counts the same in bytes, bounds what it denotes. -/
theorem fitsWords_of_mem_scan {cs : List Char} {value : Nat} {text : String}
    (h : .number value text ∈ Token.scan cs) :
    Text.Utf8.size text.toList = text.toList.length ∧ FitsWords value text.toList.length := by
  obtain ⟨hds, rfl⟩ := Token.number_of_mem_scan h
  refine ⟨size_eq_length hds, ?_⟩
  generalize text.toList = ds at hds
  have htenths : ds.length = 1 → Text.cappedValue Token.maxValue ds ≤ 9 := fun hlength => by
    obtain ⟨f, rfl⟩ := List.length_eq_one_iff.mp hlength
    have hf : f.isDigit = true := by simpa [Text.allDigits] using hds.digits
    rw [cappedValue_single hf]
    exact Text.digitValue_le_nine hf
  have hhundredths : ds.length = 2 → Text.cappedValue Token.maxValue ds ≤ 99 := fun hlength => by
    obtain ⟨f, g, rfl⟩ := List.length_eq_two.mp hlength
    have hfg : f.isDigit = true ∧ g.isDigit = true := by simpa [Text.allDigits] using hds.digits
    have := Text.digitValue_le_nine hfg.1
    have := Text.digitValue_le_nine hfg.2
    rw [cappedValue_pair hfg.1 hfg.2]
    omega
  refine ⟨fun hlength => ?_, fun hlength => ?_, fun hsome => ?_, fun hwidth => ?_⟩
  · have := htenths hlength
    omega
  · have := hhundredths hlength
    omega
  · obtain ⟨minutes, hminutes⟩ := Option.isSome_iff_exists.mp hsome
    exact width_of_minutesOfFraction? hminutes
  · rcases hwidth with hlength | hlength
    · rw [hlength, minutesOfFraction?_tenths (htenths hlength)]
      rfl
    · rw [hlength, minutesOfFraction?_hundredths (hhundredths hlength)]
      rfl

/-! ## §7 Reading durations -/

/-- An entry that is read keeps the bounds, but it may take no time. -/
theorem violation?_of_read {r : Line.Reader} {line : String} {e : Entry}
    (h : r.read line = .ok (.entry e)) {v : Violation} (hv : e.violation? = some v) :
    v = .zeroDuration := by
  have hbounds : e.hours < 24 ∧ e.minutes < 60 := by
    obtain ⟨_, _, time, htime, rfl⟩ :=
      Line.Grammar.entry_eq_ok (Line.grammar_entry_of_read h)
    rw [Line.Grammar.entryOf_hours, Line.Grammar.entryOf_minutes]
    exact (written_of_ofTokens? htime).bounds
  unfold Entry.violation? at hv
  rw [if_neg (by omega), if_neg (by omega)] at hv
  split at hv
  · exact (Option.some.inj hv).symm
  · cases hv

/-- **The grammar of durations.** A text is accepted as a duration exactly when it is one of the
written forms, and as the time that it denotes; any other is an invalid time. A number of the text
has as many bytes as digits and does not leave its machine words on the way, and of the bounds of an entry only that of no time at all is
left to be checked. -/
theorem acceptDuration_tokenize (text : String) :
    (∀ t, Line.acceptDuration (Token.tokenize text) = .ok t ↔ Written text.toList t) ∧
    ((∀ t, ¬ Written text.toList t) →
      Line.acceptDuration (Token.tokenize text) = .error .invalidTime) ∧
    (∀ value digits, .number value digits ∈ Token.tokenize text →
      Text.Utf8.size digits.toList = digits.toList.length ∧
      FitsWords value digits.toList.length) ∧
    (∀ t, Written text.toList t → t.hours < 24 ∧ t.minutes < 60) ∧
    ∀ (r : Line.Reader) (e : Entry) (v : Violation),
      r.read text = .ok (.entry e) → e.violation? = some v → v = .zeroDuration := by
  have hread : ∀ t, ofTokens? (Token.tokenize text) = some t ↔ Written text.toList t :=
    fun _ => ofTokens?_scan_eq_some_iff
  refine ⟨fun t => ?_, fun hnone => ?_, fun _ _ => fitsWords_of_mem_scan, fun _ => Written.bounds,
    fun _ _ _ he hv => violation?_of_read he hv⟩
  · rw [← hread, Line.acceptDuration]
    cases ofTokens? (Token.tokenize text) with
    | none => simp [throw, throwThe, MonadExceptOf.throw]
    | some time => simp [pure, Except.pure]
  · rw [Line.acceptDuration]
    cases htime : ofTokens? (Token.tokenize text) with
    | none => rfl
    | some time => exact absurd ((hread time).mp htime) (hnone time)

end Daybook.WorkTime
