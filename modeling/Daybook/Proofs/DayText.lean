/-
Daybook.Proofs.DayText — the texts that are read as days.

The reader takes digits as long as they last, at most as many as a field may
have; what stands behind a field is a hyphen or nothing, so it stops where the
field ends (§1). Month and day have one or two digits, the year has up to four,
or its sign in front, and white space may stand before each (§2). `Spells` puts
them together, and is what is read (§3). The written form of a day is one of
its spellings. Main statement: `parse_render`, for every day of the calendar.
-/
import Daybook.Day.Text
import Daybook.Proofs.Digits
import Daybook.Proofs.Trimming
import Daybook.Text.DecimalDigit
import Mathlib.Algebra.Group.Nat.Defs

namespace Daybook

open Text (IsNumeral)

/-! ## §1 Numbers -/

/-- What ends a run of digits: the end of the text, or any other character. -/
def Text.EndsDigits (rest : List Char) : Prop := ∀ c ∈ rest.head?, c.isDigit = false

theorem Text.endsDigits_nil : EndsDigits [] := by simp [EndsDigits]

theorem Text.endsDigits_hyphen (rest : List Char) : EndsDigits ('-' :: rest) := by
  simp [EndsDigits]

theorem Text.takeWhile_isDigit_append {ds rest : List Char} (hds : IsNumeral ds)
    (hrest : EndsDigits rest) : (ds ++ rest).takeWhile Char.isDigit = ds :=
  takeWhile_exact (List.all_eq_true.mp hds.digits) hrest

/-- No decimal digit, of whatever script, is white space. -/
theorem Text.isBlank_of_isDecimalDigit {c : Char} (h : isDecimalDigit c = true) :
    isBlank c = false := by
  have hcontrols : ∀ k < 5, inRanges decimalDigitRanges (9 + k) = false := by decide
  have hspaces : ∀ k < 11, inRanges decimalDigitRanges (0x2000 + k) = false := by decide
  rw [Bool.eq_false_iff]
  intro hblank
  simp only [isBlank, Bool.or_eq_true, Bool.and_eq_true, decide_eq_true_eq, beq_iff_eq] at hblank
  rw [isDecimalDigit] at h
  generalize c.toNat = n at h hblank
  -- two stretches of white space, and nine characters that stand alone
  rcases hblank with (((((((((hn | hn) | hn) | hn) | hn) | hn) | hn) | hn) | hn) | hn) | hn
  case inl.inl.inl.inl.inl.inl.inl.inl.inl.inl =>
    obtain ⟨k, rfl⟩ := Nat.exists_eq_add_of_le hn.1
    simp [hcontrols k (by omega)] at h
  case inl.inl.inl.inl.inl.inr =>
    obtain ⟨k, rfl⟩ := Nat.exists_eq_add_of_le hn.1
    simp [hspaces k (by omega)] at h
  all_goals
    subst hn
    cases h

theorem Text.isBlank_of_isDigit {c : Char} (h : c.isDigit = true) : isBlank c = false :=
  isBlank_of_isDecimalDigit (isDecimalDigit_of_isDigit h)

/-- No white space is skipped in front of digits. -/
theorem Text.trimStart_digits_append {ds : List Char} (hds : ∀ c ∈ ds, isDecimalDigit c = true)
    (hne : ds ≠ []) (rest : List Char) : trimStart (ds ++ rest) = ds ++ rest := by
  obtain ⟨d, ds', rfl⟩ := List.exists_cons_of_ne_nil hne
  simp [trimStart, isBlank_of_isDecimalDigit (hds d List.mem_cons_self)]

theorem Text.trimStart_numeral_append {ds : List Char} (hds : IsNumeral ds) (rest : List Char) :
    trimStart (ds ++ rest) = ds ++ rest :=
  trimStart_digits_append
    (fun c hc => isDecimalDigit_of_isDigit (List.all_eq_true.mp hds.digits c hc)) hds.nonempty rest

theorem Text.length_paddedNumeral {width n : Nat} (hwidth : 0 < width) (hn : n < 10 ^ width) :
    (paddedNumeral width n).length = width := by
  have : (numeral n).length ≤ width := (Nat.length_toDigits_le_iff (by decide) hwidth).mpr hn
  simp only [paddedNumeral, List.length_append, List.length_replicate]
  omega

theorem bind_eq_ok_iff {ε α β : Type} {x : Except ε α} {f : α → Except ε β} {b : β} :
    (x >>= f) = .ok b ↔ ∃ a, x = .ok a ∧ f a = .ok b := by
  cases x <;> simp [bind, Except.bind]

/-- White space in front of a text does not count. -/
theorem Text.trimStart_blanks_append {blanks : List Char} (h : ∀ c ∈ blanks, isBlank c = true)
    (cs : List Char) : trimStart (blanks ++ cs) = trimStart cs :=
  List.dropWhile_append_of_pos h

namespace Day

/-- A number is read up to its last digit, whatever follows. -/
theorem readNumber_append {ds rest : List Char} {width : Nat} (hds : IsNumeral ds)
    (hwidth : ds.length ≤ width) (hrest : Text.EndsDigits rest) :
    readNumber width (ds ++ rest) = .ok (Text.decimalValue ds, rest) := by
  have hcut : Text.EndsDigits (rest.take (width - ds.length)) := by
    intro c hc
    rw [List.head?_take] at hc
    split at hc
    · cases hc
    · exact hrest c hc
  have htake : ((ds ++ rest).take width).takeWhile Char.isDigit = ds := by
    rw [List.take_append, List.take_of_length_le hwidth]
    exact Text.takeWhile_isDigit_append hds hcut
  have hdrop : (ds ++ rest).drop ds.length = rest := List.drop_left
  unfold readNumber
  rw [htake]
  obtain ⟨d, ds', rfl⟩ := List.exists_cons_of_ne_nil hds.nonempty
  simp only [hdrop]
  rfl

/-- What is read as a number are digits. -/
theorem readNumber_eq_ok {width n : Nat} {cs rest : List Char}
    (h : readNumber width cs = .ok (n, rest)) :
    ∃ ds, IsNumeral ds ∧ ds.length ≤ width ∧ Text.decimalValue ds = n ∧ cs = ds ++ rest := by
  have hprefix : (cs.take width).takeWhile Char.isDigit <+: cs :=
    (List.takeWhile_prefix _).trans (List.take_prefix width cs)
  have hlength : ((cs.take width).takeWhile Char.isDigit).length ≤ width :=
    (List.takeWhile_prefix _).length_le.trans (List.length_take_le width cs)
  have hdigits : Text.allDigits ((cs.take width).takeWhile Char.isDigit) = true :=
    List.all_takeWhile
  unfold readNumber at h
  generalize (cs.take width).takeWhile Char.isDigit = ds at h hprefix hlength hdigits
  obtain ⟨behind, rfl⟩ := hprefix
  split at h
  · cases h
  · next hne =>
    cases h
    exact ⟨ds, ⟨hne, hdigits⟩, hlength, rfl, by rw [List.drop_left]⟩

/-! ## §2 Fields -/

/-- The digits `ds` spell a month or a day of a month. -/
structure SpellsField (ds : List Char) (n : Nat) : Prop where
  numeral : IsNumeral ds
  short : ds.length ≤ 2
  value : Text.decimalValue ds = n

/-- A text spells a year. -/
inductive SpellsYear : List Char → Int → Prop
  | unsigned {ds : List Char} (h : IsNumeral ds) (short : ds.length ≤ 4) :
    SpellsYear ds (Text.decimalValue ds)
  | plus {ds : List Char} (h : IsNumeral ds) : SpellsYear ('+' :: ds) (Text.decimalValue ds)
  | minus {ds : List Char} (h : IsNumeral ds) : SpellsYear ('-' :: ds) (-(Text.decimalValue ds))

/-- A field is read after white space. -/
theorem readField_eq_ok_iff {limit n : Nat} {cs rest : List Char} (hrest : Text.EndsDigits rest) :
    readField limit cs = .ok (n, rest) ↔ (1 ≤ n ∧ n ≤ limit) ∧ ∃ blanks ds,
      (∀ c ∈ blanks, Text.isBlank c = true) ∧ SpellsField ds n ∧ cs = blanks ++ (ds ++ rest) := by
  constructor
  · intro h
    simp only [readField, bind_eq_ok_iff, Prod.exists] at h
    obtain ⟨m, _, hnumber, h⟩ := h
    split at h
    · next hbounds =>
      cases h
      obtain ⟨ds, hds, hlength, hvalue, hcs⟩ := readNumber_eq_ok hnumber
      obtain ⟨blanks, hcut, hblanks⟩ := Text.exists_leading cs
      exact ⟨hbounds, blanks, ds, hblanks, ⟨hds, hlength, hvalue⟩, hcs ▸ hcut⟩
    · cases h
  · rintro ⟨hbounds, blanks, ds, hblanks, ⟨hds, hlength, rfl⟩, rfl⟩
    rw [readField, Text.trimStart_blanks_append hblanks, Text.trimStart_numeral_append hds,
      readNumber_append hds hlength hrest]
    simp only [bind, Except.bind, if_pos hbounds]
    rfl

/-- The years that are read, whatever the calendar holds of them. -/
def FitsWord (year : Int) : Prop := -2147483648 ≤ year ∧ year ≤ 2147483647

/-- The years of the calendar are among those that are read. -/
theorem fitsWord_of_isDate {year : Int} (hlow : firstYear ≤ year) (hhigh : year ≤ lastYear) :
    FitsWord year := by
  unfold firstYear at hlow
  unfold lastYear at hhigh
  unfold FitsWord
  omega

/-- A text that begins with a digit begins with no sign. -/
theorem ne_sign_of_numeral {ds rest cs : List Char} {sign : Char} (hds : IsNumeral ds)
    (hsign : sign.isDigit = false) : ds ++ rest ≠ sign :: cs := by
  obtain ⟨d, more, rfl⟩ := List.exists_cons_of_ne_nil hds.nonempty
  intro h
  have hdigit : d.isDigit = true := List.all_eq_true.mp hds.digits d List.mem_cons_self
  rw [List.cons_append, List.cons.injEq] at h
  rw [h.1, hsign] at hdigit
  cases hdigit

/-- A year is its sign and a number that fits. -/
theorem fits_of_signed (sign : Nat → Int) {width : Nat} {year : Int} {cs rest : List Char}
    (h : (do
      let x ← readNumber width cs
      let x ← pure (sign x.1, x.2)
      if -2147483648 ≤ x.1 ∧ x.1 ≤ 2147483647 then pure (x.1, x.2)
      else throw DateFault.outOfRange) = .ok (year, rest)) :
    FitsWord year ∧ ∃ ds, IsNumeral ds ∧ ds.length ≤ width ∧ sign (Text.decimalValue ds) = year ∧
      cs = ds ++ rest := by
  simp only [bind_eq_ok_iff, Prod.exists] at h
  obtain ⟨n, behind, hnumber, _, _, hpure, h⟩ := h
  cases hpure
  split at h
  · next hfits =>
    cases h
    obtain ⟨ds, hds, hwidth, rfl, hcs⟩ := readNumber_eq_ok hnumber
    exact ⟨hfits, ds, hds, hwidth, rfl, hcs⟩
  · cases h

/-- A year is read after white space. -/
theorem readYear_eq_ok_iff {year : Int} {cs rest : List Char} (hrest : Text.EndsDigits rest) :
    readYear cs = .ok (year, rest) ↔ FitsWord year ∧ ∃ blanks ys,
      (∀ c ∈ blanks, Text.isBlank c = true) ∧ SpellsYear ys year ∧ cs = blanks ++ (ys ++ rest) := by
  constructor
  · intro h
    obtain ⟨blanks, hcut, hblanks⟩ := Text.exists_leading cs
    suffices hspelled : FitsWord year ∧
        ∃ ys, SpellsYear ys year ∧ Text.trimStart cs = ys ++ rest by
      obtain ⟨hfits, ys, hys, hstart⟩ := hspelled
      exact ⟨hfits, blanks, ys, hblanks, hys, hstart ▸ hcut⟩
    rw [readYear] at h
    split at h
    · next heq =>
      obtain ⟨hfits, ds, hds, -, rfl, rfl⟩ := fits_of_signed (fun n => -(n : Int)) h
      exact ⟨hfits, '-' :: ds, .minus hds, heq⟩
    · next heq =>
      obtain ⟨hfits, ds, hds, -, rfl, rfl⟩ := fits_of_signed (fun n => (n : Int)) h
      exact ⟨hfits, '+' :: ds, .plus hds, heq⟩
    · obtain ⟨hfits, ds, hds, hshort, rfl, heq⟩ := fits_of_signed (fun n => (n : Int)) h
      exact ⟨hfits, ds, .unsigned hds hshort, heq⟩
  · rintro ⟨hfits, blanks, ys, hblanks, hys, rfl⟩
    have hnumber {ds : List Char} (hds : IsNumeral ds) :
        readNumber (ds ++ rest).length (ds ++ rest) = .ok (Text.decimalValue ds, rest) :=
      readNumber_append hds (by simp) hrest
    rw [readYear, Text.trimStart_blanks_append hblanks]
    cases hys with
    | unsigned hds hshort =>
      rw [Text.trimStart_numeral_append hds]
      split
      · next heq => exact absurd heq (ne_sign_of_numeral hds rfl)
      · next heq => exact absurd heq (ne_sign_of_numeral hds rfl)
      · rw [readNumber_append hds hshort hrest]
        exact if_pos hfits
    | @plus ds hds =>
      have htrim : Text.trimStart ('+' :: ds ++ rest) = '+' :: (ds ++ rest) := rfl
      rw [htrim]
      simp only [hnumber hds]
      exact if_pos hfits
    | @minus ds hds =>
      have htrim : Text.trimStart ('-' :: ds ++ rest) = '-' :: (ds ++ rest) := rfl
      rw [htrim]
      simp only [hnumber hds]
      exact if_pos hfits

/-! ## §3 Days -/

theorem readHyphen_eq_ok_iff {cs rest : List Char} :
    readHyphen cs = .ok rest ↔ cs = '-' :: rest := by
  unfold readHyphen
  split <;> simp_all [pure, Except.pure, throw, throwThe, MonadExceptOf.throw, eq_comm]

/-- A date is three numbers with hyphens between them and nothing behind them. -/
theorem ofChars_eq_ok_iff {cs : List Char} {d : Day} :
    ofChars cs = .ok d ↔ ∃ year month day rest rest',
      readYear cs = .ok (year, '-' :: rest) ∧ readField 12 rest = .ok (month, '-' :: rest') ∧
      readField 31 rest' = .ok (day, []) ∧ ofDate? year month day = some d := by
  constructor
  · intro h
    simp only [ofChars, bind_eq_ok_iff, Prod.exists, readHyphen_eq_ok_iff] at h
    obtain ⟨year, _, hyear, rest, rfl, month, _, hmonth, rest', rfl, day, last, hday, h⟩ := h
    cases last with
    | cons c cs => cases h
    | nil =>
      refine ⟨year, month, day, rest, rest', hyear, hmonth, hday, ?_⟩
      cases hdate : ofDate? year month day with
      | none =>
        rw [hdate] at h
        cases h
      | some d' =>
        rw [hdate] at h
        cases h
        rfl
  · rintro ⟨year, month, day, rest, rest', hyear, hmonth, hday, hdate⟩
    simp only [ofChars, hyear, bind, Except.bind, readHyphen, pure, Except.pure, hmonth, hday,
      hdate]
    rfl

/-- A text spells a day: year, month and day with hyphens between them, each of the three perhaps
after white space. -/
inductive Spells : List Char → Day → Prop
  | mk {b₁ b₂ b₃ year month dayOfMonth : List Char} {d : Day}
      (hb₁ : ∀ c ∈ b₁, Text.isBlank c = true) (hb₂ : ∀ c ∈ b₂, Text.isBlank c = true)
      (hb₃ : ∀ c ∈ b₃, Text.isBlank c = true) (hyear : SpellsYear year d.year)
      (hmonth : SpellsField month d.month) (hday : SpellsField dayOfMonth d.dayOfMonth) :
    Spells (b₁ ++ (year ++ '-' :: (b₂ ++ (month ++ '-' :: (b₃ ++ dayOfMonth))))) d

/-- What is read as a day is what spells it. -/
theorem ofChars_eq_ok_iff_spells {cs : List Char} {d : Day} :
    ofChars cs = .ok d ↔ Spells cs d := by
  rw [ofChars_eq_ok_iff]
  constructor
  · rintro ⟨year, month, day, rest, rest', hyear, hmonth, hday, hdate⟩
    obtain ⟨rfl, rfl, rfl⟩ := ofDate?_eq_some_iff.mp hdate
    obtain ⟨-, b₁, ys, hb₁, hys, rfl⟩ := (readYear_eq_ok_iff (Text.endsDigits_hyphen _)).mp hyear
    obtain ⟨-, b₂, ms, hb₂, hms, rfl⟩ := (readField_eq_ok_iff (Text.endsDigits_hyphen _)).mp hmonth
    obtain ⟨-, b₃, xs, hb₃, hxs, rfl⟩ := (readField_eq_ok_iff Text.endsDigits_nil).mp hday
    rw [List.append_nil]
    exact .mk hb₁ hb₂ hb₃ hys hms hxs
  · rintro @⟨b₁, b₂, b₃, ys, ms, xs, _, hb₁, hb₂, hb₃, hys, hms, hxs⟩
    obtain ⟨hfirst, hlast, hlow, hhigh, hlow', hhigh'⟩ := d.isDate
    have hlimit := (monthLength_bounds d.year d.month).2
    refine ⟨d.year, d.month, d.dayOfMonth, b₂ ++ (ms ++ '-' :: (b₃ ++ xs)), b₃ ++ xs,
      ?year, ?month, ?day,
      ofDate?_eq_some_iff.mpr ⟨rfl, rfl, rfl⟩⟩
    case year =>
      exact (readYear_eq_ok_iff (Text.endsDigits_hyphen _)).mpr
        ⟨fitsWord_of_isDate hfirst hlast, b₁, ys, hb₁, hys, rfl⟩
    case month =>
      exact (readField_eq_ok_iff (Text.endsDigits_hyphen _)).mpr
        ⟨⟨hlow, hhigh⟩, b₂, ms, hb₂, hms, rfl⟩
    case day =>
      exact (readField_eq_ok_iff Text.endsDigits_nil).mpr
        ⟨⟨hlow', Nat.le_trans hhigh' hlimit⟩, b₃, xs, hb₃, hxs, by rw [List.append_nil]⟩

/-- The written form of a year spells it. -/
theorem spellsYear_yearText (year : Int) : SpellsYear (yearText year) year := by
  have hds := Text.isNumeral_paddedNumeral 4 year.natAbs
  have hvalue := Text.decimalValue_paddedNumeral 4 year.natAbs
  unfold yearText
  split
  · next hneg =>
    have h := SpellsYear.minus hds
    rwa [hvalue, show -(year.natAbs : Int) = year by omega] at h
  · next hneg =>
    have hyear : (year.natAbs : Int) = year := by omega
    split
    · next hfour =>
      have hlength : (Text.paddedNumeral 4 year.natAbs).length = 4 :=
        Text.length_paddedNumeral (by decide) (by omega)
      have h := SpellsYear.unsigned hds (Nat.le_of_eq hlength)
      rwa [hvalue, hyear] at h
    · have h := SpellsYear.plus hds
      rwa [hvalue, hyear] at h

theorem spellsField_paddedNumeral {n : Nat} (hn : n < 100) :
    SpellsField (Text.paddedNumeral 2 n) n where
  numeral := Text.isNumeral_paddedNumeral 2 n
  short := Nat.le_of_eq (Text.length_paddedNumeral (by decide) hn)
  value := Text.decimalValue_paddedNumeral 2 n

/-- The written form of a day spells it, without white space. -/
theorem spells_chars (d : Day) : Spells d.chars d := by
  obtain ⟨-, -, -, hmonth, -, hday⟩ := d.isDate
  have hlimit := (monthLength_bounds d.year d.month).2
  have hnone : ∀ c ∈ ([] : List Char), Text.isBlank c = true := by simp
  have hmonths := spellsField_paddedNumeral (n := d.month) (by omega)
  have hdays := spellsField_paddedNumeral (n := d.dayOfMonth) (by omega)
  exact @Spells.mk [] [] [] _ _ _ d hnone hnone hnone (spellsYear_yearText d.year) hmonths hdays

/-- The reader of dates takes what spells a day, and nothing else. -/
theorem parse_eq_ok_iff {text : String} {d : Day} : parse text = .ok d ↔ Spells text.toList d := by
  rw [← ofChars_eq_ok_iff_spells, parse]
  cases ofChars text.toList <;> simp [Except.mapError]

/-- A written day is read back. -/
theorem parse_render (d : Day) : parse d.render = .ok d := by
  rw [parse_eq_ok_iff, render, String.toList_ofList]
  exact spells_chars d

end Day

end Daybook
