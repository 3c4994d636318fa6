/-
Daybook.Proofs.DecimalHours — what the decimal figures denote.

A figure in decimal hours stands for a time truncated to hundredths of an hour.
The hundredths are written as one number without leading zeros, so one to nine
of them, which is one to five minutes, are read as tenths; every other figure
is true. Two totals are shown in the opposite order only when the smaller one
is among those. Main statement: `decimal_figures`.

§1 what a text in decimal notation denotes, §2 hundredths, §3 totals.
-/
import Daybook.Proofs.Digits
import Daybook.Statistics
import Daybook.Text.Pieces
import Mathlib.Data.Rat.Floor
import Mathlib.Tactic.NormNum

namespace Daybook

/-! ## §1 Decimal notation -/

/-- The number that a text denotes in decimal notation: digits, a point, and more digits. -/
def Text.decimalReading? (text : String) : Option ℚ :=
  match pieces '.' text.toList with
  | [whole, fraction] => do
    let w ← numeralValue? whole
    let f ← numeralValue? fraction
    pure ((w : ℚ) + (f : ℚ) / 10 ^ fraction.length)
  | _ => none

/-- A number truncated to two decimal places. -/
def truncated (x : ℚ) : ℚ := ⌊x * 100⌋ / 100

/-- A figure that denotes a time truncated to two decimal places. -/
def IsTrueFigure (figure : String) (time : ℚ) : Prop :=
  Text.decimalReading? figure = some (truncated time)

theorem Text.point_not_mem_numeral (n : ℕ) : '.' ∉ numeral n := by
  intro h
  have hdigit := List.all_eq_true.mp (isNumeral_numeral n).digits '.' h
  simp at hdigit

/-- Digits behind the point count as many places as there are. -/
theorem Text.decimalReading?_decimal (w f : ℕ) :
    decimalReading? (decimal w ++ "." ++ decimal f) =
      some ((w : ℚ) + (f : ℚ) / 10 ^ (numeral f).length) := by
  have hchars : (decimal w ++ "." ++ decimal f).toList = numeral w ++ '.' :: numeral f := by
    simp [decimal]
  rw [decimalReading?, hchars, pieces_append (point_not_mem_numeral w),
    pieces_of_not_mem (point_not_mem_numeral f)]
  simp [numeralValue?_numeral]

theorem Text.length_numeral_eq_one {n : ℕ} (h : n < 10) : (numeral n).length = 1 := by
  have hle : (numeral n).length ≤ 1 := (Nat.length_toDigits_le_iff (by decide) (by decide)).mpr h
  have hpos := List.length_pos_iff.mpr (isNumeral_numeral n).nonempty
  omega

theorem Text.length_numeral_eq_two {n : ℕ} (hlow : 10 ≤ n) (hhigh : n < 100) :
    (numeral n).length = 2 := by
  have hle : (numeral n).length ≤ 2 :=
    (Nat.length_toDigits_le_iff (by decide) (by decide)).mpr hhigh
  have hgt : ¬ (numeral n).length ≤ 1 := fun h => by
    have : n < 10 := (Nat.length_toDigits_le_iff (by decide) (by decide)).mp h
    omega
  omega

/-! ## §2 Hundredths -/

namespace WorkTime

def inHours (hours minutes : ℕ) : ℚ := hours + minutes / 60

/-- The hundredths of an hour that minutes amount to, rounded down. -/
def hundredths (minutes : ℕ) : ℕ := minutes * 10 / 6

/-- The hundredths that are read off a figure: fewer than ten of them look like tenths. -/
def readHundredths (minutes : ℕ) : ℕ :=
  if hundredths minutes < 10 then 10 * hundredths minutes else hundredths minutes

/-- Minutes that a figure shows as they are: none, or at least a tenth of an hour. -/
def ShownTrue (minutes : ℕ) : Prop := minutes = 0 ∨ 6 ≤ minutes

instance (minutes : ℕ) : Decidable (ShownTrue minutes) :=
  inferInstanceAs (Decidable (minutes = 0 ∨ 6 ≤ minutes))

/-- The hundredths are read as they are meant just for the minutes that are
shown true. -/
theorem readHundredths_eq_iff (minutes : ℕ) :
    readHundredths minutes = hundredths minutes ↔ ShownTrue minutes := by
  unfold readHundredths hundredths ShownTrue
  split <;> omega

theorem readHundredths_le {m n : ℕ} (hm : ShownTrue m) (h : m ≤ n) :
    readHundredths m ≤ readHundredths n := by
  unfold readHundredths hundredths
  unfold ShownTrue at hm
  split <;> split <;> omega

theorem readHundredths_lt_hundred {minutes : ℕ} (h : minutes < 60) :
    readHundredths minutes < 100 := by
  unfold readHundredths hundredths
  split <;> omega

/-- What is read off a figure: the hours, and the hundredths as they look. -/
theorem decimalReading?_decimalHours (hours : ℕ) {minutes : ℕ} (h : minutes < 60) :
    Text.decimalReading? (decimalHours hours minutes) =
      some ((hours : ℚ) + (readHundredths minutes : ℚ) / 100) := by
  have hbound : hundredths minutes < 100 := by
    unfold hundredths
    omega
  have hdigits : fractionOfMinutes minutes = Text.decimal
      (if hundredths minutes % 10 = 0 then hundredths minutes / 10 else hundredths minutes) := rfl
  rw [decimalHours, hdigits, Text.decimalReading?_decimal, readHundredths]
  generalize hundredths minutes = v at hbound
  congr 2
  by_cases hzero : v % 10 = 0
  · -- one digit, for tenths
    obtain ⟨k, rfl⟩ : ∃ k, v = 10 * k := ⟨v / 10, by omega⟩
    have hk : 10 * k / 10 = k := by omega
    rw [if_pos hzero, hk, Text.length_numeral_eq_one (by omega)]
    split
    · have : k = 0 := by omega
      simp [this]
    · push_cast
      ring
  · rw [if_neg hzero]
    split
    · -- one digit again, though for hundredths
      next hsmall =>
      rw [Text.length_numeral_eq_one hsmall]
      push_cast
      ring
    · next hlarge =>
      rw [Text.length_numeral_eq_two (by omega) hbound]
      norm_num

/-- A time truncated to two places has its hours and its hundredths. -/
theorem truncated_inHours (hours minutes : ℕ) :
    truncated (inHours hours minutes) = (hours : ℚ) + (hundredths minutes : ℚ) / 100 := by
  have hfraction : inHours hours minutes * 100 =
      ((hours * 600 + minutes * 10 : ℕ) : ℚ) / ((6 : ℕ) : ℚ) := by
    unfold inHours
    push_cast
    ring
  have hfloor : ⌊inHours hours minutes * 100⌋ = ((hours * 100 + hundredths minutes : ℕ) : ℤ) := by
    rw [hfraction, Rat.floor_natCast_div_natCast]
    unfold hundredths
    omega
  rw [truncated, hfloor]
  push_cast
  ring

/-- A figure is true if and only if its minutes are shown as they are. -/
theorem isTrueFigure_decimalHours (hours : ℕ) {minutes : ℕ} (h : minutes < 60) :
    IsTrueFigure (decimalHours hours minutes) (inHours hours minutes) ↔ ShownTrue minutes := by
  rw [IsTrueFigure, decimalReading?_decimalHours hours h, truncated_inHours,
    ← readHundredths_eq_iff, Option.some_inj, add_right_inj, div_left_inj' (by norm_num),
    Nat.cast_inj]

end WorkTime

/-! ## §3 Totals -/

open WorkTime

/-- A figure that reads as less than another. -/
def ReadsBelow (figure other : String) : Prop :=
  ∃ x ∈ Text.decimalReading? figure, ∃ y ∈ Text.decimalReading? other, x < y

/-- Figures compare by their hours, then by the hundredths that are read off
them. -/
theorem readsBelow_decimalHours {h m h' m' : ℕ} (hm : m < 60) (hm' : m' < 60) :
    ReadsBelow (decimalHours h m) (decimalHours h' m') ↔
      h < h' ∨ h = h' ∧ readHundredths m < readHundredths m' := by
  have hr := readHundredths_lt_hundred hm
  have hr' := readHundredths_lt_hundred hm'
  have hvalue : ∀ a b : ℕ, (a : ℚ) + (b : ℚ) / 100 = ((a * 100 + b : ℕ) : ℚ) / 100 := by
    intro a b
    push_cast
    ring
  simp only [ReadsBelow, decimalReading?_decimalHours _ hm, decimalReading?_decimalHours _ hm',
    Option.mem_some_iff, exists_eq_left', hvalue,
    div_lt_div_iff_of_pos_right (by norm_num : (0 : ℚ) < 100), Nat.cast_lt]
  omega

namespace Total

def inHours (t : Total) : ℚ := WorkTime.inHours t.hours t.minutes

/-- A total whose minutes stay below the largest count. -/
def Unsaturated (t : Total) : Prop := t.hours * 60 + t.minutes ≤ Counter.largest

instance (t : Total) : Decidable t.Unsaturated :=
  inferInstanceAs (Decidable (t.hours * 60 + t.minutes ≤ Counter.largest))

theorem totalMinutes_of_unsaturated {t : Total} (h : t.Unsaturated) :
    t.totalMinutes = t.hours * 60 + t.minutes := by
  unfold Unsaturated at h
  rw [totalMinutes, minutesOf, Counter.cap_cap_add, Counter.cap_of_le h]

theorem inHours_eq_totalMinutes {t : Total} (h : t.Unsaturated) :
    t.inHours = (t.totalMinutes : ℚ) / 60 := by
  rw [totalMinutes_of_unsaturated h, inHours, WorkTime.inHours]
  push_cast
  ring

/-- Carrying the minutes does not change the time. -/
theorem inHours_eq_carried {t : Total} (h : t.Unsaturated) :
    t.inHours = WorkTime.inHours t.wholeHours t.restMinutes := by
  have hcarry : t.totalMinutes = t.wholeHours * 60 + t.restMinutes :=
    (Nat.div_add_mod' t.totalMinutes 60).symm
  rw [inHours_eq_totalMinutes h, hcarry, WorkTime.inHours]
  push_cast
  ring

theorem restMinutes_lt (t : Total) : t.restMinutes < 60 := Nat.mod_lt _ (by decide)

/-- The figure of a total is true just if it shows the minutes beside the hours
as they are. -/
theorem isTrueFigure_decimal {t : Total} (h : t.Unsaturated) :
    IsTrueFigure t.decimal t.inHours ↔ ShownTrue t.restMinutes := by
  rw [inHours_eq_carried h]
  exact isTrueFigure_decimalHours t.wholeHours t.restMinutes_lt

/-- Two totals are shown in the opposite order when they have the same hours and the smaller one
has minutes that look like more than those of the other. -/
theorem readsBelow_decimal {a b : Total} (ha : a.Unsaturated) (hb : b.Unsaturated)
    (hlt : a.inHours < b.inHours) :
    ReadsBelow b.decimal a.decimal ↔
      a.wholeHours = b.wholeHours ∧ ¬ ShownTrue a.restMinutes ∧
        readHundredths b.restMinutes < readHundredths a.restMinutes := by
  have htotal : a.totalMinutes < b.totalMinutes := by
    rw [inHours_eq_totalMinutes ha, inHours_eq_totalMinutes hb,
      div_lt_div_iff_of_pos_right (by norm_num : (0 : ℚ) < 60)] at hlt
    exact_mod_cast hlt
  have hhours : a.wholeHours ≤ b.wholeHours := Nat.div_le_div_right htotal.le
  have hrest : a.wholeHours = b.wholeHours → a.restMinutes ≤ b.restMinutes := by
    intro heq
    unfold wholeHours at heq
    unfold restMinutes
    omega
  rw [decimal, decimal, readsBelow_decimalHours b.restMinutes_lt a.restMinutes_lt]
  constructor
  · rintro (hbelow | ⟨heq, hread⟩)
    · exact absurd hbelow (Nat.not_lt.mpr hhours)
    · refine ⟨heq.symm, fun hshown => ?_, hread⟩
      exact absurd hread (Nat.not_lt.mpr (readHundredths_le hshown (hrest heq.symm)))
  · rintro ⟨heq, -, hread⟩
    exact Or.inr ⟨heq.symm, hread⟩

end Total

/-- **A figure in decimal hours** reads as its hours and the hundredths that its digits look like;
it is true if and only if it has no minutes beside its hours or at least six. A total that is not
saturated is shown as such a figure, and is shown above a larger one only if it has the same hours
and a figure that is not true. -/
theorem decimal_figures (hours : ℕ) {minutes : ℕ} (hminutes : minutes < 60) {a : Total}
    (ha : a.Unsaturated) (b : Total) :
    Text.decimalReading? (decimalHours hours minutes) =
        some ((hours : ℚ) + (readHundredths minutes : ℚ) / 100) ∧
      (IsTrueFigure (decimalHours hours minutes) (inHours hours minutes) ↔ ShownTrue minutes) ∧
      (IsTrueFigure a.decimal a.inHours ↔ ShownTrue a.restMinutes) ∧
      (b.Unsaturated → a.inHours < b.inHours →
        (ReadsBelow b.decimal a.decimal ↔
          a.wholeHours = b.wholeHours ∧ ¬ ShownTrue a.restMinutes ∧
            readHundredths b.restMinutes < readHundredths a.restMinutes)) :=
  ⟨decimalReading?_decimalHours hours hminutes, isTrueFigure_decimalHours hours hminutes,
    Total.isTrueFigure_decimal ha, fun hb hlt => Total.readsBelow_decimal ha hb hlt⟩

/-- Hours with ninety minutes, which are carried, and a total that is a quarter of an hour more. -/
theorem decimal_figures_carried :
    let a : Total := { category := "aaa", hours := 1, minutes := 90 }
    let b : Total := { category := "bbb", hours := 2, minutes := 45 }
    IsTrueFigure (decimalHours 2 30) (inHours 2 30) ∧ IsTrueFigure a.decimal a.inHours ∧
      ¬ ReadsBelow b.decimal a.decimal := by
  intro a b
  have ha : a.Unsaturated := by decide
  have hb : b.Unsaturated := by decide
  have hlt : a.inHours < b.inHours := by
    norm_num [a, b, Total.inHours, inHours]
  have hminutes : 30 < 60 := by decide
  obtain ⟨-, hfigure, htotal, horder⟩ := decimal_figures 2 hminutes ha b
  refine ⟨hfigure.mpr (by decide), htotal.mpr (by decide), ?_⟩
  rw [horder hb hlt]
  decide

/-- One hour and three minutes has a figure that is not true, which stands above that of one hour
and six minutes. -/
theorem readsBelow_threeMinutes :
    let a : Total := { category := "aaa", hours := 1, minutes := 3 }
    let b : Total := { category := "bbb", hours := 1, minutes := 6 }
    a.Unsaturated ∧ b.Unsaturated ∧ ¬ IsTrueFigure a.decimal a.inHours ∧
      ¬ IsTrueFigure (decimalHours 1 3) (inHours 1 3) ∧
      a.inHours < b.inHours ∧ ReadsBelow b.decimal a.decimal := by
  intro a b
  have ha : a.Unsaturated := by decide
  have hb : b.Unsaturated := by decide
  have hlt : a.inHours < b.inHours := by
    norm_num [a, b, Total.inHours, inHours]
  refine ⟨ha, hb, ?_, ?_, hlt, (Total.readsBelow_decimal ha hb hlt).mpr (by decide)⟩
  · rw [Total.isTrueFigure_decimal ha]
    decide
  · rw [isTrueFigure_decimalHours 1 (by decide)]
    decide

end Daybook
